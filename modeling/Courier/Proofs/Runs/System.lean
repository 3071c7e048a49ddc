import Courier.Proofs.Runs.Books
import Courier.Proofs.Runs.Operations
import Mathlib.Logic.Function.Basic
import Mathlib.Logic.Relation

/-!
Operations that run at the same time in one world. Each is a thread; a step starts or ends one,
answers one call of one of them, or changes the surroundings. Rules say which operations run, which
of them never overlap, which may be abandoned half way, and which answers occur. A property of the
books, the calls answered and the stands of the threads holds throughout if it is kept by every
move of the protocol.
-/

namespace Courier

/-- What kind of work an operation does. -/
inductive Task where
  | intake
  | outbox
  | batch (topic : Topic)
  | reprocessing
  | retention
  | delivery
  deriving DecidableEq

def Operation.task : Operation → Task
  | .submit _ => .intake
  | .publishDue _ _ => .outbox
  | .batch _ _ topic => .batch topic
  | .reprocess _ => .reprocessing
  | .sweep _ => .retention
  | .deliver _ _ => .delivery

def Origin.task : Origin → Task
  | .request => .delivery
  | .record topic _ _ => .batch topic

/-- The work that a program at a stand still does, if any. -/
def Stand.task : Stand → Option Task
  | .over => none
  | .fresh | .drew _ => some .intake
  | .fetching | .publishing _ | .lookedUp _ _ _ | .announced _ _ | .putOff _ _ => some .outbox
  | .polling topic | .unreadable topic _ _ | .settled topic _ _ => some (.batch topic)
  | .handling origin _ | .attempting origin _ | .delivered origin _ | .rejected origin _ =>
    some origin.task
  | .listing | .republishing _ => some .reprocessing
  | .sweeping => some .retention

/-- A call and its answer. -/
structure Answered where
  call : Call
  answer : call.Answer

/-- An operation under way, with what is left of its program. -/
structure Thread where
  op : Operation
  rest : Prog Unit

structure System where
  world : World
  threads : Nat → Option Thread
  /-- The calls answered so far, the latest first. -/
  history : List Answered

/-- Which runs are considered. -/
structure Rules where
  /-- The operations that are run. -/
  runs : Operation → Prop
  /-- The tasks on which never more than one thread works. -/
  single : Task → Prop
  /-- The tasks that may be abandoned between two calls. -/
  abandons : Task → Prop
  /-- The answers that calls may get. -/
  answers : (c : Call) → c.Answer → Prop

def Prog.Ended {α : Type} : Prog α → Prop
  | .done _ | .crash _ => True
  | .ask _ _ => False

instance {α : Type} : DecidablePred (Prog.Ended (α := α))
  | .done _ | .crash _ => isTrue trivial
  | .ask _ _ => isFalse id

namespace System

def idle (w : World) : System := ⟨w, fun _ => none, []⟩

inductive Step (rules : Rules) (s : System) : System → Prop
  | start {i op} (hfree : s.threads i = none) (hruns : rules.runs op)
      (hsingle : rules.single op.task → ∀ j t, s.threads j = some t → t.op.task ≠ op.task) :
      Step rules s { s with threads := Function.update s.threads i (some ⟨op, op.program⟩) }
  | call {i op c next a w} (hthread : s.threads i = some ⟨op, .ask c next⟩)
      (hanswers : s.world.Answers c a w) (hrules : rules.answers c a) :
      Step rules s
        ⟨w, Function.update s.threads i (some ⟨op, next a⟩), ⟨c, a⟩ :: s.history⟩
  | finish {i t} (hthread : s.threads i = some t) (hended : t.rest.Ended) :
      Step rules s { s with threads := Function.update s.threads i none }
  | abandon {i t} (hthread : s.threads i = some t) (hrules : rules.abandons t.op.task) :
      Step rules s { s with threads := Function.update s.threads i none }
  | surroundings {w} (h : w.books = s.world.books) : Step rules s { s with world := w }

abbrev Steps (rules : Rules) : System → System → Prop := Relation.ReflTransGen (Step rules)

end System

/-! ## Invariants -/

namespace Operation

theorem task_start (op : Operation) : op.start.task = some op.task := by
  cases op <;> rfl

end Operation

namespace Stand

theorem task_facing (topic : Topic) (rs : List Record) :
    (facing topic rs).task = none ∨ (facing topic rs).task = some (.batch topic) := by
  cases rs with
  | nil => exact Or.inl rfl
  | cons r rest =>
      rcases facing_cons topic r rest with ⟨-, h⟩ | ⟨n, -, h⟩ | ⟨-, h⟩ <;> rw [h] <;>
        exact Or.inr rfl

theorem rests_of_task {s : Stand} (h : s.task ≠ some .outbox) : s.Rests := by
  intro id hannounces
  cases s with
  | announced e due => exact h rfl
  | _ => exact hannounces

end Stand

/-- A move goes on with the same task or ends it. -/
theorem Moves.task_eq {s s' : Stand} {c : Call} {a : c.Answer} (h : Moves s c a s') :
    s'.task = none ∨ s'.task = s.task := by
  have hsettled (origin : Origin) :
      origin.settled.task = none ∨ origin.settled.task = some origin.task := by
    cases origin with
    | request => exact Or.inl rfl
    | record topic r rest => exact Or.inr rfl
  have hunreadable (origin : Origin) :
      origin.unreadable.task = none ∨ origin.unreadable.task = some origin.task := by
    cases origin with
    | request => exact Or.inl rfl
    | record topic r rest => exact Or.inr rfl
  cases h with
  | fails | promises | misses | forgets => exact Or.inl rfl
  | polls | commits => exact Stand.task_facing _ _
  | skips | records | reschedules | buries => exact hsettled _
  | garbles => exact hunreadable _
  | _ => exact Or.inr rfl

namespace Stand

variable {P : Stand → Prop} {stands : Nat → Stand} {i : Nat} {s : Stand}

def Anyone (P : Stand → Prop) (stands : Nat → Stand) : Prop := ∃ i, P (stands i)

/-- What holds of all stands still does if one of them is replaced. -/
theorem forall_update (h : ∀ j, P (stands j)) (hs : P s) :
    ∀ j, P (Function.update stands i s j) := by
  intro j
  by_cases hj : j = i
  · rwa [hj, Function.update_self]
  · rw [Function.update_of_ne hj]
    exact h j

theorem anyone_update (h : Anyone P stands) (hs : P (stands i) → P s) :
    Anyone P (Function.update stands i s) := by
  obtain ⟨j, hj⟩ := h
  refine ⟨j, ?_⟩
  by_cases heq : j = i
  · rw [heq, Function.update_self]
    exact hs (heq ▸ hj)
  · rwa [Function.update_of_ne heq]

theorem not_anyone_update (h : ¬ Anyone P stands) (hs : ¬ P s) :
    ¬ Anyone P (Function.update stands i s) := by
  rintro ⟨j, hj⟩
  exact absurd hj (forall_update (P := fun s => ¬ P s) (not_exists.mp h) hs j)

end Stand

/-- What a property of the books, the answered calls and the stands has to fulfil in order to hold
in every run. -/
structure Rules.Keeps (rules : Rules)
    (P : Books → List Answered → (Nat → Stand) → Prop) : Prop where
  starts : ∀ {b history stands i op}, P b history stands → stands i = .over → rules.runs op →
    (rules.single op.task → ∀ j, (stands j).task ≠ some op.task) →
    P b history (Function.update stands i op.start)
  moves : ∀ {b b' history stands i c a s}, P b history stands → Moves (stands i) c a s →
    b.Effect c a b' → rules.answers c a →
    P b' (⟨c, a⟩ :: history) (Function.update stands i s)
  leaves : ∀ {b history stands i}, P b history stands →
    (stands i).Rests ∨ (∃ task, rules.abandons task ∧ (stands i).task = some task) →
    P b history (Function.update stands i .over)

namespace System

/-- A thread stands somewhere on its way through the protocol. -/
def StandsAt (thread : Option Thread) (s : Stand) : Prop :=
  match thread with
  | none => s = .over
  | some t => t.rest.Leads s (fun _ s => s.Rests) ∧ (s.task = none ∨ s.task = some t.op.task)

/-- The threads of a system stand somewhere such that a property holds. -/
def Has (P : Books → List Answered → (Nat → Stand) → Prop) (s : System) : Prop :=
  ∃ stands, (∀ i, StandsAt (s.threads i) (stands i)) ∧ P s.world.books s.history stands

private theorem standsAt_update {threads : Nat → Option Thread} {stands : Nat → Stand} {i : Nat}
    {thread : Option Thread} {s : Stand} (h : ∀ j, StandsAt (threads j) (stands j))
    (hi : StandsAt thread s) :
    ∀ j, StandsAt (Function.update threads i thread j) (Function.update stands i s j) := by
  intro j
  by_cases hj : j = i
  · subst hj
    rwa [Function.update_self, Function.update_self]
  · rw [Function.update_of_ne hj, Function.update_of_ne hj]
    exact h j

theorem Step.has {rules : Rules} {P : Books → List Answered → (Nat → Stand) → Prop}
    (hkeeps : rules.Keeps P) {s s' : System} (hstep : Step rules s s') (h : s.Has P) :
    s'.Has P := by
  obtain ⟨stands, hstands, hP⟩ := h
  cases hstep with
  | @start i op hfree hruns hsingle =>
      have hover : stands i = .over := by
        have hi := hstands i
        rwa [hfree] at hi
      refine ⟨Function.update stands i op.start, standsAt_update hstands ?_, ?_⟩
      · exact ⟨op.leads_program, Or.inr op.task_start⟩
      · refine hkeeps.starts hP hover hruns fun hsingular j htask => ?_
        have hj := hstands j
        cases hthread : s.threads j with
        | none =>
            rw [hthread] at hj
            obtain hj : stands j = .over := hj
            rw [hj] at htask
            exact absurd htask nofun
        | some t =>
            rw [hthread] at hj
            rcases hj.2 with hnone | hsome
            · rw [hnone] at htask
              exact absurd htask nofun
            · rw [hsome] at htask
              exact hsingle hsingular j t hthread (Option.some.inj htask)
  | @call i op c next a w hthread hanswers hrules =>
      have hi := hstands i
      rw [hthread] at hi
      obtain ⟨hleads, htask⟩ := hi
      obtain ⟨s', hmove, hnext⟩ := hleads a
      refine ⟨Function.update stands i s', standsAt_update hstands ⟨hnext, ?_⟩,
        hkeeps.moves hP hmove hanswers.effect hrules⟩
      rcases hmove.task_eq with hnone | hsame
      · exact Or.inl hnone
      · rwa [hsame]
  | @finish i t hthread hended =>
      have hi := hstands i
      rw [hthread] at hi
      have hrests : (stands i).Rests := by
        obtain ⟨op, rest⟩ := t
        cases rest with
        | done a => exact hi.1
        | crash text => exact hi.1
        | ask c next => exact hended.elim
      exact ⟨Function.update stands i .over, standsAt_update hstands rfl,
        hkeeps.leaves hP (Or.inl hrests)⟩
  | @abandon i t hthread hrules =>
      have hi := hstands i
      rw [hthread] at hi
      refine ⟨Function.update stands i .over, standsAt_update hstands rfl,
        hkeeps.leaves hP ?_⟩
      rcases hi.2 with hnone | hsome
      · refine Or.inl (Stand.rests_of_task ?_)
        rw [hnone]
        exact nofun
      · exact Or.inr ⟨t.op.task, hrules, hsome⟩
  | @surroundings w hbooks =>
      refine ⟨stands, hstands, ?_⟩
      rw [← hbooks] at hP
      exact hP

/-- What holds at first and is kept by every move holds in every run. -/
theorem Steps.has {rules : Rules} {P : Books → List Answered → (Nat → Stand) → Prop}
    (hkeeps : rules.Keeps P) {s s' : System} (hsteps : Steps rules s s') (h : s.Has P) :
    s'.Has P := by
  induction hsteps with
  | refl => exact h
  | tail _ hstep ih => exact hstep.has hkeeps ih

/-! ## Served runs -/

/-- The system with an operation started. -/
def launch (s : System) (i : Nat) (op : Operation) : System :=
  { s with threads := Function.update s.threads i (some ⟨op, op.program⟩) }

/-- The system with the next call of a thread answered by the world, if there is one. -/
def serve (s : System) (i : Nat) : System :=
  match s.threads i with
  | some ⟨op, .ask c next⟩ =>
    match s.world.answer c with
    | (.done a, w) => ⟨w, Function.update s.threads i (some ⟨op, next a⟩), ⟨c, a⟩ :: s.history⟩
    | _ => s
  | _ => s

/-- Calls of several threads answered in this order. -/
def serveAll (s : System) (order : List Nat) : System := order.foldl serve s

/-- The system without a thread. -/
def retire (s : System) (i : Nat) : System :=
  { s with threads := Function.update s.threads i none }

/-- An operation run by a thread of its own, with so many of its calls answered. -/
def perform (s : System) (i : Nat) (op : Operation) (calls : Nat) : System :=
  ((s.launch i op).serveAll (List.replicate calls i)).retire i

def tasks (s : System) : Nat → Option Task := Option.map (·.op.task) ∘ s.threads

section Served

variable {rules : Rules} (s : System) (i : Nat)

theorem tasks_launch (op : Operation) :
    (s.launch i op).tasks = Function.update s.tasks i (some op.task) :=
  Function.comp_update _ s.threads i _

theorem tasks_retire : (s.retire i).tasks = Function.update s.tasks i none :=
  Function.comp_update _ s.threads i none

private theorem tasks_serve : (s.serve i).tasks = s.tasks := by
  unfold serve
  split
  · next op c next hthread =>
    have hsame : s.tasks i = some op.task := by
      rw [tasks, Function.comp_apply, hthread]
      rfl
    split
    · apply (Function.comp_update _ s.threads i _).trans
      exact (congrArg (Function.update s.tasks i) hsame.symm).trans (Function.update_eq_self i _)
    · rfl
  · rfl

theorem tasks_serveAll (order : List Nat) : (s.serveAll order).tasks = s.tasks := by
  induction order generalizing s with
  | nil => rfl
  | cons i order ih => exact (ih (s.serve i)).trans (s.tasks_serve i)

theorem tasks_perform (op : Operation) (calls : Nat) (hfree : s.tasks i = none) :
    (s.perform i op calls).tasks = s.tasks := by
  rw [perform, tasks_retire, tasks_serveAll, tasks_launch, Function.update_idem, ← hfree,
    Function.update_eq_self]

private theorem history_serve : s.history ⊆ (s.serve i).history := by
  unfold serve
  split
  · split
    · exact List.subset_cons_self _ _
    · exact List.Subset.refl _
  · exact List.Subset.refl _

theorem history_serveAll (order : List Nat) :
    s.history ⊆ (s.serveAll order).history := by
  induction order generalizing s with
  | nil => exact List.Subset.refl _
  | cons i order ih => exact List.Subset.trans (s.history_serve i) (ih (s.serve i))

theorem history_perform (op : Operation) (calls : Nat) :
    s.history ⊆ (s.perform i op calls).history :=
  (s.launch i op).history_serveAll _

/-- Calls answered by the world are steps, if the rules allow the answers. -/
theorem steps_serveAll (order : List Nat)
    (hanswers : ∀ x ∈ (s.serveAll order).history, rules.answers x.call x.answer) :
    Steps rules s (s.serveAll order) := by
  induction order generalizing s with
  | nil => exact .refl
  | cons i order ih =>
      have hfirst : Steps rules s (s.serve i) := by
        have hall : ∀ x ∈ (s.serve i).history, rules.answers x.call x.answer :=
          fun x hx => hanswers x (history_serveAll (s.serve i) order hx)
        unfold serve at hall ⊢
        split
        · next op c next hthread =>
          rw [hthread] at hall
          dsimp only at hall
          split
          · next a w hanswer =>
            rw [hanswer] at hall
            exact .single (.call hthread (.serves hanswer) (hall ⟨c, a⟩ List.mem_cons_self))
          · exact .refl
        · exact .refl
      exact hfirst.trans (ih (s.serve i) hanswers)

theorem step_launch {op : Operation} (hfree : s.tasks i = none) (hruns : rules.runs op)
    (hsingle : rules.single op.task → ∀ j, s.tasks j ≠ some op.task) :
    Step rules s (s.launch i op) := by
  refine .start (Option.map_eq_none_iff.mp hfree) hruns fun hone j t hthread htask => ?_
  apply hsingle hone j
  rw [tasks, Function.comp_apply, hthread, ← htask]
  rfl

theorem steps_retire (hended : ∀ t ∈ s.threads i, t.rest.Ended) : Steps rules s (s.retire i) := by
  cases hthread : s.threads i with
  | none =>
      rw [retire, ← hthread, Function.update_eq_self]
  | some t => exact .single (.finish hthread (hended t hthread))

/-- An operation that comes to its end is a run of steps. -/
theorem steps_perform {op : Operation} {calls : Nat} (hfree : s.tasks i = none)
    (hruns : rules.runs op) (hsingle : rules.single op.task → ∀ j, s.tasks j ≠ some op.task)
    (hanswers : ∀ x ∈ (s.perform i op calls).history, rules.answers x.call x.answer)
    (hended : ∀ t ∈ ((s.launch i op).serveAll (List.replicate calls i)).threads i,
      t.rest.Ended) : Steps rules s (s.perform i op calls) :=
  (Relation.ReflTransGen.single (s.step_launch i hfree hruns hsingle)).trans
    ((steps_serveAll _ _ hanswers).trans (steps_retire _ i hended))

end Served
end System
end Courier
