import Courier.Proofs.Runs.Closed

/-!
Closed runs with their calls on record. A program that runs alone adds the calls that it was
answered to the account of the world, and ends with its value, with an overflow, or with a call
that nobody answers. The worlds are those of the plain run; what is on record besides is how often
channels were called, and which writes succeeded.
-/

namespace Courier

/-- A world, and the calls answered in it so far, the latest first. -/
structure Account where
  world : World
  history : List Answered

/-- How a program ends that runs alone. -/
inductive Close (α : Type) where
  | returned (a : α)
  /-- The program broke off of itself: it moved a moment out of range. -/
  | overflowed
  /-- A channel broke off or never answered. -/
  | unanswered
  deriving DecidableEq

def Close.isOverflow {α : Type} : Close α → Bool
  | .overflowed => true
  | _ => false

namespace Prog

variable {α β : Type}

/-- Runs a program to its end and puts its calls on record. -/
def perform : Prog α → Account → Close α × Account
  | .done a, s => (.returned a, s)
  | .crash _, s => (.overflowed, s)
  | .ask c next, s =>
    match s.world.answer c with
    | (.done a, world) => (next a).perform ⟨world, ⟨c, a⟩ :: s.history⟩
    | (_, world) => (.unanswered, ⟨world, s.history⟩)

theorem world_perform (p : Prog α) (s : Account) :
    (p.perform s).2.world = (p.run s.world).2 := by
  induction p generalizing s with
  | done a | crash text => rfl
  | ask c next ih =>
      rw [perform, run]
      rcases s.world.answer c with ⟨_ | _ | _, world⟩
      · exact ih _ _
      · rfl
      · rfl

theorem perform_of_run {p : Prog α} {w w' : World} {a : α} (h : p.run w = (.done a, w'))
    (history : List Answered) :
    ∃ history', p.perform ⟨w, history⟩ = (.returned a, ⟨w', history'⟩) := by
  induction p generalizing w history with
  | done b =>
      obtain ⟨rfl, rfl⟩ : b = a ∧ w = w' := by simpa [run] using h
      exact ⟨history, rfl⟩
  | crash text => cases (Prod.mk.inj h).1
  | ask c next ih =>
      rw [run] at h
      rw [perform]
      dsimp only
      rcases hanswer : w.answer c with ⟨answer | _ | _, world⟩ <;> rw [hanswer] at h <;>
        dsimp only at h ⊢
      · exact ih answer h _
      · cases (Prod.mk.inj h).1
      · cases (Prod.mk.inj h).1

theorem perform_bind (p : Prog α) (f : α → Prog β) (s : Account) :
    (p.bind f).perform s = match p.perform s with
      | (.returned a, s') => (f a).perform s'
      | (.overflowed, s') => (.overflowed, s')
      | (.unanswered, s') => (.unanswered, s') := by
  induction p generalizing s with
  | done a | crash text => rfl
  | ask c next ih =>
      rw [bind, perform, perform]
      rcases s.world.answer c with ⟨_ | _ | _, world⟩
      · exact ih _ _
      · rfl
      · rfl

theorem serial_le_perform (p : Prog α) (s : Account) :
    s.world.serial ≤ (p.perform s).2.world.serial := by
  rw [world_perform]
  exact p.serial_le_run s.world

end Prog

namespace Account

/-- A world with nothing on record. -/
def opened (w : World) : Account := ⟨w, []⟩

def obey (s : Account) : Command → Account
  | .run op => (op.program.perform s).2
  | command => { s with world := s.world.obey command }

/-- The account after a closed run. -/
def after (s : Account) (commands : List Command) : Account := commands.foldl obey s

theorem world_obey (s : Account) (command : Command) :
    (s.obey command).world = s.world.obey command := by
  cases command with
  | run op => exact op.program.world_perform s
  | _ => rfl

theorem world_after (s : Account) (commands : List Command) :
    (s.after commands).world = s.world.after commands := by
  induction commands generalizing s with
  | nil => rfl
  | cons command commands ih =>
      have hnext := ih (s.obey command)
      rwa [world_obey] at hnext

theorem world_opened_after (w : World) (commands : List Command) :
    ((opened w).after commands).world = w.after commands := (opened w).world_after commands

theorem after_append (s : Account) (commands commands' : List Command) :
    s.after (commands ++ commands') = (s.after commands).after commands' :=
  List.foldl_append

theorem serial_le_obey (s : Account) (command : Command) :
    s.world.serial ≤ (s.obey command).world.serial := by
  rw [world_obey]
  exact s.world.serial_le_obey command

theorem serial_le_after (s : Account) (commands : List Command) :
    s.world.serial ≤ (s.after commands).world.serial := by
  rw [world_after]
  exact s.world.serial_le_after commands

end Account

/-! ## Calls to channels -/

/-- Only a call to a channel may have no answer. -/
def Call.IsSend : Call → Prop
  | .send _ _ => True
  | _ => False

namespace World

variable {w w' : World} {place : Nat} {n : Notification} {o : Outcome (Except DeliveryError Unit)}

theorem books_of_send (h : w.answer (.send place n) = (o, w')) : w'.books = w.books := by
  rw [show w' = (w.sendAndWait place n).2 from (congrArg Prod.snd h).symm]
  exact w.books_sendAndWait place n

theorem pipelineStats_of_send (h : w.answer (.send place n) = (o, w')) :
    w'.pipelineStats = w.pipelineStats := by
  obtain ⟨channels, journal, millis, heq⟩ := w.sendAndWait_eq place n
  rw [show w' = (w.sendAndWait place n).2 from (congrArg Prod.snd h).symm, heq]

end World

/-! ## Small runs -/

namespace Sample

variable {p : Pipeline} {op : Operation}

/-- A notification is taken in and published. -/
def arrival (p : Pipeline) : List Command :=
  [.run (.submit request), .run (.publishDue p.publication 100)]

/-- A first attempt is made to deliver it. -/
def firstAttempt (p : Pipeline) : List Command := arrival p ++ [.run (.batch p .loops .send)]

/-- Ten seconds have gone by, and it is tried again. -/
def secondAttempt (p : Pipeline) : List Command :=
  [.setClock ⟨10_000_000⟩, .run (.publishDue p.publication 100), .run (.batch p .loops .retry)]

/-- What was given up is published by hand and tried once more. -/
def revival (p : Pipeline) : List Command :=
  [.run (.reprocess 100), .run (.batch p .loops .send)]

/-- All that runs are operations of the one pipeline. -/
theorem runs_pipeline (h : .run op ∈ firstAttempt p ++ (secondAttempt p ++ revival p)) :
    op.task ≠ .delivery ∧ ∀ q ledger topic, op = .batch q ledger topic → q = p := by
  simp only [arrival, firstAttempt, secondAttempt, revival, List.cons_append, List.nil_append,
    List.mem_cons, Command.run.injEq, reduceCtorEq, List.not_mem_nil, or_false, false_or] at h
  rcases h with rfl | rfl | rfl | rfl | rfl | rfl | rfl
  all_goals
    refine ⟨nofun, ?_⟩
    intro q ledger topic heq
    cases heq
    try rfl

end Sample
end Courier
