import Courier.Proofs.Runs.Finality
import Courier.Proofs.Turns.Turn

/-!
A program that runs alone, followed from stand to stand with its calls on record. Nobody else
touches the books meanwhile, so they are consistent and in order at each of its stands, and a
property that every move keeps holds where the program ends. Carried over operations and commands
it holds between the operations of a closed run. Unlike a run of several threads, channels may
answer here what they like, and any call may be made to fail.
-/

namespace Courier

open Job

/-! ## What is published by whom -/

/-- The calls that a task makes. All that a batch publishes are reports on unreadable records. -/
def Task.Makes : Task → Call → Prop
  | .batch _, .publish _ _ payload => ∃ report : UnreadableReport, payload = report.encode
  | _, _ => True

theorem Call.Delivers.makes {c : Call} (h : c.Delivers) (task : Task) : task.Makes c := by
  cases c with
  | publish topic key payload => exact (h.elim id id).elim
  | _ => cases task <;> exact trivial

namespace Pipeline

variable (p : Pipeline) (ledger : Ledger) (topic other : Topic) (r : Record)

theorem asks_handle : ((p.handler other).handle r).run.Asks (Task.batch topic).Makes := by
  have hdeliver (n : Notification) :
      (p.delivery.deliver n).run.Asks (Task.batch topic).Makes :=
    Prog.asks_mono (p.delivery.asks_deliver n) fun _ hc => hc.makes _
  have henvelope : (Handler.envelope r).run.Asks (Task.batch topic).Makes := trivial
  cases other with
  | send =>
      refine asks_bind henvelope fun e => ?_
      exact asks_bind (hdeliver e.notification) fun _ => trivial
  | retry =>
      refine asks_bind henvelope fun e => ?_
      refine asks_bind (asks_bind (asks_call trivial) fun now => ?_) fun _ => trivial
      split
      · exact trivial
      · exact asks_bind (hdeliver e.notification) fun _ => trivial
  | deadLetter => exact asks_bind (asks_call trivial) fun _ => trivial

theorem asks_settle : ((p.consumer ledger topic).settle r).run.Asks (Task.batch topic).Makes := by
  refine asks_bind (Prog.asks_bind (p.asks_handle topic topic r) fun _ => trivial) fun result => ?_
  have hreport : ((p.consumer ledger topic).report r).run.Asks (Task.batch topic).Makes := by
    refine asks_bind (asks_call trivial) fun now => ?_
    refine asks_bind (asks_call trivial) fun id => ?_
    exact asks_bind (asks_attempt ⟨⟨_, rfl⟩, fun _ => trivial⟩) fun _ => asks_call trivial
  have hjob (error : DeliveryError) (b : Bool) :
      (if b then throw error else pure false : Job Bool).run.Asks (Task.batch topic).Makes := by
    cases b <;> exact trivial
  rcases result with error | (_ | _)
  · cases error with
    | deserialization message => exact asks_bind hreport fun _ => trivial
    | _ => exact hjob _ _
  · exact trivial
  · exact trivial

theorem asks_settleAll (rs : List Record) (committed : Nat) :
    ((p.consumer ledger topic).settleAll rs committed).run.Asks (Task.batch topic).Makes := by
  induction rs generalizing committed with
  | nil => exact trivial
  | cons r rest ih =>
      refine asks_bind (p.asks_settle ledger topic r) fun settled => ?_
      cases settled with
      | false => exact trivial
      | true =>
          refine asks_bind (asks_attempt ⟨trivial, fun _ => trivial⟩) fun _ => ?_
          exact ih (committed + 1)

end Pipeline

theorem Operation.asks_program (op : Operation) : op.program.Asks op.task.Makes := by
  cases op with
  | batch p ledger topic =>
      refine Prog.asks_bind ?_ fun _ => trivial
      refine asks_bind (asks_attempt ⟨trivial, fun _ => trivial⟩) fun rs => ?_
      exact p.asks_settleAll ledger topic rs 0
  | _ => exact Prog.asks_of_forall _ fun c => trivial

/-! ## Written rows -/

/-- What an attempt may make of a notification, whatever it is decided by. -/
inductive Notification.Attempted (n : Notification) : Notification → Prop
  | sent {now} : Attempted n (n.sent now)
  | failed {failure next now} : Attempted n (n.retryScheduled failure next now)
  | given_up {failure now} : Attempted n (n.deadLettered failure now)

/-- Rows are only written by intake, and where an attempt is recorded. -/
theorem Moves.rows {s s' : Stand} {c : Call} {a : c.Answer} {b b' : Books} (h : Moves s c a s')
    (heffect : b.Effect c a b') (hintake : s.task ≠ some .intake) :
    b'.rows = b.rows ∨
      ∃ n m, s.Attempts n ∧ n.Attempted m ∧ b'.rows = Store.putInto m b.rows := by
  cases h with
  | promises => exact absurd rfl hintake
  | records => exact Or.inr ⟨_, _, rfl, .sent, congrArg Books.rows heffect.of_save⟩
  | reschedules =>
      exact Or.inr ⟨_, _, rfl, .failed, congrArg Books.rows heffect.of_saveWithOutbox.2⟩
  | buries =>
      exact Or.inr ⟨_, _, rfl, .given_up, congrArg Books.rows heffect.of_saveWithOutbox.2⟩
  | passes hc =>
      obtain ⟨serial, -, rfl⟩ := heffect.of_idle (Or.inl hc)
      exact Or.inl rfl
  | fails hc =>
      obtain ⟨serial, -, rfl⟩ := heffect.of_idle (Or.inr (Or.inl hc))
      exact Or.inl rfl
  | delivers | rejects | garbles =>
      obtain ⟨serial, -, rfl⟩ := heffect.of_idle (Or.inr (Or.inr ⟨_, _, rfl⟩))
      exact Or.inl rfl
  | _ => exact Or.inl (heffect.rows_eq trivial)

/-! ## Properties of the only stand -/

/-- A property of the books, of the calls on record and of the only stand. -/
abbrev Alone : Type := Books → List Answered → Stand → Prop

namespace Alone

/-- It is kept by every move, as long as the books are in order and what was published is marked. -/
def Kept (P : Alone) : Prop :=
  ∀ ⦃b b' : Books⦄ ⦃history : List Answered⦄ ⦃s s' : Stand⦄ ⦃c : Call⦄ ⦃a : c.Answer⦄,
    b.Consistent s.only → b.Orderly True s.only → P b history s → Moves s c a s' →
    (∀ task, s.task = some task → task.Makes c) → Answered.forgets ⟨c, a⟩ = false →
    b.Effect c a b' → b'.serial ≤ Books.serialLimit → P b' (⟨c, a⟩ :: history) s'

/-- It is kept by every move, and where programs start and end. -/
structure Lasts (P : Alone) : Prop where
  starts : ∀ {b history} {op : Operation}, op.task ≠ .delivery → P b history .over →
    P b history op.start
  moves : P.Kept
  leaves : ∀ {b history s}, P b history s → s.Rests → P b history .over

end Alone

/-- The only program stands somewhere. The books are in order, and the property holds. -/
structure Account.At (P : Alone) (t : Account) (s : Stand) : Prop where
  outbox : s.task = some .outbox → s ≠ .fetching → t.world.store.outboxError = none
  consistent : t.world.books.Consistent s.only
  orderly : t.world.books.Orderly True s.only
  holds : P t.world.books t.history s

/-- Where a program may leave off: it returned there, or it came to rest. -/
def Close.Leaves {α : Type} (Q : α → Stand → Prop) : Close α → Stand → Prop
  | .returned a => Q a
  | _ => Stand.Rests

namespace Account.At

variable {P : Alone} {t : Account} {s s' : Stand} {c : Call} {a : c.Answer} {world : World}

private theorem retains (h : t.At P s) :
    t.world.books.Retains (fun b _ stands => b.Orderly True stands) t.history s.only :=
  fun _ => ⟨h.consistent, h.orderly⟩

theorem start {op : Operation} (h : t.At P .over) (hop : op.task ≠ .delivery)
    (hP : P t.world.books t.history op.start)
    (hserial : t.world.serial ≤ Books.serialLimit) : t.At P op.start := by
  have hkeeps := (Rules.preserves_orderly True).keeps fun _ hruns => hruns.1
  have hstarted := hkeeps.starts (i := 0) h.retains Stand.over.only_zero ⟨hop, fun _ => trivial⟩
    fun _ j => by rw [Stand.only_over]; exact nofun
  rw [Stand.update_only] at hstarted
  obtain ⟨hconsistent, horderly⟩ := hstarted hserial
  refine ⟨fun htask hfetched => ?_, hconsistent, horderly, hP⟩
  cases op with
  | publishDue p limit => exact absurd rfl hfetched
  | _ => exact nomatch htask

theorem move (hkept : P.Kept) (h : t.At P s) (hleads : ∀ a, ∃ s', Moves s c a s')
    (hmove : Moves s c a s') (hmakes : ∀ task, s.task = some task → task.Makes c)
    (hanswer : t.world.answer c = (.done a, world))
    (hserial : world.serial ≤ Books.serialLimit) : At P ⟨world, ⟨c, a⟩ :: t.history⟩ s' := by
  have hkeeps := (Rules.preserves_orderly True).keeps fun _ hruns => hruns.1
  have heffect := World.effect_of_answer hanswer
  have hremembers := World.remembers h.outbox h.orderly s.only_zero hleads hanswer
  have hmoved := hkeeps.moves (i := 0) h.retains (s.only_zero.symm ▸ hmove) heffect hremembers
  rw [Stand.update_only] at hmoved
  obtain ⟨hconsistent, horderly⟩ := hmoved hserial
  exact ⟨World.outboxError_move h.outbox hmove hanswer, hconsistent, horderly,
    hkept h.consistent h.orderly h.holds hmove hmakes hremembers heffect hserial⟩

theorem leave (hlasts : P.Lasts) (h : t.At P s) (hrests : s.Rests)
    (hserial : t.world.serial ≤ Books.serialLimit) : t.At P .over := by
  have hkeeps := (Rules.preserves_orderly True).keeps fun _ hruns => hruns.1
  have hleft := hkeeps.leaves (i := 0) h.retains (Or.inl (s.only_zero.symm ▸ hrests))
  rw [Stand.update_only] at hleft
  obtain ⟨hconsistent, horderly⟩ := hleft hserial
  exact ⟨nofun, hconsistent, horderly, hlasts.leaves h.holds hrests⟩

/-- What happens between operations leaves the books as they are. -/
theorem elapse (h : t.At P .over) (hbooks : world.books = t.world.books) :
    At P ⟨world, t.history⟩ .over := by
  refine ⟨nofun, ?_, ?_, ?_⟩ <;> dsimp only <;> rw [hbooks]
  · exact h.consistent
  · exact h.orderly
  · exact h.holds

end Account.At

/-! ## Runs -/

namespace Prog

variable {α : Type} {P : Alone} {s : Stand} {Q : α → Stand → Prop}

/-- A program that runs alone keeps to the protocol to its end, and its property with it. -/
theorem perform_at (hkept : P.Kept) {p : Prog α} {t : Account} (hleads : p.Leads s Q)
    (hmakes : ∀ task, s.task = some task → p.Asks task.Makes) (h : t.At P s)
    (hserial : (p.perform t).2.world.serial ≤ Books.serialLimit) :
    ∃ s', (p.perform t).1.Leaves Q s' ∧ (p.perform t).2.At P s' := by
  induction p generalizing s t with
  | done a => exact ⟨s, hleads, h⟩
  | crash text => exact ⟨s, hleads, h⟩
  | ask c next ih =>
      have hmoves : ∀ a, ∃ s', Moves s c a s' := fun a => (hleads a).imp fun _ h => h.1
      rw [perform] at hserial ⊢
      rcases hanswer : t.world.answer c with ⟨o, world⟩
      rw [hanswer] at hserial
      cases o with
      | done a =>
          obtain ⟨s', hmove, hnext⟩ := hleads a
          have hbefore := ((next a).serial_le_perform ⟨world, ⟨c, a⟩ :: t.history⟩).trans hserial
          have hmoved := h.move hkept hmoves hmove (fun task htask => (hmakes task htask).1) hanswer
            hbefore
          refine ih a hnext (fun task htask => ?_) hmoved hserial
          refine (hmakes task ?_).2 a
          exact (hmove.task_eq.resolve_left (by simp [htask])) ▸ htask
      | crashed text | stuck =>
          obtain ⟨hbooks, place, n, rfl⟩ := World.unanswered hanswer (by simp)
          obtain ⟨s', hmove⟩ := hmoves (.ok ())
          obtain ⟨origin, rfl⟩ : ∃ origin, s = .attempting origin n := by
            cases hmove with
            | passes hc => exact hc.elim
            | fails hc => cases hc.choose_spec
            | delivers => exact ⟨_, rfl⟩
          refine ⟨.attempting origin n, fun (_ : Uuid) hannounces => ?_, ?_⟩
          · cases hannounces
          refine ⟨fun htask => ?_, ?_, ?_, ?_⟩ <;> dsimp only
          · cases origin <;> cases htask
          · rw [hbooks]; exact h.consistent
          · rw [hbooks]; exact h.orderly
          · rw [hbooks]; exact h.holds

/-- A program that returned stands where it was led to. -/
theorem at_of_perform (hkept : P.Kept) {p : Prog α} {t t' : Account} {a : α}
    (hleads : p.Leads s Q) (hmakes : ∀ task, s.task = some task → p.Asks task.Makes)
    (h : t.At P s) (hperform : p.perform t = (.returned a, t'))
    (hserial : t'.world.serial ≤ Books.serialLimit) : ∃ s', Q a s' ∧ t'.At P s' := by
  have hends := perform_at hkept hleads hmakes h (by rw [hperform]; exact hserial)
  rwa [hperform] at hends

end Prog

namespace Account

variable {P : Alone} {t : Account}

/-- What lasts holds between the operations of a closed run. -/
theorem at_after (hlasts : P.Lasts) {commands : List Command}
    (hruns : ∀ op, Command.run op ∈ commands → op.task ≠ .delivery) (h : t.At P .over)
    (hserial : (t.after commands).world.serial ≤ Books.serialLimit) :
    (t.after commands).At P .over := by
  induction commands generalizing t with
  | nil => exact h
  | cons command commands ih =>
      refine ih (fun op hop => hruns op (List.mem_cons_of_mem command hop)) ?_ hserial
      have hbetween := (serial_le_after (t.obey command) commands).trans hserial
      cases command with
      | run op =>
          have hop := hruns op List.mem_cons_self
          have hstarted := h.start hop (hlasts.starts hop h.holds)
            ((t.serial_le_obey (.run op)).trans hbetween)
          obtain ⟨s, hrests, hat⟩ := Prog.perform_at hlasts.moves op.leads_program
            (fun task htask => Option.some.inj (op.task_start.symm.trans htask) ▸ op.asks_program)
            hstarted hbetween
          refine hat.leave hlasts ?_ hbetween
          generalize (op.program.perform t).1 = close at hrests
          cases close <;> exact hrests
      | _ => exact h.elapse rfl

end Account

theorem World.IsBlank.at_over {w : World} {P : Alone} (h : w.IsBlank) (hP : P w.books [] .over) :
    (Account.opened w).At P .over where
  outbox := nofun
  consistent := by
    rw [Stand.only_over]
    exact ⟨h.sound, fun _ => trivial⟩
  orderly := by
    rw [Stand.only_over]
    exact h.orderly True
  holds := hP

end Courier
