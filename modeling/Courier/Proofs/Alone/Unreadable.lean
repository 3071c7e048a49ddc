import Courier.Proofs.Alone.Attempts
import Courier.Proofs.Turns.Accounting
import Courier.Proofs.Turns.Redelivery

/-!
Which records a batch dismisses as unreadable. Errors of reading a record and errors of a channel
take the same way through delivery, handler and batch, and the batch tells them apart by their kind
only. So a record is dismissed if it cannot be read, and also if a channel says so of what it was
given. Nothing else dismisses it, and unless that happens a record that can be read is committed
only if it was skipped or its attempt was stored.
-/

namespace Courier

/-! ## What is on record for one record -/

/-- The calls on the way from one account to another, in the order in which they were made. -/
def Account.since (s s' : Account) : List Answered :=
  (s'.history.take (s'.history.length - s.history.length)).reverse

theorem Account.since_of_append {s s' : Account} {calls : List Answered}
    (h : s'.history = calls ++ s.history) : s.since s' = calls.reverse := by
  rw [since, h, List.length_append, Nat.add_sub_cancel, List.take_left]

def Answered.isCommit : Answered → Bool
  | ⟨.commit _ _, _⟩ => true
  | _ => false

/-- The calls made for the record in hand, which are those up to the next commit. -/
def inHand (calls : List Answered) : List Answered := calls.takeWhile fun x => !x.isCommit

namespace Consumer

/-- After these calls, made for the record, the record is committed. -/
def Commits (c : Consumer) (r : Record) (more calls : List Answered) : Prop :=
  (∃ rest, more = calls ++ ⟨.commit c.subscription r.offset, .ok ()⟩ :: rest) ∧
    ∀ x ∈ calls, x.isCommit = false

/-- A report that the record cannot be read is published, and the error is counted. -/
def reporting (c : Consumer) (r : Record) (now : Instant) (id : Uuid) : List Answered :=
  [⟨.now, now⟩, ⟨.newId, id⟩,
    ⟨.publish Topic.deadLetter.name (some id.text)
      (UnreadableReport.ofPayload r.topic r.partition r.offset r.payload now).encode, .ok ()⟩,
    ⟨.tally c.ledger .parseError, ()⟩]

/-- The record is reported, and committed right after. -/
def Dismisses (c : Consumer) (r : Record) (more : List Answered) : Prop :=
  ∃ calls now id, c.Commits r more (calls ++ c.reporting r now id)

/-- A batch that starts from `s` comes to a record at `s'`: it was polled, and all polled before it
were handled and committed. -/
inductive Reaches (c : Consumer) (s : Account) (r : Record) (s' : Account) : Prop
  | intro {earlier later}
      (hpoll : s.world.bus.poll c.subscription c.batchSize = earlier ++ r :: later)
      (hearlier : (c.settleAll earlier 0).run.perform ⟨s.world,
        ⟨.poll c.subscription c.batchSize, .ok (earlier ++ r :: later)⟩ :: s.history⟩ =
        (.returned (.ok earlier.length), s'))

/-- What a batch that starts from `s` does from `s'` on. -/
def sequel (c : Consumer) (s s' : Account) : List Answered := s'.since (c.batch.run.perform s).2

end Consumer

section

variable {c : Consumer} {r : Record} {calls more rest : List Answered} {x : Answered}

theorem inHand_append_cons (hcalls : ∀ x ∈ calls, x.isCommit = false) (hx : x.isCommit = true) :
    inHand (calls ++ x :: rest) = calls := by
  rw [inHand, List.takeWhile_append_of_pos, List.takeWhile_cons_of_neg, List.append_nil]
  · simp [hx]
  · exact fun x hx => by simp [hcalls x hx]

theorem inHand_of_forall (hcalls : ∀ x ∈ calls, x.isCommit = false) : inHand calls = calls :=
  List.takeWhile_eq_self_iff.mpr fun x hx => by simp [hcalls x hx]

theorem Consumer.Commits.inHand_eq (h : c.Commits r more calls) : inHand more = calls := by
  obtain ⟨⟨rest, rfl⟩, hcalls⟩ := h
  exact inHand_append_cons hcalls rfl

end

/-! ## Calls of an attempt -/

namespace Delivery

variable {d : Delivery} {m n : Notification} {w w' : World} {calls : List Answered}
  {close : Close (Except DeliveryError DeliveryOutcome)}

theorem Attempt.delivers (h : d.Attempt n w close w' calls) : ∀ x ∈ calls, x.call.Delivers := by
  cases h <;> simp [sending, deciding, Call.Delivers, Call.OfStore]

/-- No failure to deliver is the claim that a message cannot be read. -/
private theorem not_garbles_deciding {place : Nat} {error : DeliveryError}
    (hfailure : error.isDeliveryFailure = true) :
    ∀ x ∈ d.deciding n place error w, x.garbles = false := by
  intro x hx
  simp only [deciding, sending, List.mem_cons, List.not_mem_nil, or_false] at hx
  rcases hx with rfl | rfl | rfl | rfl
  · rfl
  · rfl
  · cases error <;> first | rfl | exact nomatch hfailure
  · rfl

/-- An attempt ends with the error of an unreadable message only if a channel gave it. -/
theorem Attempt.garbles_iff (h : d.Attempt n w close w' calls) :
    (∃ message, close = .returned (.error (.deserialization message))) ↔
      ∃ x ∈ calls, x.garbles = true := by
  have hnone {close : Close (Except DeliveryError DeliveryOutcome)} {calls : List Answered}
      (hclose : ∀ message, close ≠ .returned (.error (.deserialization message)))
      (hcalls : ∀ x ∈ calls, x.garbles = false) :
      (∃ message, close = .returned (.error (.deserialization message))) ↔
        ∃ x ∈ calls, x.garbles = true := by
    refine iff_of_false (fun ⟨message, heq⟩ => hclose message heq) ?_
    rintro ⟨x, hx, hgarbles⟩
    exact nomatch (hcalls x hx).symm.trans hgarbles
  cases h with
  | unavailable hfind =>
      obtain rfl := Registry.find_error hfind
      exact hnone nofun (List.forall_mem_nil _)
  | unanswered => exact hnone nofun (List.forall_mem_singleton.mpr rfl)
  | @refused place error w₁ hsends hother =>
      cases error <;> simp [sending, Answered.garbles]
  | unsaved | sent => exact hnone nofun (by simp [sending, Answered.garbles])
  | overflowed _ hfailure => exact hnone nofun (not_garbles_deciding hfailure)
  | unrecorded _ hfailure =>
      exact hnone nofun (List.forall_mem_cons.mpr ⟨rfl, not_garbles_deciding hfailure⟩)
  | failed _ hfailure =>
      refine hnone nofun (List.forall_mem_cons.mpr ⟨rfl, List.forall_mem_cons.mpr ⟨rfl, ?_⟩⟩)
      exact not_garbles_deciding hfailure

/-- An attempt that comes to a result has stored it. -/
theorem Attempt.stores {outcome : DeliveryOutcome}
    (h : d.Attempt n w (.returned (.ok outcome)) w' calls) :
    ∃ y, n.Attempted y ∧ ∃ x ∈ calls, x.row = some y := by
  cases h with
  | sent => exact ⟨_, .sent, _, List.mem_cons_of_mem _ List.mem_cons_self, rfl⟩
  | failed _ _ hjudges =>
      cases hjudges with
      | retry => exact ⟨_, .failed, _, List.mem_cons_of_mem _ List.mem_cons_self, rfl⟩
      | giveUp => exact ⟨_, .given_up, _, List.mem_cons_of_mem _ List.mem_cons_self, rfl⟩

end Delivery

/-! ## Records, handled and settled -/

theorem Call.Looks.delivers {c : Call} (h : c.Looks) : c.Delivers := by
  cases c with
  | now => exact Or.inr trivial
  | findById => exact Or.inl trivial
  | _ => exact h.elim

theorem Delivery.Course.garbles_iff {d : Delivery} {m : Notification} {w w' : World}
    {calls : List Answered} {close : Close (Except DeliveryError DeliveryOutcome)}
    (h : d.Course m w close w' calls) :
    (∃ message, close = .returned (.error (.deserialization message))) ↔
      ∃ x ∈ calls, x.garbles = true := by
  cases h with
  | skips => simp [Answered.garbles]
  | attempts _ h =>
      have hlookup : Answered.garbles ⟨.findById m.id, .ok (w.store.find? m.id)⟩ = false := rfl
      simp only [h.garbles_iff, List.mem_append, List.mem_singleton, or_and_right, exists_or,
        exists_eq_left, hlookup, Bool.false_eq_true, or_false]

theorem Delivery.Course.delivers {d : Delivery} {m : Notification} {w w' : World}
    {calls : List Answered} {close : Close (Except DeliveryError DeliveryOutcome)}
    (h : d.Course m w close w' calls) : ∀ x ∈ calls, x.call.Delivers := by
  cases h with
  | skips => exact List.forall_mem_singleton.mpr (Or.inl trivial)
  | attempts _ h =>
      exact List.forall_mem_append.mpr
        ⟨h.delivers, List.forall_mem_singleton.mpr (Or.inl trivial)⟩

/-- The row has gone beyond the message, and nothing else is done than to look. -/
def World.Skips (w : World) (m : Notification) (calls : List Answered) : Prop :=
  ∃ stored, w.store.find? m.id = some stored ∧ stored.Outdates m ∧ ∀ x ∈ calls, x.call.Looks

/-- An attempt at what the message is about is stored. -/
def World.Stores (w : World) (m : Notification) (calls : List Answered) : Prop :=
  ∃ n y, w.Offers m n ∧ n.Attempted y ∧ ∃ x ∈ calls, x.row = some y

namespace Pipeline

variable {p : Pipeline} {ledger : Ledger} {topic : Topic} {r : Record} {w w' : World}
  {calls : List Answered} {close : Close (Except DeliveryError Disposition)}

private theorem asking_looks : ∀ x ∈ asking topic w, x.call.Looks ∧ x.garbles = false := by
  intro x hx
  unfold asking at hx
  split at hx
  · obtain rfl := List.mem_singleton.mp hx
    exact ⟨trivial, rfl⟩
  · exact absurd hx List.not_mem_nil

theorem Handling.delivers_calls (h : p.Handling topic r w close w' calls) :
    ∀ x ∈ calls, x.call.Delivers := by
  cases h with
  | unreadable => exact List.forall_mem_nil _
  | defers => exact List.forall_mem_singleton.mpr (Or.inr trivial)
  | delivers _ _ h =>
      exact List.forall_mem_append.mpr ⟨h.delivers, fun x hx => (asking_looks x hx).1.delivers⟩

/-- A record is handled with the error that it is unreadable if it is, or if a channel says so of
what it was given. -/
theorem Handling.unreadable_iff (h : p.Handling topic r w close w' calls) :
    (∃ message, close = .returned (.error (.deserialization message))) ↔
      r.snapshot = none ∨ ∃ x ∈ calls, x.garbles = true := by
  cases h with
  | unreadable hr => exact iff_of_true ⟨_, rfl⟩ (Or.inl hr)
  | defers _ hr => simp [hr, Answered.garbles]
  | @delivers m close w' calls hr _ h =>
      have hasking : ¬ ∃ x ∈ asking topic w, x.garbles = true := by
        rintro ⟨x, hx, hgarbles⟩
        exact nomatch (asking_looks x hx).2.symm.trans hgarbles
      have hclose (message : String) : close.map (Except.map fun _ => Disposition.commit) =
          .returned (Except.error (DeliveryError.deserialization message)) ↔
            close = .returned (Except.error (DeliveryError.deserialization message)) := by
        rcases close with (error | outcome) | _ | _ <;> simp [Close.map, Except.map]
      simp only [hclose, h.garbles_iff, hr, reduceCtorEq, false_or, List.mem_append, or_and_right,
        exists_or, hasking, or_false]

/-- A record that is committed was skipped, or its attempt is stored. -/
theorem Handling.skips_or_stores (h : p.Handling topic r w (.returned (.ok .commit)) w' calls) :
    ∃ m, r.snapshot = some m ∧ (w.Skips m calls ∨ w.Stores m calls) := by
  generalize hclose : Close.returned (Except.ok Disposition.commit) = close at h
  cases h with
  | unreadable | defers => cases hclose
  | @delivers m close w' calls hr _ h =>
      refine ⟨m, hr, ?_⟩
      cases h with
      | skips hfind houtdates =>
          refine Or.inl ⟨_, hfind, houtdates, List.forall_mem_cons.mpr ⟨trivial, ?_⟩⟩
          exact fun x hx => (asking_looks x hx).1
      | attempts hn h =>
          rcases close with (error | outcome) | _ | _
          · cases hclose
          · obtain ⟨y, hattempted, x, hx, hrow⟩ := h.stores
            refine Or.inr ⟨_, y, hn, hattempted, x, ?_, hrow⟩
            exact List.mem_append_left _ (List.mem_append_left _ hx)
          · cases hclose
          · cases hclose

/-- How a record of a topic to deliver from is settled, as long as reports can be published. -/
inductive Settling (p : Pipeline) (ledger : Ledger) (topic : Topic) (r : Record) (w : World) :
    Close (Except DeliveryError Bool) → List Answered → Prop
  | dismisses {calls now id} (hcalls : ∀ x ∈ calls, x.call.Delivers)
      (h : r.snapshot = none ∨ ∃ x ∈ calls, x.garbles = true) :
      Settling p ledger topic r w (.returned (.ok true))
        (((p.consumer ledger topic).reporting r now id).reverse ++ calls)
  | passes {m close calls} (hcalls : ∀ x ∈ calls, x.call.Delivers) (hr : r.snapshot = some m)
      (hread : ∀ x ∈ calls, x.garbles = false)
      (h : close = .returned (.ok true) → w.Skips m calls ∨ w.Stores m calls) :
      Settling p ledger topic r w close calls

theorem Settling.not_commits {close : Close (Except DeliveryError Bool)}
    (h : p.Settling ledger topic r w close calls) : ∀ x ∈ calls, x.isCommit = false := by
  have hdelivers {x : Answered} (hx : x.call.Delivers) : x.isCommit = false := by
    obtain ⟨c, a⟩ := x
    cases c with
    | commit => exact (hx.elim id id).elim
    | _ => rfl
  cases h with
  | dismisses hcalls =>
      refine List.forall_mem_append.mpr ⟨?_, fun x hx => hdelivers (hcalls x hx)⟩
      simp [Consumer.reporting, Answered.isCommit]
  | passes hcalls => exact fun x hx => hdelivers (hcalls x hx)

theorem runsAs_settle (p : Pipeline) (ledger : Ledger) (htopic : topic ≠ .deadLetter) (r : Record)
    (hroom : w.bus.refused Topic.deadLetter.name = 0) :
    ((p.consumer ledger topic).settle r).run.RunsAs w fun close _ calls =>
      p.Settling ledger topic r w close calls := by
  refine Job.runsAs_bind (Job.runsAs_outcome ?_)
  refine Prog.runsAs_mono (p.runsAs_handle htopic r w) fun close w' calls h => ?_
  have hcalls := h.delivers_calls
  have hbus := h.bus_eq
  by_cases hunreadable : r.snapshot = none ∨ ∃ x ∈ calls, x.garbles = true
  · obtain ⟨message, rfl⟩ := h.unreadable_iff.mpr hunreadable
    have hpublish {w'' : World} {key : Option String} {payload : Bytes} (h : w''.bus = w.bus) :
        w''.answer (.publish Topic.deadLetter.name key payload) = (.done (.ok ()),
          { w'' with bus := w''.bus.append Topic.deadLetter.name key payload w''.now }) := by
      rw [World.answer, Bus.publish_of_room (h ▸ hroom)]
    refine Prog.runsAs_ask rfl (Prog.runsAs_ask rfl (Prog.runsAs_ask (hpublish hbus) ?_))
    exact Prog.runsAs_ask rfl (Prog.runsAs_done (.dismisses hcalls hunreadable))
  · have hread : ∀ x ∈ calls, x.garbles = false := fun x hx =>
      Bool.eq_false_iff.mpr fun hgarbles => hunreadable (Or.inr ⟨x, hx, hgarbles⟩)
    obtain ⟨m, hr⟩ := Option.ne_none_iff_exists'.mp fun hr => hunreadable (Or.inl hr)
    have hpasses {close : Close (Except DeliveryError Bool)}
        (hclose : close ≠ .returned (.ok true)) : p.Settling ledger topic r w close calls :=
      .passes hcalls hr hread fun heq => absurd heq hclose
    rcases close with (error | _ | _) | _ | _
    · have hother (message : String) : error ≠ .deserialization message := fun heq =>
        hunreadable (h.unreadable_iff.mp ⟨message, by rw [heq]⟩)
      have hjob (b : Bool) : (if b then throw error else pure false : Job Bool).run.RunsAs w'
          fun close _ more => p.Settling ledger topic r w close (more ++ calls) := by
        cases b with
        | true => exact Prog.runsAs_done (hpasses (by simp))
        | false => exact Prog.runsAs_done (hpasses (by simp))
      cases error with
      | deserialization message => exact absurd rfl (hother message)
      | _ => exact hjob _
    · obtain ⟨m', hr', hcommits⟩ := h.skips_or_stores
      obtain rfl := Option.some.inj (hr.symm.trans hr')
      exact Prog.runsAs_done (.passes hcalls hr hread fun _ => hcommits)
    · exact Prog.runsAs_done (hpasses (by simp))
    · exact hpasses (by simp)
    · exact hpasses (by simp)

end Pipeline

/-! ## Batches -/

namespace Consumer

variable {c : Consumer} {r : Record} {s s' s'' : Account} {calls : List Answered}
  {close : Close (Except DeliveryError Bool)}

theorem Reaches.refused (h : c.Reaches s r s') {topic : String}
    (hroom : s.world.bus.refused topic = 0) : s'.world.bus.refused topic = 0 := by
  obtain @⟨earlier, later, -, hearlier⟩ := h
  have hle := (c.settleAll earlier 0).run.refused_perform_le ⟨s.world,
    ⟨.poll c.subscription c.batchSize, .ok (earlier ++ r :: later)⟩ :: s.history⟩ topic
  rw [hearlier] at hle
  exact Nat.le_zero.mp (hle.trans hroom.le)

/-- What a batch does from a record on: the calls that are made for it, and then its commit and
more, if it is to be committed. -/
theorem Reaches.sequel_eq (h : c.Reaches s r s')
    (hsettle : (c.settle r).run.perform s' = (close, s''))
    (hcalls : s''.history = calls ++ s'.history) :
    close = .returned (.ok true) ∧
        (∃ rest, c.sequel s s' =
          calls.reverse ++ ⟨.commit c.subscription r.offset, .ok ()⟩ :: rest) ∨
      close ≠ .returned (.ok true) ∧ c.sequel s s' = calls.reverse := by
  obtain @⟨earlier, later, hpoll, hearlier⟩ := h
  rw [sequel, perform_batch hpoll hearlier, perform_settleAll_cons, hsettle]
  rcases close with (error | _ | _) | _ | _
  · exact Or.inr ⟨nofun, Account.since_of_append hcalls⟩
  · exact Or.inr ⟨nofun, Account.since_of_append hcalls⟩
  · obtain ⟨more, hmore⟩ := (c.settleAll later (earlier.length + 1)).run.exists_history
      (c.committing r s'')
    refine Or.inl ⟨rfl, more.reverse, ?_⟩
    have hall : ((c.settleAll later (earlier.length + 1)).run.perform
        (c.committing r s'')).2.history =
        (more ++ ⟨.commit c.subscription r.offset, .ok ()⟩ :: calls) ++ s'.history := by
      rw [hmore, List.append_assoc, List.cons_append, ← hcalls]
      rfl
    rw [Account.since_of_append hall, List.reverse_append, List.reverse_cons, List.append_assoc,
      List.singleton_append]
  · exact Or.inr ⟨nofun, Account.since_of_append hcalls⟩
  · exact Or.inr ⟨nofun, Account.since_of_append hcalls⟩

end Consumer

namespace Pipeline

variable {p : Pipeline} {ledger : Ledger} {topic : Topic} {r : Record} {s s' : Account}

/-- How the record that a batch comes to is settled, and what that makes of the batch. -/
private theorem exists_settling (htopic : topic ≠ .deadLetter)
    (hroom : s.world.bus.refused Topic.deadLetter.name = 0)
    (hreaches : (p.consumer ledger topic).Reaches s r s') :
    ∃ close calls, p.Settling ledger topic r s'.world close calls ∧
      inHand ((p.consumer ledger topic).sequel s s') = calls.reverse ∧
      (close = .returned (.ok true) ∧
          (p.consumer ledger topic).Commits r ((p.consumer ledger topic).sequel s s')
            calls.reverse ∨
        close ≠ .returned (.ok true) ∧ ∀ calls,
          ¬ (p.consumer ledger topic).Commits r ((p.consumer ledger topic).sequel s s') calls) := by
  obtain ⟨close, world, calls, hsettle, hsettling⟩ :=
    p.runsAs_settle ledger htopic r (hreaches.refused hroom) s'.history
  have hnone : ∀ x ∈ calls.reverse, x.isCommit = false := fun x hx =>
    hsettling.not_commits x (List.mem_reverse.mp hx)
  refine ⟨close, calls, hsettling, ?_⟩
  rcases hreaches.sequel_eq hsettle rfl with ⟨hclose, rest, hsequel⟩ | ⟨hclose, hsequel⟩
  · have hcommits : (p.consumer ledger topic).Commits r
        ((p.consumer ledger topic).sequel s s') calls.reverse := ⟨⟨rest, hsequel⟩, hnone⟩
    exact ⟨hcommits.inHand_eq, Or.inl ⟨hclose, hcommits⟩⟩
  · refine ⟨?_, Or.inr ⟨hclose, ?_⟩⟩
    · rw [hsequel]
      exact inHand_of_forall hnone
    rintro calls' ⟨⟨rest, heq⟩, -⟩
    have hcommit : (⟨.commit (p.consumer ledger topic).subscription r.offset, .ok ()⟩ : Answered) ∈
        calls.reverse := by
      rw [← hsequel, heq]
      exact List.mem_append_right _ List.mem_cons_self
    exact nomatch hnone _ hcommit

/-- A record is dismissed if it cannot be read, or if a channel says so of what it was given. -/
theorem dismisses_of_unreadable (htopic : topic ≠ .deadLetter)
    (hroom : s.world.bus.refused Topic.deadLetter.name = 0)
    (hreaches : (p.consumer ledger topic).Reaches s r s')
    (h : r.snapshot = none ∨
      ∃ x ∈ inHand ((p.consumer ledger topic).sequel s s'), x.garbles = true) :
    (p.consumer ledger topic).Dismisses r ((p.consumer ledger topic).sequel s s') := by
  obtain ⟨close, calls, hsettling, hinHand, hcommits⟩ := exists_settling htopic hroom hreaches
  cases hsettling with
  | @dismisses calls now id _ _ =>
      obtain ⟨-, hcommits⟩ := hcommits.resolve_right fun hother => hother.1 rfl
      rw [List.reverse_append, List.reverse_reverse] at hcommits
      exact ⟨calls.reverse, now, id, hcommits⟩
  | passes _ hr hread =>
      rcases h with hnone | ⟨x, hx, hgarbles⟩
      · exact nomatch hr.symm.trans hnone
      · rw [hinHand, List.mem_reverse] at hx
        exact nomatch (hread x hx).symm.trans hgarbles

/-- Nothing else dismisses it, and what can be read is not committed without a reason. -/
theorem passes_of_readable (htopic : topic ≠ .deadLetter)
    (hroom : s.world.bus.refused Topic.deadLetter.name = 0)
    (hreaches : (p.consumer ledger topic).Reaches s r s') {m : Notification}
    (hr : r.snapshot = some m)
    (hread : ¬ ∃ x ∈ inHand ((p.consumer ledger topic).sequel s s'), x.garbles = true) :
    ¬ (p.consumer ledger topic).Dismisses r ((p.consumer ledger topic).sequel s s') ∧
      ∀ calls, (p.consumer ledger topic).Commits r ((p.consumer ledger topic).sequel s s') calls →
        s'.world.Skips m calls ∨ s'.world.Stores m calls := by
  obtain ⟨close, calls, hsettling, hinHand, hcommits⟩ := exists_settling htopic hroom hreaches
  cases hsettling with
  | dismisses _ hdismisses =>
      rcases hdismisses with hnone | ⟨x, hx, hgarbles⟩
      · exact nomatch hr.symm.trans hnone
      · refine absurd ⟨x, ?_, hgarbles⟩ hread
        rw [hinHand, List.mem_reverse]
        exact List.mem_append_right _ hx
  | @passes m' close calls hcalls hr' _ hclose =>
      obtain rfl := Option.some.inj (hr.symm.trans hr')
      constructor
      · rintro ⟨earlier, now, drawn, hreported⟩
        have hmem : (⟨.newId, drawn⟩ : Answered) ∈ calls.reverse := by
          rw [← hinHand, hreported.inHand_eq]
          exact List.mem_append_right _ (List.mem_cons_of_mem _ List.mem_cons_self)
        exact (hcalls _ (List.mem_reverse.mp hmem)).elim id id
      · intro calls' hcommits'
        rcases hcommits with ⟨rfl, hcommits⟩ | ⟨-, hnever⟩
        · obtain rfl : calls' = calls.reverse :=
            hcommits'.inHand_eq.symm.trans hcommits.inHand_eq
          refine (hclose rfl).imp ?_ ?_
          · rintro ⟨stored, hfind, houtdates, hlooks⟩
            exact ⟨stored, hfind, houtdates, fun x hx => hlooks x (List.mem_reverse.mp hx)⟩
          · rintro ⟨n, y, hn, hattempted, x, hx, hrow⟩
            exact ⟨n, y, hn, hattempted, x, List.mem_reverse.mpr hx, hrow⟩
        · exact absurd hcommits' (hnever calls')

/-- Whatever is in the store and on the bus, a batch reports a record that it comes to, counts the
error and commits the record exactly if the record cannot be read, or if a channel that was called
for it said so. Otherwise a record that can be read is committed only if it was skipped, or if its
attempt was stored. -/
theorem batch_dismisses_iff (htopic : topic ≠ .deadLetter)
    (hroom : s.world.bus.refused Topic.deadLetter.name = 0)
    (hreaches : (p.consumer ledger topic).Reaches s r s') :
    ((p.consumer ledger topic).Dismisses r ((p.consumer ledger topic).sequel s s') ↔
      (∀ e, Envelope.decode r.payload ≠ .ok e) ∨
        ∃ x ∈ inHand ((p.consumer ledger topic).sequel s s'), x.garbles = true) ∧
    ∀ e, Envelope.decode r.payload = .ok e → ∀ calls,
      (p.consumer ledger topic).Commits r ((p.consumer ledger topic).sequel s s') calls →
        s'.world.Skips e.notification calls ∨ s'.world.Stores e.notification calls ∨
          ∃ x ∈ calls, x.garbles = true := by
  constructor
  · constructor
    · intro hdismisses
      by_contra hneither
      obtain ⟨hdecodes, hread⟩ := not_or.mp hneither
      obtain ⟨e, hdecode⟩ := not_forall_not.mp hdecodes
      have hr : r.snapshot = some e.notification := by rw [Record.snapshot, hdecode]; rfl
      exact (passes_of_readable htopic hroom hreaches hr hread).1 hdismisses
    · refine fun h => dismisses_of_unreadable htopic hroom hreaches (h.imp_left fun hdecodes => ?_)
      cases hdecode : Envelope.decode r.payload with
      | ok e => exact absurd hdecode (hdecodes e)
      | error fault => rw [Record.snapshot, hdecode]; rfl
  · intro e hdecode calls hcommits
    have hr : r.snapshot = some e.notification := by rw [Record.snapshot, hdecode]; rfl
    by_cases hread : ∃ x ∈ calls, x.garbles = true
    · exact Or.inr (Or.inr hread)
    · rw [← hcommits.inHand_eq] at hread
      exact ((passes_of_readable htopic hroom hreaches hr hread).2 calls hcommits).imp_right Or.inl

end Pipeline

/-- A blank world but for a record to be sent that cannot be read. -/
def Sample.littered : World :=
  { world [] with bus := Bus.append {} Topic.send.name none [0x7b] (Clock.mk 0).now }

/-- A batch comes to a record that consists of an opening brace, and dismisses it. -/
theorem Pipeline.batch_dismisses_brace :
    ∃ r s', ((Sample.pipeline 5).consumer .loops .send).Reaches (.opened Sample.littered) r s' ∧
      ((Sample.pipeline 5).consumer .loops .send).Dismisses r
        (((Sample.pipeline 5).consumer .loops .send).sequel (.opened Sample.littered) s') := by
  let c := (Sample.pipeline 5).consumer .loops .send
  have hpolled : (Sample.littered.bus.poll c.subscription c.batchSize).map (fun r =>
      (Envelope.decode r.payload).toOption.isSome) = [false] := by
    decide +kernel
  obtain ⟨r, hpoll, hr⟩ := List.map_eq_singleton_iff.mp hpolled
  have hreaches : c.Reaches (.opened Sample.littered) r _ :=
    .intro (show _ = [] ++ r :: [] from hpoll) rfl
  have hsend : Topic.send ≠ .deadLetter := nofun
  have hroom : (Account.opened Sample.littered).world.bus.refused Topic.deadLetter.name = 0 := by
    decide +kernel
  refine ⟨r, _, hreaches, (batch_dismisses_iff hsend hroom hreaches).1.mpr (Or.inl ?_)⟩
  intro e hdecode
  rw [hdecode] at hr
  exact nomatch hr

/-- A channel says of a notification that it cannot be read. The record, which can be read, is
dismissed, and the notification, which waits for its first attempt, stays as it is. -/
theorem Pipeline.batch_dismisses_readable :
    ∃ r s' e, ((Sample.pipeline 5).consumer .loops .send).Reaches (.opened
        ((Sample.world [.done (.error (.deserialization "garbled"))]).after
          (Sample.arrival (Sample.pipeline 5)))) r s' ∧
      Envelope.decode r.payload = .ok e ∧
      ((Sample.pipeline 5).consumer .loops .send).Dismisses r
        (((Sample.pipeline 5).consumer .loops .send).sequel (.opened
          ((Sample.world [.done (.error (.deserialization "garbled"))]).after
            (Sample.arrival (Sample.pipeline 5)))) s') ∧
      ((Sample.world [.done (.error (.deserialization "garbled"))]).after
        (Sample.firstAttempt (Sample.pipeline 5))).store.notifications.map (·.status) =
          [.pending] := by
  let c := (Sample.pipeline 5).consumer .loops .send
  let w := (Sample.world [.done (.error (.deserialization "garbled"))]).after
    (Sample.arrival (Sample.pipeline 5))
  let s' : Account := ⟨w, [⟨.poll c.subscription c.batchSize,
    .ok (w.bus.poll c.subscription c.batchSize)⟩]⟩
  have hpolled : (w.bus.poll c.subscription c.batchSize).map (fun r =>
      (Envelope.decode r.payload).toOption.isSome) = [true] := by
    decide +kernel
  obtain ⟨r, hpoll, hr⟩ := List.map_eq_singleton_iff.mp hpolled
  have hreaches : c.Reaches (.opened w) r s' := by
    refine .intro (show _ = [] ++ r :: [] from hpoll) ?_
    rw [List.nil_append, ← hpoll]
    rfl
  cases hdecode : Envelope.decode r.payload with
  | error fault =>
      rw [hdecode] at hr
      exact nomatch hr
  | ok e =>
      refine ⟨r, s', e, hreaches, hdecode, ?_, by decide +kernel⟩
      refine dismisses_of_unreadable nofun (by decide +kernel) hreaches (Or.inr ?_)
      have hgarbles : (inHand (c.sequel (.opened w) s')).any (·.garbles) = true := by
        decide +kernel
      simpa using hgarbles

end Courier
