import Courier.Proofs.Alone.Unreadable
import Courier.Proofs.Draining.Surroundings
import Courier.Proofs.Envelope

/-!
No operation makes anything wait longer than the policy may. A failure is tried again after at most
the longest delay, counted from the moment at which it is recorded, and what is published is a row
as it was found. So if the clock shows one moment all the time, and no row that is found waits
longer than that delay from then, neither does any row that is written, nor anything published to
be tried again.
-/

namespace Courier

/-! ## Programs that are answered as assumed -/

namespace Prog

variable {α β : Type} {A : Answered → Prop} {P : Call → Prop} {Q : α → Prop} {R : β → Prop}

/-- As long as its calls are answered as assumed, a program makes only calls with a property, and
returns a value with another. -/
def Heeds (A : Answered → Prop) (P : Call → Prop) (Q : α → Prop) : Prog α → Prop
  | .done a => Q a
  | .crash _ => True
  | .ask c next => P c ∧ ∀ a, A ⟨c, a⟩ → (next a).Heeds A P Q

theorem heeds_mono {Q' : α → Prop} {p : Prog α} (hp : p.Heeds A P Q) (h : ∀ a, Q a → Q' a) :
    p.Heeds A P Q' := by
  induction p with
  | done a => exact h a hp
  | crash text => exact trivial
  | ask c next ih => exact ⟨hp.1, fun a ha => ih a (hp.2 a ha)⟩

theorem heeds_bind {p : Prog α} {f : α → Prog β} (hp : p.Heeds A P Q)
    (hf : ∀ a, Q a → (f a).Heeds A P R) : (p.bind f).Heeds A P R := by
  induction p with
  | done a => exact hf a hp
  | crash text => exact trivial
  | ask c next ih => exact ⟨hp.1, fun a ha => ih a (hp.2 a ha)⟩

theorem heeds_call {c : Call} {Q : c.Answer → Prop} (hc : P c) (h : ∀ a, A ⟨c, a⟩ → Q a) :
    (Prog.call c).Heeds A P Q := ⟨hc, h⟩

/-- What every call keeps, every program keeps. -/
theorem keeps_run {I : World → Prop} (p : Prog α) {w : World} (hw : I w)
    (hI : ∀ {w}, I w → ∀ c : Call, I (w.answer c).2) : I (p.run w).2 := by
  induction p generalizing w with
  | done a | crash text => exact hw
  | ask c next ih =>
      have hkept := hI hw c
      rw [Prog.run]
      rcases hanswer : w.answer c with ⟨a | _ | _, w'⟩ <;> rw [hanswer] at hkept
      · exact ih a hkept
      · exact hkept
      · exact hkept

/-- Where the calls of a program keep a property of worlds and are answered as assumed, the program
keeps it. -/
theorem Heeds.run {I : World → Prop} {p : Prog α} {w : World} (hp : p.Heeds A P Q) (hw : I w)
    (hI : ∀ {w c}, I w → P c → I (w.answer c).2 ∧ ∀ a, (w.answer c).1 = .done a → A ⟨c, a⟩) :
    I (p.run w).2 := by
  induction p generalizing w with
  | done a | crash text => exact hw
  | ask c next ih =>
      obtain ⟨hkept, hassumed⟩ := hI hw hp.1
      rw [Prog.run]
      rcases hanswer : w.answer c with ⟨a | _ | _, w'⟩ <;> rw [hanswer] at hkept hassumed
      · exact ih a (hp.2 a (hassumed a rfl)) hkept
      · exact hkept
      · exact hkept

end Prog

namespace Job

variable {α β : Type} {A : Answered → Prop} {P : Call → Prop} {Q : α → Prop} {R : β → Prop}

/-- A job that heeds, and whose value has a property if it succeeds. -/
def Heeds (A : Answered → Prop) (P : Call → Prop) (Q : α → Prop) (job : Job α) : Prop :=
  job.run.Heeds A P fun result => ∀ a, result = .ok a → Q a

theorem heeds_pure {a : α} (h : Q a) : (pure a : Job α).Heeds A P Q :=
  fun _ heq => Except.ok.inj heq ▸ h

theorem heeds_throw {error : DeliveryError} : (throw error : Job α).Heeds A P Q :=
  fun _ heq => nomatch heq

theorem heeds_bind {job : Job α} {f : α → Job β} (hjob : job.Heeds A P Q)
    (hf : ∀ a, Q a → (f a).Heeds A P R) : (job >>= f).Heeds A P R := by
  refine Prog.heeds_bind hjob fun result hresult => ?_
  cases result with
  | ok a => exact hf a (hresult a rfl)
  | error error => exact fun _ heq => nomatch heq

/-- Where the value of the first of two jobs does not matter. -/
theorem heeds_seq {job : Job α} {f : α → Job β} (hjob : job.Heeds A P fun _ => True)
    (hf : ∀ a, (f a).Heeds A P R) : (job >>= f).Heeds A P R :=
  heeds_bind hjob fun a _ => hf a

theorem heeds_call {c : Call} {Q : c.Answer → Prop} (hc : P c) (h : ∀ a, A ⟨c, a⟩ → Q a) :
    (Job.call c).Heeds A P Q :=
  ⟨hc, fun a ha _ heq => Except.ok.inj heq ▸ h a ha⟩

theorem heeds_attempt {p : Prog (Except DeliveryError α)}
    (h : p.Heeds A P fun result => ∀ a, result = .ok a → Q a) : (Job.attempt p).Heeds A P Q := h

theorem heeds_store {p : Prog (Except StoreError α)}
    (h : p.Heeds A P fun result => ∀ a, result = .ok a → Q a) : (Job.store p).Heeds A P Q := by
  refine Prog.heeds_bind h fun result hresult => ?_
  cases result with
  | ok a => exact fun _ heq => Except.ok.inj heq ▸ hresult a rfl
  | error error => exact fun _ heq => nomatch heq

theorem heeds_outcome {job : Job α} (h : job.Heeds A P Q) :
    job.outcome.Heeds A P fun _ => True :=
  Prog.heeds_bind h fun _ _ _ _ => trivial

theorem heeds_orCrash (r : Except Instant.Overflow α) :
    (Job.orCrash r).Heeds A P fun a => r = .ok a := by
  cases r with
  | ok a => exact heeds_pure rfl
  | error overflow => exact trivial

end Job

/-! ## What is due within a delay -/

/-- The longest delay of any policy, in nanoseconds. -/
def Backoff.longestDelay (b : Backoff) : Nat :=
  (Medium.all.map fun medium => (b.policyFor medium).maxDelay.nanos).foldr max 0

/-- When a delay has passed since a moment, nothing is left to wait for. -/
def Notification.DueWithin (n : Notification) (delay : Nat) (since : Instant) : Prop :=
  ∀ next, n.nextRetryAt = some next → next.nanosSinceEpoch ≤ since.nanosSinceEpoch + delay

section

variable {n : Notification} {delay : Nat} {t t' : Instant}

theorem Backoff.maxDelay_le_longestDelay (b : Backoff) (medium : Medium) :
    (b.policyFor medium).maxDelay.nanos ≤ b.longestDelay := by
  cases medium with
  | email => exact Nat.le_max_left _ _
  | webhook => exact (Nat.le_max_left _ _).trans (Nat.le_max_right _ _)

namespace Notification

theorem dueWithin_of_none (h : n.nextRetryAt = none) : n.DueWithin delay t :=
  fun _ heq => nomatch h.symm.trans heq

theorem DueWithin.mono (h : n.DueWithin delay t) (hle : t.nanosSinceEpoch ≤ t'.nanosSinceEpoch) :
    n.DueWithin delay t' :=
  fun next hnext => (h next hnext).trans (Int.add_le_add_right hle _)

theorem DueWithin.told (h : n.DueWithin delay t) : n.told.DueWithin delay t := by
  intro told htold
  obtain ⟨next, hnext, rfl⟩ := Option.map_eq_some_iff.mp htold
  rw [next.nanosSinceEpoch_told]
  exact h next hnext

/-- What is due is not put off. -/
theorem DueWithin.not_isRetryPending (h : n.DueWithin delay t)
    (hpassed : t.nanosSinceEpoch + delay ≤ t'.nanosSinceEpoch) (hwhole : t'.frac < 1_000_000_000) :
    n.isRetryPending t' = false := by
  unfold isRetryPending
  split
  · next next hnext =>
    have hle := (h next hnext).trans hpassed
    have hfrac := next.frac_lt
    apply decide_eq_false
    change ¬ t'.key < next.key
    unfold Instant.key
    unfold Instant.nanosSinceEpoch at hle
    omega
  · rfl

end Notification

/-- A clock does not show the second half of a leap second. -/
theorem Clock.frac_now_lt (c : Clock) : c.now.frac < 1_000_000_000 := by
  unfold now Instant.ofMicros? Instant.of?
  split_ifs
  · change (c.micros % 1_000_000).toNat * 1_000 < 1_000_000_000
    omega
  · decide

/-- Outside of leap seconds moments move by just the span. -/
theorem Instant.nanosSinceEpoch_of_plus {d : Duration} (hwhole : t.frac < 1_000_000_000)
    (h : t.plus d = .ok t') : t'.nanosSinceEpoch = t.nanosSinceEpoch + d.nanos := by
  have hadd := add?_of_plus h
  unfold add? at hadd
  rw [if_neg (Nat.not_le.mpr hwhole)] at hadd
  unfold add?.ofNanos of? at hadd
  split at hadd
  · obtain rfl := Option.some.inj hadd
    simp only [nanosSinceEpoch]
    omega
  · cases hadd

/-- A failure is tried again after at most the longest delay. -/
theorem Backoff.nanos_of_decide_retry {b : Backoff} {medium : Medium} {count : UInt32}
    {jitter : Duration} (hwhole : t.frac < 1_000_000_000)
    (h : b.decide medium count t jitter = .ok (.retry t')) :
    t'.nanosSinceEpoch ≤ t.nanosSinceEpoch + b.longestDelay := by
  unfold decide at h
  dsimp only at h
  split at h
  · exact nomatch h
  · split at h
    · cases hplus : t.plus ((b.policyFor medium).delay count jitter) with
      | error overflow =>
          rw [hplus] at h
          exact nomatch h
      | ok later =>
          rw [hplus] at h
          obtain rfl := RetryDecision.retry.inj (Except.ok.inj h)
          have hdelay : ((b.policyFor medium).delay count jitter).nanos ≤ b.longestDelay :=
            (RetryPolicy.nanos_delay_le _ _ _).trans (b.maxDelay_le_longestDelay medium)
          rw [Instant.nanosSinceEpoch_of_plus hwhole hplus]
          omega
    · exact nomatch h

end

/-! ## What operations write and publish -/

/-- What is assumed of answers at a moment: the clock shows it, and no row that is found waits
longer than a delay. -/
def Answered.Prompt (delay : Nat) (t : Instant) : Answered → Prop
  | ⟨.now, now⟩ => now = t
  | ⟨.findById _, .ok (some n)⟩ => n.DueWithin delay t
  | ⟨.findByStatus _ _, .ok ns⟩ => ∀ n ∈ ns, n.DueWithin delay t
  | _ => True

/-- No row is written that waits longer than a delay, and nothing that does is published to be
tried again. -/
def Call.Prompt (delay : Nat) (t : Instant) : Call → Prop
  | .save n | .saveWithOutbox n _ => n.DueWithin delay t
  | .publish topic _ payload => topic = Topic.retry.name →
      ∀ e, Envelope.decode payload = .ok e → e.notification.DueWithin delay t
  | _ => True

/-- The calls of a sweep. -/
def Call.Sweeps : Call → Prop
  | .now | .deletePublished _ | .prune _ _ | .tally _ _ => True
  | _ => False

theorem Call.Sweeps.prompt {c : Call} (h : c.Sweeps) (delay : Nat) (t : Instant) :
    c.Prompt delay t := by
  cases c with
  | save | saveWithOutbox | publish => exact h.elim
  | _ => exact trivial

/-- A job that is prompt, as long as what it is answered is. -/
abbrev Job.Prompt {α : Type} (delay : Nat) (t : Instant) (job : Job α) : Prop :=
  job.Heeds (Answered.Prompt delay t) (Call.Prompt delay t) fun _ => True

open Job

section

variable {delay : Nat} {t : Instant} {n : Notification}

theorem prompt_call {c : Call} (hc : c.Prompt delay t) : (Job.call c).Prompt delay t :=
  heeds_call hc fun _ _ => trivial

/-- What is read of the clock is the moment. -/
theorem heeds_now :
    (Job.call .now).Heeds (Answered.Prompt delay t) (Call.Prompt delay t) fun now => now = t :=
  heeds_call trivial fun _ h => h

/-- A call to the store whose value does not matter. -/
theorem prompt_store {α : Type} {p : Prog (Except StoreError α)}
    (h : p.Heeds (Answered.Prompt delay t) (Call.Prompt delay t) fun _ => True) :
    (Job.store p).Prompt delay t :=
  heeds_store (Prog.heeds_mono h fun _ _ _ _ => trivial)

namespace Delivery

variable {d : Delivery}

theorem prompt_recordSent (d : Delivery) (n : Notification) : (d.recordSent n).Prompt delay t := by
  refine heeds_seq (prompt_call trivial) fun now => ?_
  refine heeds_seq (prompt_store (Prog.heeds_call ?_ fun _ _ => trivial)) fun _ => ?_
  · exact Notification.dueWithin_of_none rfl
  · exact heeds_seq (prompt_call trivial) fun _ => heeds_pure trivial

theorem prompt_recordFailure (hdelay : d.backoff.longestDelay ≤ delay)
    (hwhole : t.frac < 1_000_000_000) (n : Notification) (error : DeliveryError) :
    (d.recordFailure n error).Prompt delay t := by
  refine heeds_bind heeds_now fun now hnow => ?_
  subst hnow
  refine heeds_seq (prompt_call trivial) fun jitter => ?_
  refine heeds_bind (heeds_orCrash _) fun decision hdecide => ?_
  cases decision with
  | retry next =>
      have hnext := Backoff.nanos_of_decide_retry hwhole hdecide
      refine heeds_seq (prompt_store (Prog.heeds_call ?_ fun _ _ => trivial)) fun _ => ?_
      · intro next' heq
        obtain rfl := Option.some.inj heq
        exact hnext.trans (by omega)
      · exact heeds_seq (prompt_call trivial) fun _ => heeds_pure trivial
  | giveUp reason =>
      refine heeds_seq (prompt_store (Prog.heeds_call ?_ fun _ _ => trivial)) fun _ => ?_
      · exact Notification.dueWithin_of_none rfl
      · exact heeds_seq (prompt_call trivial) fun _ => heeds_pure trivial

theorem prompt_attempt (hdelay : d.backoff.longestDelay ≤ delay)
    (hwhole : t.frac < 1_000_000_000) (n : Notification) : (d.attempt n).Prompt delay t := by
  refine heeds_seq (fun _ _ => trivial) fun found => ?_
  refine heeds_seq (prompt_call trivial) fun _ => ?_
  refine heeds_seq (heeds_outcome (heeds_attempt (Q := fun _ => True) ?_)) fun result => ?_
  · exact Prog.heeds_call trivial fun _ _ _ _ => trivial
  · cases result with
    | ok _ => exact d.prompt_recordSent n
    | error error =>
        dsimp only
        split
        · exact prompt_recordFailure hdelay hwhole n error
        · exact heeds_throw

theorem prompt_deliver (hdelay : d.backoff.longestDelay ≤ delay)
    (hwhole : t.frac < 1_000_000_000) (n : Notification) : (d.deliver n).Prompt delay t := by
  refine heeds_seq (prompt_store (Prog.heeds_call trivial fun _ _ => trivial)) fun found => ?_
  cases found with
  | none => exact prompt_attempt hdelay hwhole n
  | some stored =>
      dsimp only
      split
      · exact heeds_pure trivial
      · exact prompt_attempt hdelay hwhole stored

theorem prompt_retry (hdelay : d.backoff.longestDelay ≤ delay)
    (hwhole : t.frac < 1_000_000_000) (n : Notification) : (d.retry n).Prompt delay t := by
  refine heeds_seq (prompt_call trivial) fun now => ?_
  split
  · exact heeds_pure trivial
  · exact heeds_seq (prompt_deliver hdelay hwhole n) fun _ => heeds_pure trivial

end Delivery

namespace Pipeline

variable {p : Pipeline}

theorem prompt_handle (hdelay : p.backoff.longestDelay ≤ delay)
    (hwhole : t.frac < 1_000_000_000) (topic : Topic) (r : Record) :
    ((p.handler topic).handle r).Prompt delay t := by
  have henvelope : (Handler.envelope r).Prompt delay t := fun _ _ => trivial
  cases topic with
  | send =>
      refine heeds_seq henvelope fun e => ?_
      exact heeds_seq (Delivery.prompt_deliver hdelay hwhole _) fun _ => heeds_pure trivial
  | retry =>
      refine heeds_seq henvelope fun e => ?_
      exact heeds_seq (Delivery.prompt_retry hdelay hwhole _) fun _ => heeds_pure trivial
  | deadLetter => exact heeds_seq (prompt_call trivial) fun _ => heeds_pure trivial

theorem prompt_settle (hdelay : p.backoff.longestDelay ≤ delay)
    (hwhole : t.frac < 1_000_000_000) (ledger : Ledger) (topic : Topic) (r : Record) :
    ((p.consumer ledger topic).settle r).Prompt delay t := by
  refine heeds_seq (heeds_outcome (prompt_handle hdelay hwhole topic r)) fun result => ?_
  have hreport : ((p.consumer ledger topic).report r).Prompt delay t := by
    refine heeds_seq (prompt_call trivial) fun now => ?_
    refine heeds_seq (prompt_call trivial) fun id => ?_
    refine heeds_seq (heeds_attempt (Prog.heeds_call ?_ fun _ _ _ _ => trivial)) fun _ => ?_
    · exact fun hretry => absurd hretry (by decide)
    · exact prompt_call trivial
  have hjob (error : DeliveryError) (b : Bool) :
      (if b then throw error else pure false : Job Bool).Prompt delay t := by
    cases b
    · exact heeds_pure trivial
    · exact heeds_throw
  rcases result with error | (_ | _)
  · cases error with
    | deserialization message => exact heeds_seq hreport fun _ => heeds_pure trivial
    | _ => exact hjob _ _
  · exact heeds_pure trivial
  · exact heeds_pure trivial

theorem prompt_settleAll (hdelay : p.backoff.longestDelay ≤ delay)
    (hwhole : t.frac < 1_000_000_000) (ledger : Ledger) (topic : Topic) (rs : List Record)
    (committed : Nat) : ((p.consumer ledger topic).settleAll rs committed).Prompt delay t := by
  induction rs generalizing committed with
  | nil => exact heeds_pure trivial
  | cons r rest ih =>
      refine heeds_seq (prompt_settle hdelay hwhole ledger topic r) fun settled => ?_
      cases settled with
      | false => exact heeds_pure trivial
      | true =>
          refine heeds_seq (heeds_attempt (Prog.heeds_call trivial fun _ _ _ _ => trivial)) ?_
          exact fun _ => ih (committed + 1)

theorem prompt_batch (hdelay : p.backoff.longestDelay ≤ delay)
    (hwhole : t.frac < 1_000_000_000) (ledger : Ledger) (topic : Topic) :
    (p.consumer ledger topic).batch.Prompt delay t := by
  refine heeds_seq (heeds_attempt (Prog.heeds_call trivial fun _ _ _ _ => trivial)) fun rs => ?_
  exact prompt_settleAll hdelay hwhole ledger topic rs 0

end Pipeline

theorem prompt_publishNotification (topic : String) (hn : n.DueWithin delay t) :
    (publishNotification topic n).Prompt delay t := by
  refine heeds_seq (prompt_call trivial) fun now => ?_
  refine heeds_attempt (Prog.heeds_call ?_ fun _ _ _ _ => trivial)
  intro _ e hdecode
  obtain rfl := Except.ok.inj ((Envelope.decode_ofNotification n now).symm.trans hdecode)
  exact hn.told

namespace Publication

variable (p : Publication)

theorem prompt_publishEvent (now : Instant) (e : OutboxEvent) :
    (p.publishEvent now e).Prompt delay t := by
  refine heeds_bind (Q := fun found => ∀ n, found = some n → n.DueWithin delay t)
    (heeds_store (Prog.heeds_call trivial ?_)) fun found hfound => ?_
  · rintro _ hassumed _ rfl n rfl
    exact hassumed
  · cases found with
    | none => exact heeds_throw
    | some n =>
        have hpublish := prompt_publishNotification e.topic (hfound n rfl)
        refine heeds_seq (heeds_outcome hpublish) fun result => ?_
        have hstore {p : Prog (Except StoreError Unit)} {what : Tally}
            (h : p.Heeds (Answered.Prompt delay t) (Call.Prompt delay t) fun _ => True)
            (ledger : Ledger) :
            (do Job.store p; Job.call (.tally ledger what)).Prompt delay t :=
          heeds_seq (prompt_store h) fun _ => prompt_call trivial
        cases result with
        | ok _ => exact hstore (Prog.heeds_call trivial fun _ _ => trivial) _
        | error error =>
            refine heeds_bind (heeds_orCrash _) fun next _ => ?_
            exact hstore (Prog.heeds_call trivial fun _ _ => trivial) _

theorem prompt_publishDue (limit : Nat) : (p.publishDue limit).Prompt delay t := by
  refine heeds_seq (prompt_call trivial) fun now => ?_
  refine heeds_seq (prompt_store (Prog.heeds_call trivial fun _ _ => trivial)) fun events => ?_
  refine heeds_seq ?_ fun _ => heeds_pure trivial
  induction events with
  | nil => exact heeds_pure trivial
  | cons e events ih => exact heeds_seq (p.prompt_publishEvent now e) fun _ => ih

end Publication

namespace Reprocessing

theorem prompt_republish {ns : List Notification} (hns : ∀ n ∈ ns, n.DueWithin delay t) :
    (republish ns).Prompt delay t := by
  induction ns with
  | nil => exact heeds_pure trivial
  | cons n rest ih =>
      rw [List.forall_mem_cons] at hns
      refine heeds_seq (prompt_publishNotification _ hns.1) fun _ => ?_
      exact heeds_seq (ih hns.2) fun _ => heeds_pure trivial

theorem prompt_execute (limit : Nat) : (execute limit).Prompt delay t := by
  refine heeds_bind (Q := fun ns => ∀ n ∈ ns, n.DueWithin delay t)
    (heeds_store (Prog.heeds_call trivial ?_)) fun ns hns => prompt_republish hns
  rintro _ hassumed ns rfl
  exact hassumed

end Reprocessing

namespace Intake

theorem prompt_countAgainst (keys : List String) : (countAgainst keys).Prompt delay t := by
  induction keys with
  | nil => exact heeds_pure trivial
  | cons key rest ih =>
      refine heeds_seq (prompt_call trivial) fun admitted => ?_
      cases admitted with
      | false => exact heeds_throw
      | true => exact ih

theorem prompt_submit (request : Request) : (submit request).Prompt delay t := by
  refine heeds_seq (prompt_call trivial) fun _ => ?_
  refine heeds_seq (heeds_outcome (Q := fun _ => True) ?_) fun outcome => ?_
  · refine heeds_seq (prompt_store (Prog.heeds_call trivial fun _ _ => trivial)) fun found => ?_
    cases found with
    | some existing => exact heeds_pure trivial
    | none =>
        refine heeds_seq (prompt_countAgainst _) fun _ => ?_
        refine heeds_seq (prompt_call trivial) fun id => ?_
        refine heeds_seq (prompt_call trivial) fun now => ?_
        refine heeds_seq (prompt_store (Prog.heeds_call ?_ fun _ _ => trivial)) fun _ => ?_
        · exact Notification.dueWithin_of_none rfl
        · exact heeds_pure trivial
  · refine heeds_seq (prompt_call trivial) fun _ => ?_
    exact fun _ _ => trivial

end Intake

namespace Retention

variable {A : Answered → Prop} {P : Call → Prop}

theorem heeds_pruneTopics (hsweeps : ∀ c : Call, c.Sweeps → P c) (cutoff : Instant)
    (topics : List String) : (pruneTopics cutoff topics).Heeds A P fun _ => True := by
  induction topics with
  | nil => exact heeds_pure trivial
  | cons topic rest ih =>
      have hprune : P (.prune topic cutoff) := hsweeps _ trivial
      refine heeds_seq (heeds_attempt (Prog.heeds_call hprune fun _ _ _ _ => trivial)) fun _ => ?_
      exact heeds_seq ih fun _ => heeds_pure trivial

/-- A sweep does nothing but delete, prune and count. -/
theorem heeds_sweep (hsweeps : ∀ c : Call, c.Sweeps → P c) (r : Retention) :
    r.sweep.Heeds A P fun _ => True := by
  have hcall {c : Call} (hc : c.Sweeps) : (Job.call c).Heeds A P fun _ => True :=
    heeds_call (hsweeps c hc) fun _ _ => trivial
  unfold sweep
  split
  · exact heeds_throw
  · refine heeds_seq (hcall trivial) fun now => ?_
    refine heeds_bind (heeds_orCrash _) fun cutoff _ => ?_
    have hdelete : P (.deletePublished cutoff) := hsweeps _ trivial
    refine heeds_seq (heeds_store (Prog.heeds_call hdelete fun _ _ _ _ => trivial)) fun _ => ?_
    refine heeds_seq (heeds_pruneTopics hsweeps cutoff r.topics) fun _ => ?_
    exact heeds_seq (hcall trivial) fun _ => heeds_pure trivial

end Retention

/-- The attempts that an operation makes are repeated after a delay at most, if they fail. -/
def Operation.RepeatsWithin (delay : Nat) : Operation → Prop
  | .batch p _ _ => p.backoff.longestDelay ≤ delay
  | .deliver d _ => d.backoff.longestDelay ≤ delay
  | _ => True

theorem Operation.prompt_program {op : Operation} (hop : op.RepeatsWithin delay)
    (hwhole : t.frac < 1_000_000_000) :
    op.program.Heeds (Answered.Prompt delay t) (Call.Prompt delay t) fun _ => True := by
  have hdiscard {α : Type} {job : Job α} (h : job.Prompt delay t) :
      (job.run.bind fun _ => .done ()).Heeds (Answered.Prompt delay t) (Call.Prompt delay t)
        fun (_ : Unit) => True :=
    Prog.heeds_bind h fun _ _ => trivial
  cases op with
  | submit request => exact hdiscard (Intake.prompt_submit request)
  | publishDue p limit => exact hdiscard (p.prompt_publishDue limit)
  | batch p ledger topic =>
      exact hdiscard (Pipeline.prompt_batch hop hwhole ledger topic)
  | reprocess limit => exact hdiscard (Reprocessing.prompt_execute limit)
  | sweep r => exact hdiscard (r.heeds_sweep fun _ hc => hc.prompt _ _)
  | deliver d n => exact hdiscard (Delivery.prompt_deliver hop hwhole n)

end

end Courier
