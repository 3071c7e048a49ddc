import Courier.Proofs.Alone.Programs

/-!
What becomes of a record in hand, with the calls that are made for it. An attempt ends with the row
sent, failed or given up, or without anything written. A delivery makes one attempt, unless its row
has gone beyond the message. A record is handled by delivering what it carries, if that can be read
and is due. Each is told once, case by case; what batches do is read off from there.
-/

namespace Courier

/-! ## Refused publications -/

namespace Bus

variable {b : Bus} {topic : String} {key : Option String} {payload : Bytes} {now : Instant}

/-- How many of the next records of a topic will be refused. -/
def refused (b : Bus) (topic : String) : Nat := (b.refusals.lookup topic).getD 0

/-- A topic that refuses no record takes the next one. -/
theorem publish_of_room (hroom : b.refused topic = 0) :
    b.publish topic key payload now = (.ok (), b.append topic key payload now) := by
  unfold publish
  split
  · next heq => exact nomatch heq.symm.trans hroom
  · rfl

theorem publish_of_refused {left : Nat} (hrefused : b.refused topic = left + 1) :
    b.publish topic key payload now =
      (.error (.publish topic "injected publish failure"),
        { b with refusals := set topic left b.refusals }) := by
  unfold publish
  split
  · next heq =>
    obtain rfl := Nat.succ.inj (heq.symm.trans hrefused)
    rfl
  · next heq => exact nomatch heq.symm.trans hrefused

theorem refused_publish_le (other : String) :
    (b.publish topic key payload now).2.refused other ≤ b.refused other := by
  cases hrefused : b.refused topic with
  | zero =>
      rw [publish_of_room hrefused]
      exact Nat.le_refl _
  | succ left =>
      rw [publish_of_refused hrefused]
      by_cases hother : other = topic
      · subst hother
        rw [hrefused, refused, lookup_set_self, Option.getD_some]
        exact Nat.le_succ left
      · rw [refused, lookup_set_of_ne hother]
        exact Nat.le_refl _

end Bus

/-- Whatever is called, no publication more is refused. -/
theorem World.refused_answer_le (w : World) (c : Call) (topic : String) :
    (w.answer c).2.bus.refused topic ≤ w.bus.refused topic := by
  cases c with
  | publish => exact Bus.refused_publish_le topic
  | prune other cutoff =>
      have hsame := Bus.refusals_prune w.bus other cutoff
      exact (congrArg (fun entries => (entries.lookup topic).getD 0) hsame).le
  | send place n =>
      obtain ⟨channels, journal, millis, heq⟩ := w.sendAndWait_eq place n
      change (w.sendAndWait place n).2.bus.refused topic ≤ _
      rw [heq]
  | tally ledger what => cases ledger <;> exact Nat.le_refl _
  | _ => exact Nat.le_refl _

namespace Prog

variable {α : Type}

theorem refused_perform_le (p : Prog α) (s : Account) (topic : String) :
    (p.perform s).2.world.bus.refused topic ≤ s.world.bus.refused topic := by
  induction p generalizing s with
  | done a | crash text => exact Nat.le_refl _
  | ask c next ih =>
      have hanswer := s.world.refused_answer_le c topic
      rw [perform]
      rcases heq : s.world.answer c with ⟨a | _ | _, world⟩ <;> rw [heq] at hanswer
      · exact (ih a _).trans hanswer
      · exact hanswer
      · exact hanswer

/-- Programs only add to what is on record. -/
theorem exists_history (p : Prog α) (s : Account) :
    ∃ calls, (p.perform s).2.history = calls ++ s.history := by
  induction p generalizing s with
  | done a | crash text => exact ⟨[], rfl⟩
  | ask c next ih =>
      rw [perform]
      rcases s.world.answer c with ⟨a | _ | _, world⟩
      · obtain ⟨calls, hcalls⟩ := ih a ⟨world, ⟨c, a⟩ :: s.history⟩
        exact ⟨calls ++ [⟨c, a⟩], by rw [List.append_assoc]; exact hcalls⟩
      · exact ⟨[], rfl⟩
      · exact ⟨[], rfl⟩

end Prog

/-! ## Jobs one after the other -/

section

variable {α β : Type}

def Close.map (f : α → β) : Close α → Close β
  | .returned a => .returned (f a)
  | .overflowed => .overflowed
  | .unanswered => .unanswered

theorem Prog.perform_bind_job (job : Job β) (f : β → Job α) (s : Account) :
    (job >>= f).run.perform s = match job.run.perform s with
      | (.returned (.ok b), s') => (f b).run.perform s'
      | (.returned (.error error), s') => (.returned (.error error), s')
      | (.overflowed, s') => (.overflowed, s')
      | (.unanswered, s') => (.unanswered, s') := by
  refine (perform_bind job.run _ s).trans ?_
  rcases job.run.perform s with ⟨(error | b) | _ | _, s'⟩ <;> rfl

end

/-! ## Runs as told -/

namespace Prog

variable {α : Type} {w w' : World} {told : Close α → World → List Answered → Prop}

/-- A program comes to an end as told: how it closes, the world that it leaves, and the calls it
made, the latest first. -/
def RunsAs (p : Prog α) (w : World) (told : Close α → World → List Answered → Prop) : Prop :=
  ∀ history, ∃ close w' calls,
    p.perform ⟨w, history⟩ = (close, ⟨w', calls ++ history⟩) ∧ told close w' calls

theorem runsAs_mono {p : Prog α} {R : Close α → World → List Answered → Prop}
    (hp : p.RunsAs w R) (h : ∀ close w' calls, R close w' calls → told close w' calls) :
    p.RunsAs w told := by
  intro history
  obtain ⟨close, w', calls, hperform, htold⟩ := hp history
  exact ⟨close, w', calls, hperform, h close w' calls htold⟩

theorem runsAs_done {a : α} (h : told (.returned a) w []) : (Prog.done a).RunsAs w told :=
  fun _ => ⟨_, _, _, rfl, h⟩

theorem runsAs_crash {text : String} (h : told .overflowed w []) :
    (Prog.crash text : Prog α).RunsAs w told :=
  fun _ => ⟨_, _, _, rfl, h⟩

theorem runsAs_ask {c : Call} {a : c.Answer} {next : c.Answer → Prog α}
    (hanswer : w.answer c = (.done a, w'))
    (hnext : (next a).RunsAs w' fun close w'' calls => told close w'' (calls ++ [⟨c, a⟩])) :
    (Prog.ask c next).RunsAs w told := by
  intro history
  obtain ⟨close, w'', calls, hperform, htold⟩ := hnext (⟨c, a⟩ :: history)
  refine ⟨close, w'', calls ++ [⟨c, a⟩], ?_, htold⟩
  rw [perform]
  dsimp only
  rw [hanswer, List.append_assoc]
  exact hperform

theorem runsAs_unanswered {c : Call} {o : Outcome c.Answer} {next : c.Answer → Prog α}
    (hanswer : w.answer c = (o, w')) (hnone : ∀ a, o ≠ .done a) (h : told .unanswered w' []) :
    (Prog.ask c next).RunsAs w told := by
  intro history
  refine ⟨.unanswered, w', [], ?_, h⟩
  rw [perform]
  dsimp only
  rw [hanswer]
  cases o with
  | done a => exact absurd rfl (hnone a)
  | _ => rfl

end Prog

/-- A job that goes on with what another returned, if it returned something. -/
theorem Job.runsAs_bind {α β : Type} {job : Job β} {f : β → Job α} {w : World}
    {told : Close (Except DeliveryError α) → World → List Answered → Prop}
    (h : job.run.RunsAs w fun close w' calls => match close with
      | .returned (.ok b) =>
        (f b).run.RunsAs w' fun close w'' more => told close w'' (more ++ calls)
      | .returned (.error error) => told (.returned (.error error)) w' calls
      | .overflowed => told .overflowed w' calls
      | .unanswered => told .unanswered w' calls) :
    (job >>= f).run.RunsAs w told := by
  intro history
  obtain ⟨close, w', calls, hperform, htold⟩ := h history
  rw [Prog.perform_bind_job, hperform]
  rcases close with (error | b) | _ | _
  · exact ⟨_, _, _, rfl, htold⟩
  · obtain ⟨close, w'', more, hperform', htold'⟩ := htold (calls ++ history)
    exact ⟨close, w'', more ++ calls, by rw [List.append_assoc]; exact hperform', htold'⟩
  · exact ⟨_, _, _, rfl, htold⟩
  · exact ⟨_, _, _, rfl, htold⟩

theorem Job.runsAs_outcome {α : Type} {job : Job α} {w : World}
    {told : Close (Except DeliveryError (Except DeliveryError α)) → World → List Answered → Prop}
    (h : job.run.RunsAs w fun close w' calls => told (close.map .ok) w' calls) :
    job.outcome.run.RunsAs w told := by
  intro history
  obtain ⟨close, w', calls, hperform, htold⟩ := h history
  refine ⟨close.map .ok, w', calls, ?_, htold⟩
  refine (Prog.perform_bind job.run _ _).trans ?_
  rw [hperform]
  cases close <;> rfl

/-- A job that only makes something of what another returns. -/
theorem Job.runsAs_map {α β : Type} {job : Job β} (f : β → α) {w : World}
    {told : Close (Except DeliveryError α) → World → List Answered → Prop}
    (h : job.run.RunsAs w fun close w' calls => told (close.map (.map f)) w' calls) :
    (job >>= fun b => pure (f b)).run.RunsAs w told := by
  refine Job.runsAs_bind (Prog.runsAs_mono h fun close w' calls htold => ?_)
  rcases close with (error | b) | _ | _
  · exact htold
  · exact Prog.runsAs_done htold
  · exact htold
  · exact htold

/-! ## Attempts -/

namespace Delivery

/-- A channel is called for a notification and gives a result. -/
structure Sends (d : Delivery) (n : Notification) (w : World) (place : Nat)
    (result : Except DeliveryError Unit) (w' : World) : Prop where
  found : ∃ name, d.registry.find n.medium = .ok (place, name)
  answered : (w.count d.ledger .sendAttempt).answer (.send place n) = (.done result, w')

/-- The calls of an attempt up to the result of the channel, the latest first. -/
def sending (d : Delivery) (n : Notification) (place : Nat) (result : Except DeliveryError Unit) :
    List Answered :=
  [⟨.send place n, result⟩, ⟨.tally d.ledger .sendAttempt, ()⟩]

/-- The calls up to a decision on a failed attempt, where the time and the jitter are known. -/
def deciding (d : Delivery) (n : Notification) (place : Nat) (error : DeliveryError) (w : World) :
    List Answered :=
  ⟨.jitter Backoff.jitterBound, (w.jitter.draw Backoff.jitterBound).1⟩ :: ⟨.now, w.now⟩ ::
    d.sending n place (.error error)

/-- The world once the jitter for a decision was drawn. -/
def drawn (w : World) : World :=
  { w with jitter := (w.jitter.draw Backoff.jitterBound).2 }

/-- The decision on an attempt that failed in this world. -/
def decision (d : Delivery) (n : Notification) (w : World) :
    Except Instant.Overflow RetryDecision :=
  d.backoff.decide n.medium (countUp n.retryCount) w.now (w.jitter.draw Backoff.jitterBound).1

/-- How a failed attempt is recorded by the policy of the delivery. -/
abbrev Judges (d : Delivery) (n : Notification) (error : DeliveryError) (w : World) :
    Notification → Topic → Tally → Prop :=
  Ruling ⟨(· = d.backoff), True⟩ n error w.now (w.jitter.draw Backoff.jitterBound).1

/-- How an attempt ends, with the world it leaves and the calls it made, the latest first. -/
inductive Attempt (d : Delivery) (n : Notification) (w : World) :
    Close (Except DeliveryError DeliveryOutcome) → World → List Answered → Prop
  | unavailable {error} (hfind : d.registry.find n.medium = .error error) :
      Attempt d n w (.returned (.error error)) w []
  | unanswered {place name o w₁} (hfind : d.registry.find n.medium = .ok (place, name))
      (hanswer : (w.count d.ledger .sendAttempt).answer (.send place n) = (o, w₁))
      (hnone : ∀ result, o ≠ .done result) :
      Attempt d n w .unanswered w₁ [⟨.tally d.ledger .sendAttempt, ()⟩]
  | refused {place error w₁} (hsends : d.Sends n w place (.error error) w₁)
      (hother : error.isDeliveryFailure = false) :
      Attempt d n w (.returned (.error error)) w₁ (d.sending n place (.error error))
  | unsaved {place w₁ w₂ error} (hsends : d.Sends n w place (.ok ()) w₁)
      (hsave : w₁.answer (.save (n.sent w₁.now)) = (.done (.error error), w₂)) :
      Attempt d n w (.returned (.error (.ofStore error))) w₂
        (⟨.save (n.sent w₁.now), .error error⟩ :: ⟨.now, w₁.now⟩ :: d.sending n place (.ok ()))
  | sent {place w₁ w₂} (hsends : d.Sends n w place (.ok ()) w₁)
      (hsave : w₁.answer (.save (n.sent w₁.now)) = (.done (.ok ()), w₂)) :
      Attempt d n w (.returned (.ok .sent)) (w₂.count d.ledger .sent)
        (⟨.tally d.ledger .sent, ()⟩ :: ⟨.save (n.sent w₁.now), .ok ()⟩ :: ⟨.now, w₁.now⟩ ::
          d.sending n place (.ok ()))
  | overflowed {place error w₁ overflow} (hsends : d.Sends n w place (.error error) w₁)
      (hfailure : error.isDeliveryFailure = true)
      (hdecide : d.decision n w₁ = .error overflow) :
      Attempt d n w .overflowed (drawn w₁) (d.deciding n place error w₁)
  | unrecorded {place error w₁ m topic what error' w₂}
      (hsends : d.Sends n w place (.error error) w₁) (hfailure : error.isDeliveryFailure = true)
      (hjudges : d.Judges n error w₁ m topic what)
      (hsave : (drawn w₁).answer (.saveWithOutbox m topic.name) = (.done (.error error'), w₂)) :
      Attempt d n w (.returned (.error (.ofStore error'))) w₂
        (⟨.saveWithOutbox m topic.name, .error error'⟩ :: d.deciding n place error w₁)
  | failed {place error w₁ m topic what outcome e w₂}
      (hsends : d.Sends n w place (.error error) w₁) (hfailure : error.isDeliveryFailure = true)
      (hjudges : d.Judges n error w₁ m topic what)
      (hsave : (drawn w₁).answer (.saveWithOutbox m topic.name) = (.done (.ok e), w₂)) :
      Attempt d n w (.returned (.ok outcome)) (w₂.count d.ledger what)
        (⟨.tally d.ledger what, ()⟩ :: ⟨.saveWithOutbox m topic.name, .ok e⟩ ::
          d.deciding n place error w₁)

variable {d : Delivery} {n : Notification} {w w₁ : World} {place : Nat}

private theorem runsAs_recordSent (hsends : d.Sends n w place (.ok ()) w₁) :
    (d.recordSent n).run.RunsAs w₁ fun close w' calls =>
      d.Attempt n w close w' (calls ++ d.sending n place (.ok ())) := by
  refine Prog.runsAs_ask rfl ?_
  rcases hsave : w₁.answer (.save (n.sent w₁.now)) with ⟨saved | _ | _, w₂⟩
  · refine Prog.runsAs_ask hsave ?_
    cases saved with
    | ok _ => exact Prog.runsAs_ask rfl (Prog.runsAs_done (.sent hsends hsave))
    | error error => exact Prog.runsAs_done (.unsaved hsends hsave)
  · exact nomatch (Prod.mk.inj hsave).1
  · exact nomatch (Prod.mk.inj hsave).1

/-- A write that records how a failed attempt is judged. -/
private theorem runsAs_ruling {error : DeliveryError} {m : Notification} {topic : Topic}
    {what : Tally} {outcome : DeliveryOutcome} (hsends : d.Sends n w place (.error error) w₁)
    (hfailure : error.isDeliveryFailure = true) (hjudges : d.Judges n error w₁ m topic what) :
    (do
      let _ ← Job.store (.call (.saveWithOutbox m topic.name))
      Job.call (.tally d.ledger what)
      return outcome : Job DeliveryOutcome).run.RunsAs (drawn w₁) fun close w' calls =>
        d.Attempt n w close w' (calls ++ d.deciding n place error w₁) := by
  rcases hsave : (drawn w₁).answer (.saveWithOutbox m topic.name) with ⟨saved | _ | _, w₂⟩
  · refine Prog.runsAs_ask hsave ?_
    cases saved with
    | ok e => exact Prog.runsAs_ask rfl (Prog.runsAs_done (.failed hsends hfailure hjudges hsave))
    | error error => exact Prog.runsAs_done (.unrecorded hsends hfailure hjudges hsave)
  · exact nomatch (Prod.mk.inj hsave).1
  · exact nomatch (Prod.mk.inj hsave).1

private theorem runsAs_recordFailure {error : DeliveryError}
    (hsends : d.Sends n w place (.error error) w₁) (hfailure : error.isDeliveryFailure = true) :
    (d.recordFailure n error).run.RunsAs w₁ fun close w' calls =>
      d.Attempt n w close w' (calls ++ d.sending n place (.error error)) := by
  refine Prog.runsAs_ask rfl (Prog.runsAs_ask rfl ?_)
  refine Prog.runsAs_mono (R := fun close w' calls =>
    d.Attempt n w close w' (calls ++ d.deciding n place error w₁)) ?_ fun close w' calls h => ?_
  · change (Job.orCrash (d.decision n w₁) >>= _ : Job DeliveryOutcome).run.RunsAs (drawn w₁) _
    cases hdecide : d.decision n w₁ with
    | error overflow => exact Prog.runsAs_crash (.overflowed hsends hfailure hdecide)
    | ok decision =>
        cases decision with
        | retry next => exact runsAs_ruling hsends hfailure (.retry rfl hdecide)
        | giveUp reason => exact runsAs_ruling hsends hfailure (.giveUp rfl hdecide)
  · rw [List.append_assoc, List.append_assoc]
    exact h

theorem runsAs_attempt (d : Delivery) (n : Notification) (w : World) :
    (d.attempt n).run.RunsAs w (d.Attempt n w) := by
  unfold attempt
  cases hfind : d.registry.find n.medium with
  | error error => exact Prog.runsAs_done (.unavailable hfind)
  | ok found =>
      obtain ⟨place, name⟩ := found
      refine Prog.runsAs_ask rfl ?_
      rcases hanswer : (w.count d.ledger .sendAttempt).answer (.send place n) with ⟨o, w₁⟩
      by_cases hdone : ∃ result, o = .done result
      · obtain ⟨result, rfl⟩ := hdone
        have hsends : d.Sends n w place result w₁ := ⟨⟨name, hfind⟩, hanswer⟩
        refine Prog.runsAs_ask hanswer ?_
        refine Prog.runsAs_mono (R := fun close w' calls =>
          d.Attempt n w close w' (calls ++ d.sending n place result)) ?_ fun close w' calls h => ?_
        · cases result with
          | ok _ => exact runsAs_recordSent hsends
          | error error =>
              change (if error.isDeliveryFailure then d.recordFailure n error
                else throw error : Job DeliveryOutcome).run.RunsAs w₁ _
              split
              · next hfailure => exact runsAs_recordFailure hsends hfailure
              · next hother =>
                exact Prog.runsAs_done (.refused hsends (Bool.eq_false_iff.mpr hother))
        · rw [List.append_assoc]
          exact h
      · have hnone : ∀ result, o ≠ .done result := not_exists.mp hdone
        exact Prog.runsAs_unanswered hanswer hnone (.unanswered hfind hanswer hnone)

end Delivery

/-! ## Deliveries -/

/-- What is attempted for a message: its row, unless that has gone beyond the message, or the
message itself if there is no row. -/
def World.Offers (w : World) (m n : Notification) : Prop :=
  w.store.find? m.id = some n ∧ ¬ n.Outdates m ∨ w.store.find? m.id = none ∧ n = m

/-- How a delivery goes. -/
inductive Delivery.Course (d : Delivery) (m : Notification) (w : World) :
    Close (Except DeliveryError DeliveryOutcome) → World → List Answered → Prop
  | skips {stored} (hfind : w.store.find? m.id = some stored) (h : stored.Outdates m) :
      Course d m w (.returned (.ok .skipped)) w [⟨.findById m.id, .ok (some stored)⟩]
  | attempts {n close w' calls} (hn : w.Offers m n) (h : d.Attempt n w close w' calls) :
      Course d m w close w' (calls ++ [⟨.findById m.id, .ok (w.store.find? m.id)⟩])

theorem Delivery.runsAs_deliver (d : Delivery) (m : Notification) (w : World) :
    (d.deliver m).run.RunsAs w (d.Course m w) := by
  refine Prog.runsAs_ask rfl ?_
  have hattempt {n : Notification} (hn : w.Offers m n) :
      (d.attempt n).run.RunsAs w fun close w' calls =>
        d.Course m w close w' (calls ++ [⟨.findById m.id, .ok (w.store.find? m.id)⟩]) :=
    Prog.runsAs_mono (d.runsAs_attempt n w) fun _ _ _ h => .attempts hn h
  cases hfind : w.store.find? m.id with
  | none =>
      rw [hfind] at hattempt
      exact hattempt (Or.inr ⟨hfind, rfl⟩)
  | some stored =>
      rw [hfind] at hattempt
      change (if stored.status = .sent ∨ m.retryCount < stored.retryCount then pure .skipped
        else d.attempt stored : Job DeliveryOutcome).run.RunsAs w _
      split
      · next houtdates => exact Prog.runsAs_done (.skips hfind houtdates)
      · next hcurrent => exact hattempt (Or.inl ⟨hfind, hcurrent⟩)

/-! ## The bus under a delivery -/

section

variable {d : Delivery} {m n : Notification} {w w' : World} {calls : List Answered}
  {close : Close (Except DeliveryError DeliveryOutcome)}

theorem World.bus_count (w : World) (ledger : Ledger) (what : Tally) :
    (w.count ledger what).bus = w.bus := by
  cases ledger <;> rfl

/-- No call of a delivery touches the bus. -/
theorem World.bus_answer {c : Call} {o : Outcome c.Answer} (h : w.answer c = (o, w'))
    (hc : c.Delivers) : w'.bus = w.bus := by
  obtain rfl : w' = (w.answer c).2 := by rw [h]
  cases c with
  | send place n =>
      obtain ⟨channels, journal, millis, heq⟩ := w.sendAndWait_eq place n
      change (w.sendAndWait place n).2.bus = w.bus
      rw [heq]
  | tally ledger what => exact w.bus_count ledger what
  | publish | poll | commit | prune => exact (hc.elim id id).elim
  | _ => rfl

theorem Delivery.Sends.bus_eq {place : Nat} {result : Except DeliveryError Unit}
    (h : d.Sends n w place result w') : w'.bus = w.bus :=
  (World.bus_answer h.answered (Or.inr trivial)).trans (w.bus_count _ _)

theorem Delivery.Attempt.bus_eq (h : d.Attempt n w close w' calls) : w'.bus = w.bus := by
  cases h with
  | unavailable => rfl
  | unanswered _ hanswer =>
      exact (World.bus_answer hanswer (Or.inr trivial)).trans (w.bus_count _ _)
  | refused hsends => exact hsends.bus_eq
  | unsaved hsends hsave => exact (World.bus_answer hsave (Or.inl trivial)).trans hsends.bus_eq
  | sent hsends hsave =>
      rw [World.bus_count, World.bus_answer hsave (Or.inl trivial), hsends.bus_eq]
  | overflowed hsends => exact hsends.bus_eq
  | unrecorded hsends _ _ hsave =>
      exact (World.bus_answer hsave (Or.inl trivial)).trans hsends.bus_eq
  | failed hsends _ _ hsave =>
      rw [World.bus_count, World.bus_answer hsave (Or.inl trivial)]
      exact hsends.bus_eq

theorem Delivery.Course.bus_eq (h : d.Course m w close w' calls) : w'.bus = w.bus := by
  cases h with
  | skips => rfl
  | attempts _ h => exact h.bus_eq

end

/-! ## Records in hand -/

namespace Pipeline

/-- On the retry topic the time is asked first. -/
def asking (topic : Topic) (w : World) : List Answered :=
  if topic = .retry then [⟨.now, w.now⟩] else []

/-- How a record of a topic to deliver from is handled. -/
inductive Handling (p : Pipeline) (topic : Topic) (r : Record) (w : World) :
    Close (Except DeliveryError Disposition) → World → List Answered → Prop
  | unreadable {message} (hr : r.snapshot = none) :
      Handling p topic r w (.returned (.error (.deserialization message))) w []
  | defers {m} (htopic : topic = .retry) (hr : r.snapshot = some m)
      (hpending : m.isRetryPending w.now = true) :
      Handling p topic r w (.returned (.ok .defer)) w [⟨.now, w.now⟩]
  | delivers {m close w' calls} (hr : r.snapshot = some m)
      (hdue : topic = .retry → m.isRetryPending w.now = false)
      (h : p.delivery.Course m w close w' calls) :
      Handling p topic r w (close.map (.map fun _ => .commit)) w' (calls ++ asking topic w)

theorem Handling.bus_eq {p : Pipeline} {topic : Topic} {r : Record} {w w' : World}
    {calls : List Answered} {close : Close (Except DeliveryError Disposition)}
    (h : p.Handling topic r w close w' calls) : w'.bus = w.bus := by
  cases h with
  | unreadable | defers => rfl
  | delivers _ _ h => exact h.bus_eq

/-- A record is read, or it is not. -/
private theorem runsAs_envelope {r : Record} {w : World} {f : Envelope → Job Disposition}
    {told : Close (Except DeliveryError Disposition) → World → List Answered → Prop}
    (hnone : ∀ message, r.snapshot = none →
      told (.returned (.error (.deserialization message))) w [])
    (hsome : ∀ e, r.snapshot = some e.notification → (f e).run.RunsAs w told) :
    (Handler.envelope r >>= f).run.RunsAs w told := by
  unfold Handler.envelope
  cases hdecode : Envelope.decode r.payload with
  | error fault =>
      refine Prog.runsAs_done (hnone _ ?_)
      rw [Record.snapshot, hdecode]
      rfl
  | ok e =>
      refine hsome e ?_
      rw [Record.snapshot, hdecode]
      rfl

theorem runsAs_handle (p : Pipeline) {topic : Topic} (htopic : topic ≠ .deadLetter) (r : Record)
    (w : World) : ((p.handler topic).handle r).run.RunsAs w (p.Handling topic r w) := by
  cases topic with
  | send =>
      refine runsAs_envelope (fun _ => .unreadable) fun e he => ?_
      refine Job.runsAs_map (fun _ => Disposition.commit) ?_
      refine Prog.runsAs_mono (p.delivery.runsAs_deliver e.notification w) fun _ _ calls h => ?_
      exact List.append_nil calls ▸ .delivers he nofun h
  | retry =>
      refine runsAs_envelope (fun _ => .unreadable) fun e he => ?_
      refine Prog.runsAs_ask rfl ?_
      change ((if e.notification.isRetryPending w.now then pure false
        else p.delivery.deliver e.notification >>= fun _ => pure true : Job Bool) >>= fun handled =>
          pure (if handled then .commit else .defer) : Job Disposition).run.RunsAs w _
      split
      · next hpending => exact Prog.runsAs_done (.defers rfl he hpending)
      · next hdue =>
        refine Job.runsAs_map _ (Job.runsAs_map (fun _ => true) ?_)
        refine Prog.runsAs_mono (p.delivery.runsAs_deliver e.notification w) fun close _ _ h => ?_
        have hhandling : p.Handling .retry r w _ _ _ :=
          .delivers he (fun _ => Bool.eq_false_iff.mpr hdue) h
        rcases close with (error | outcome) | _ | _ <;> exact hhandling
  | deadLetter => exact absurd rfl htopic

end Pipeline
end Courier
