import Courier.Proofs.Alone.Unreadable

/-!
What a consumer that delivers does with the records in hand, whichever channels, policy and ledgers
it works with. Each record is passed over, delivered or deferred without a touch of the bus, or it
is reported, or its report is refused; a batch goes through what it polled up to the first record
that is not to be committed.
-/

namespace Courier

/-! ## What handling a record leaves alone -/

/-- How many unreadable records a ledger counts. -/
def World.unreadable (w : World) : Ledger → Nat
  | .pipeline => w.pipelineStats.parseErrors
  | .loops => w.loopStats.parseErrors

namespace World

variable {w w' : World} {ledger : Ledger}

theorem unreadable_count_self (w : World) (ledger : Ledger) :
    (w.count ledger .parseError).unreadable ledger = w.unreadable ledger + 1 := by
  cases ledger <;> rfl

/-- Counting something else. -/
theorem unreadable_count (w : World) (ledger other : Ledger) {what : Tally}
    (h : what ≠ .parseError) : (w.count ledger what).unreadable other = w.unreadable other := by
  cases what with
  | parseError => exact absurd rfl h
  | _ => cases ledger <;> cases other <;> rfl

/-- Only counting changes a count. -/
theorem unreadable_answer {c : Call} {o : Outcome c.Answer} (h : w.answer c = (o, w'))
    (hc : ∀ ledger what, c ≠ .tally ledger what) : w'.unreadable ledger = w.unreadable ledger := by
  obtain rfl : w' = (w.answer c).2 := by rw [h]
  cases c with
  | send place n =>
      obtain ⟨channels, journal, millis, heq⟩ := w.sendAndWait_eq place n
      change (w.sendAndWait place n).2.unreadable ledger = w.unreadable ledger
      rw [heq]
      cases ledger <;> rfl
  | tally ledger what => exact absurd rfl (hc ledger what)
  | _ => cases ledger <;> rfl

end World

/-- A record is taken at the end of its topic, or it is refused. -/
theorem World.answer_publish (w : World) (topic : String) (key : Option String) (payload : Bytes) :
    w.answer (.publish topic key payload) =
        (.done (.ok ()), { w with bus := w.bus.append topic key payload w.now }) ∨
      ∃ error refusals, w.answer (.publish topic key payload) =
        (.done (.error error), { w with bus := { w.bus with refusals } }) := by
  rw [World.answer]
  cases hrefused : w.bus.refused topic with
  | zero => exact Or.inl (by rw [Bus.publish_of_room hrefused])
  | succ left => exact Or.inr ⟨_, _, by rw [Bus.publish_of_refused hrefused]⟩

namespace Delivery

variable {d : Delivery} {m n : Notification} {w w' : World} {calls : List Answered}
  {close : Close (Except DeliveryError DeliveryOutcome)} {ledger : Ledger}

theorem Sends.unreadable_eq {place : Nat} {result : Except DeliveryError Unit}
    (h : d.Sends n w place result w') : w'.unreadable ledger = w.unreadable ledger :=
  (World.unreadable_answer h.answered nofun).trans (w.unreadable_count _ _ (by decide))

theorem Attempt.unreadable_eq (h : d.Attempt n w close w' calls) :
    w'.unreadable ledger = w.unreadable ledger := by
  have hdrawn {w₁ : World} : (drawn w₁).unreadable ledger = w₁.unreadable ledger := by
    cases ledger <;> rfl
  cases h with
  | unavailable => rfl
  | unanswered _ hanswer =>
      exact (World.unreadable_answer hanswer nofun).trans (w.unreadable_count _ _ (by decide))
  | refused hsends => exact hsends.unreadable_eq
  | unsaved hsends hsave => exact (World.unreadable_answer hsave nofun).trans hsends.unreadable_eq
  | sent hsends hsave =>
      rw [World.unreadable_count _ _ _ (by decide), World.unreadable_answer hsave nofun,
        hsends.unreadable_eq]
  | overflowed hsends => exact hdrawn.trans hsends.unreadable_eq
  | unrecorded hsends _ _ hsave =>
      rw [World.unreadable_answer hsave nofun, hdrawn, hsends.unreadable_eq]
  | failed hsends _ hjudges hsave =>
      rw [World.unreadable_count _ _ _ (by cases hjudges <;> decide),
        World.unreadable_answer hsave nofun, hdrawn, hsends.unreadable_eq]

theorem Course.unreadable_eq (h : d.Course m w close w' calls) :
    w'.unreadable ledger = w.unreadable ledger := by
  cases h with
  | skips => rfl
  | attempts _ h => exact h.unreadable_eq

end Delivery

/-! ## Records, handled and settled -/

/-- No envelope can be read from the record. -/
def Record.isUnreadable (r : Record) : Bool := (Envelope.decode r.payload).toOption.isNone

/-- What a handler that delivers does to a record: it touches neither the bus nor the counts of
unreadable records, and says that it is unreadable if it is, or if a channel says so. -/
structure Handler.Treats (r : Record) (w : World)
    (close : Close (Except DeliveryError Disposition)) (w' : World) (calls : List Answered) :
    Prop where
  bus_eq : w'.bus = w.bus
  unreadable_eq : ∀ ledger, w'.unreadable ledger = w.unreadable ledger
  delivers : ∀ x ∈ calls, x.call.Delivers
  unreadable_iff : (∃ message, close = .returned (.error (.deserialization message))) ↔
    r.isUnreadable = true ∨ ∃ x ∈ calls, x.garbles = true

namespace Handler

variable {d : Delivery} {m : Notification} {r : Record} {w w' : World} {calls : List Answered}

theorem Treats.of_course {close : Close (Except DeliveryError DeliveryOutcome)}
    (hr : r.isUnreadable = false) (h : d.Course m w close w' calls) :
    Treats r w (close.map (.map fun _ => .commit)) w' calls where
  bus_eq := h.bus_eq
  unreadable_eq _ := h.unreadable_eq
  delivers := h.delivers
  unreadable_iff := by
    rw [hr, ← h.garbles_iff]
    rcases close with (error | outcome) | _ | _ <;> simp [Close.map, Except.map]

/-- The time was asked before. -/
theorem Treats.asked {close : Close (Except DeliveryError Disposition)}
    (h : Treats r w close w' calls) (now : Instant) :
    Treats r w close w' (calls ++ [⟨.now, now⟩]) where
  bus_eq := h.bus_eq
  unreadable_eq := h.unreadable_eq
  delivers :=
    List.forall_mem_append.mpr ⟨h.delivers, List.forall_mem_singleton.mpr (Or.inr trivial)⟩
  unreadable_iff := by
    rw [h.unreadable_iff]
    simp [Answered.garbles]

/-- A record is read before anything is done with it. -/
private theorem runsAs_envelope {f : Envelope → Job Disposition}
    (hread : r.isUnreadable = false → ∀ e, (f e).run.RunsAs w (Treats r w)) :
    (envelope r >>= f).run.RunsAs w (Treats r w) := by
  unfold envelope
  cases hdecode : Envelope.decode r.payload with
  | error fault =>
      have hr : r.isUnreadable = true := by rw [Record.isUnreadable, hdecode]; rfl
      exact Prog.runsAs_done ⟨rfl, fun _ => rfl, List.forall_mem_nil _,
        iff_of_true ⟨_, rfl⟩ (Or.inl hr)⟩
  | ok e => exact hread (by rw [Record.isUnreadable, hdecode]; rfl) e

theorem runsAs_send (d : Delivery) (r : Record) (w : World) :
    ((send d).handle r).run.RunsAs w (Treats r w) := by
  refine runsAs_envelope fun hr e => Job.runsAs_map (fun _ => Disposition.commit) ?_
  exact Prog.runsAs_mono (d.runsAs_deliver e.notification w) fun _ _ _ h => .of_course hr h

theorem runsAs_retry (d : Delivery) (r : Record) (w : World) :
    ((retry d).handle r).run.RunsAs w (Treats r w) := by
  refine runsAs_envelope fun hr e => Prog.runsAs_ask rfl ?_
  change ((if e.notification.isRetryPending w.now then pure false
    else d.deliver e.notification >>= fun _ => pure true : Job Bool) >>= fun handled =>
      pure (if handled then .commit else .defer) : Job Disposition).run.RunsAs w _
  split
  · exact Prog.runsAs_done ⟨rfl, fun _ => rfl, List.forall_mem_singleton.mpr (Or.inr trivial),
      by simp [hr, Answered.garbles]⟩
  · refine Job.runsAs_map _ (Job.runsAs_map (fun _ => true) ?_)
    refine Prog.runsAs_mono (d.runsAs_deliver e.notification w) fun close _ _ h => ?_
    have htreats : Treats r w _ _ _ := (Treats.of_course hr h).asked w.now
    rcases close with (error | outcome) | _ | _ <;> exact htreats

end Handler

namespace Consumer

/-- It delivers what its records carry, at once or when the time for that has come. -/
def Delivers (c : Consumer) : Prop := ∃ d, c.handler = .send d ∨ c.handler = .retry d

variable {c : Consumer} {r : Record} {w w' : World} {calls : List Answered}

theorem Delivers.runsAs_handle (h : c.Delivers) (r : Record) (w : World) :
    (c.handler.handle r).run.RunsAs w (Handler.Treats r w) := by
  obtain ⟨d, hsend | hretry⟩ := h
  · exact hsend ▸ Handler.runsAs_send d r w
  · exact hretry ▸ Handler.runsAs_retry d r w

/-- What is published on a record that cannot be read. -/
def reportOn (r : Record) (now : Instant) : Bytes :=
  (UnreadableReport.ofPayload r.topic r.partition r.offset r.payload now).encode

/-- How a record is settled: without a report, with one that is published and counted, or with one
that is refused. -/
inductive Settles (c : Consumer) (r : Record) (w : World) :
    Close (Except DeliveryError Bool) → World → List Answered → Prop
  | passes {close w' calls} (hbus : w'.bus = w.bus)
      (hcount : w'.unreadable c.ledger = w.unreadable c.ledger)
      (hcalls : ∀ x ∈ calls, x.call.Delivers)
      (hread : close = .returned (.ok true) → r.isUnreadable = false) :
      Settles c r w close w' calls
  | reports {w' calls now id}
      (hbus : w'.bus = w.bus.append Topic.deadLetter.name (some id.text) (reportOn r now) now)
      (hcount : w'.unreadable c.ledger = w.unreadable c.ledger + 1)
      (hcalls : ∀ x ∈ calls, x.call.Delivers)
      (hunreadable : r.isUnreadable = true ∨ ∃ x ∈ calls, x.garbles = true) :
      Settles c r w (.returned (.ok true)) w' ((c.reporting r now id).reverse ++ calls)
  | refused {w' calls now id error refusals} (hbus : w'.bus = { w.bus with refusals })
      (hcount : w'.unreadable c.ledger = w.unreadable c.ledger)
      (hcalls : ∀ x ∈ calls, x.call.Delivers) :
      Settles c r w (.returned (.error error)) w'
        (⟨.publish Topic.deadLetter.name (some id.text) (reportOn r now), .error error⟩ ::
          ⟨.newId, id⟩ :: ⟨.now, now⟩ :: calls)

/-- A report is published and counted, or refused. -/
private theorem runsAs_report {message : String}
    (h : Handler.Treats r w (.returned (.error (.deserialization message))) w' calls) :
    (c.report r >>= fun _ => pure true : Job Bool).run.RunsAs w' fun close w'' more =>
      c.Settles r w close w'' (more ++ calls) := by
  have hcount := h.unreadable_eq c.ledger
  refine Prog.runsAs_ask rfl (Prog.runsAs_ask rfl ?_)
  rcases w'.takeId.2.answer_publish Topic.deadLetter.name (some w'.takeId.1.text)
    (reportOn r w'.now) with hanswer | ⟨error, refusals, hanswer⟩
  · -- behind the publication comes the count, and that cannot fail
    refine Prog.runsAs_ask hanswer (Prog.runsAs_ask rfl (Prog.runsAs_done ?_))
    refine .reports ?_ ?_ h.delivers (h.unreadable_iff.mp ⟨message, rfl⟩)
    · exact (World.bus_count _ _ _).trans (h.bus_eq ▸ rfl)
    · rw [World.unreadable_count_self, ← hcount]
      cases c.ledger <;> rfl
  · refine Prog.runsAs_ask hanswer (Prog.runsAs_done ?_)
    refine .refused (show _ = { w.bus with refusals } from h.bus_eq ▸ rfl) ?_ h.delivers
    rw [← hcount]
    cases c.ledger <;> rfl

theorem Delivers.runsAs_settle (h : c.Delivers) (r : Record) (w : World) :
    (c.settle r).run.RunsAs w (c.Settles r w) := by
  refine Job.runsAs_bind (Job.runsAs_outcome ?_)
  refine Prog.runsAs_mono (h.runsAs_handle r w) fun close w' calls htreats => ?_
  have hpasses {close : Close (Except DeliveryError Bool)}
      (hread : close = .returned (.ok true) → r.isUnreadable = false) :
      c.Settles r w close w' ([] ++ calls) :=
    .passes htreats.bus_eq (htreats.unreadable_eq c.ledger) htreats.delivers hread
  rcases close with (error | disposition) | _ | _
  · by_cases hread : ∃ message, error = .deserialization message
    · obtain ⟨message, rfl⟩ := hread
      exact runsAs_report htreats
    · have hjob (b : Bool) : (if b then throw error else pure false : Job Bool).run.RunsAs w'
          fun close w'' more => c.Settles r w close w'' (more ++ calls) := by
        cases b with
        | true => exact Prog.runsAs_done (hpasses nofun)
        | false => exact Prog.runsAs_done (hpasses nofun)
      cases error with
      | deserialization message => exact absurd ⟨message, rfl⟩ hread
      | _ => exact hjob _
  · have hread : r.isUnreadable = false := Bool.eq_false_iff.mpr fun hr =>
      nomatch htreats.unreadable_iff.mpr (Or.inl hr)
    cases disposition with
    | commit => exact Prog.runsAs_done (hpasses fun _ => hread)
    | defer => exact Prog.runsAs_done (hpasses nofun)
  · exact hpasses nofun
  · exact hpasses nofun

/-- How a batch goes through the records in hand, `n` having been committed before: up to the first
one that is not to be committed. -/
inductive Course (c : Consumer) : List Record → Nat → World →
    Close (Except DeliveryError Nat) → World → List Answered → Prop
  | done {n w} : Course c [] n w (.returned (.ok n)) w []
  | commits {r rest n w w' w'' close calls more}
      (h : c.Settles r w (.returned (.ok true)) w' calls)
      (hrest : Course c rest (n + 1) { w' with bus := w'.bus.commit c.subscription r.offset }
        close w'' more) :
      Course c (r :: rest) n w close w''
        (more ++ ⟨.commit c.subscription r.offset, .ok ()⟩ :: calls)
  | stops {r rest n w close w' calls} (h : c.Settles r w close w' calls)
      (hclose : close ≠ .returned (.ok true)) :
      Course c (r :: rest) n w (close.map (.map fun _ => n)) w' calls

theorem Delivers.runsAs_settleAll (h : c.Delivers) (rs : List Record) (n : Nat) (w : World) :
    (c.settleAll rs n).run.RunsAs w (c.Course rs n w) := by
  induction rs generalizing n w with
  | nil => exact Prog.runsAs_done .done
  | cons r rest ih =>
      intro history
      obtain ⟨close, w', calls, hsettle, hsettles⟩ := h.runsAs_settle r w history
      rw [perform_settleAll_cons, hsettle]
      rcases close with (error | _ | _) | _ | _
      · exact ⟨_, _, _, rfl, .stops hsettles nofun⟩
      · exact ⟨_, _, _, rfl, .stops hsettles nofun⟩
      · obtain ⟨close, w'', more, hperform, hcourse⟩ := ih (n + 1)
          { w' with bus := w'.bus.commit c.subscription r.offset }
          (⟨.commit c.subscription r.offset, .ok ()⟩ :: (calls ++ history))
        refine ⟨close, w'', _, ?_, .commits hsettles hcourse⟩
        rw [List.append_assoc]
        exact hperform
      · exact ⟨_, _, _, rfl, .stops hsettles nofun⟩
      · exact ⟨_, _, _, rfl, .stops hsettles nofun⟩

/-- A batch goes through what is polled at its start. -/
theorem Delivers.runsAs_batch (h : c.Delivers) (w : World) :
    c.batch.run.RunsAs w fun close w' calls => ∃ more,
      c.Course (w.bus.poll c.subscription c.batchSize) 0 w close w' more ∧
        calls = more ++ [⟨.poll c.subscription c.batchSize,
          .ok (w.bus.poll c.subscription c.batchSize)⟩] :=
  Prog.runsAs_ask rfl <| Prog.runsAs_mono (h.runsAs_settleAll _ 0 w) fun _ _ _ hcourse =>
    ⟨_, hcourse, rfl⟩

end Consumer
end Courier
