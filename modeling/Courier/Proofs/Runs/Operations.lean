import Courier.Proofs.Runs.Protocol

/-!
The operations of the pipeline, and that each keeps to the protocol from the stand it starts at,
whatever its calls are answered.
-/

namespace Courier

open Job

/-! ## Delivery -/

namespace Registry

/-- The only reason for not finding a channel is that there is none. -/
theorem find_error {r : Registry} {medium : Medium} {error : DeliveryError}
    (h : r.find medium = .error error) : error = .noChannel medium := by
  unfold find at h
  split at h
  · exact absurd h nofun
  · exact (Except.error.inj h).symm

end Registry

namespace Backoff

/-- Another attempt is only scheduled below a limit of 32 bits. -/
theorem lt_of_retry {b : Backoff} {medium : Medium} {count : UInt32}
    {now next : Instant} {jitter : Duration}
    (h : b.decide medium count now jitter = .ok (.retry next)) : count.toNat < 0xffff_ffff := by
  unfold decide at h
  by_cases hmax : (b.policyFor medium).maxAttempts ≤ count
  · rw [if_pos hmax] at h
    exact absurd (Except.ok.inj h) nofun
  · have hlt := (b.policyFor medium).maxAttempts.toNat_lt
    rw [UInt32.le_iff_toNat_le] at hmax
    omega

end Backoff

/-- How a delivery ends that fails: a notification that cannot be read is still to be reported. -/
def Origin.FailsAt (origin : Origin) (error : DeliveryError) (s : Stand) : Prop :=
  match error with
  | .deserialization _ => s = origin.unreadable
  | _ => s.Rests

private theorem fails_over (origin : Origin) (error : StoreError) :
    origin.FailsAt (.ofStore error) .over := nofun

namespace Delivery

variable (d : Delivery) (origin : Origin) (n : Notification)

theorem leads_recordSent :
    (d.recordSent n).Leads (.delivered origin n) (fun _ s => s = origin.settled)
      origin.FailsAt := by
  refine leads_passing trivial fun now => ?_
  refine leads_bind (R := fun _ s => s = origin.settled) (leads_store ?_) ?_
  · intro result
    cases result with
    | ok _ => exact ⟨_, .records, rfl⟩
    | error error => exact ⟨_, .fails ⟨error, rfl⟩ nofun, fails_over origin error⟩
  · rintro _ _ rfl
    exact leads_passing trivial fun _ => leads_pure rfl

theorem leads_recordFailure (error : DeliveryError) :
    (d.recordFailure n error).Leads (.rejected origin n) (fun _ s => s = origin.settled)
      origin.FailsAt := by
  refine leads_passing trivial fun now => ?_
  refine leads_passing trivial fun jitter => ?_
  refine leads_bind (R := fun decision s => s = .rejected origin n ∧
    d.backoff.decide n.medium (countUp n.retryCount) now jitter = .ok decision)
    (leads_orCrash nofun fun decision h => ⟨rfl, h⟩) ?_
  rintro decision _ ⟨rfl, hdecision⟩
  cases decision with
  | retry next =>
      have hcount := Backoff.lt_of_retry hdecision
      refine leads_bind (R := fun _ s => s = origin.settled) (leads_store ?_) ?_
      · intro result
        cases result with
        | ok _ => exact ⟨_, .reschedules hcount, rfl⟩
        | error error => exact ⟨_, .fails ⟨error, rfl⟩ nofun, fails_over origin error⟩
      · rintro _ _ rfl
        exact leads_passing trivial fun _ => leads_pure rfl
  | giveUp reason =>
      refine leads_bind (R := fun _ s => s = origin.settled) (leads_store ?_) ?_
      · intro result
        cases result with
        | ok _ => exact ⟨_, .buries, rfl⟩
        | error error => exact ⟨_, .fails ⟨error, rfl⟩ nofun, fails_over origin error⟩
      · rintro _ _ rfl
        exact leads_passing trivial fun _ => leads_pure rfl

theorem leads_attempt :
    (d.attempt n).Leads (.attempting origin n) (fun _ s => s = origin.settled)
      origin.FailsAt := by
  refine leads_bind (R := fun _ s => s = .attempting origin n) ?_ ?_
  · change Job.ends _ _ (d.registry.find n.medium) _
    cases hfind : d.registry.find n.medium with
    | ok place => rfl
    | error error =>
        rw [Registry.find_error hfind]
        exact nofun
  rintro ⟨place, name⟩ _ rfl
  refine leads_passing trivial fun _ => ?_
  refine leads_bind (R := ends (fun _ s => s = .delivered origin n) fun error s =>
    if error.isDeliveryFailure then s = .rejected origin n else origin.FailsAt error s)
    (leads_outcome ?_) ?_
  · intro result
    cases result with
    | ok _ => exact ⟨_, .delivers, rfl⟩
    | error error =>
        by_cases hfailure : error.isDeliveryFailure = true
        · refine ⟨_, .rejects hfailure, ?_⟩
          change if error.isDeliveryFailure then _ else _
          rw [if_pos hfailure]
        · have hother : ∃ s', Moves (.attempting origin n) (.send place n) (.error error) s' ∧
              origin.FailsAt error s' := by
            cases error with
            | deserialization message => exact ⟨_, .garbles, rfl⟩
            | _ => exact ⟨_, .fails ⟨_, rfl⟩ nofun, nofun⟩
          obtain ⟨s', hmove, hfails⟩ := hother
          refine ⟨s', hmove, ?_⟩
          change if error.isDeliveryFailure then _ else _
          rw [if_neg hfailure]
          exact hfails
  · intro result s hresult
    cases result with
    | ok _ =>
        obtain rfl : s = .delivered origin n := hresult
        exact d.leads_recordSent origin n
    | error error =>
        change if error.isDeliveryFailure then _ else _ at hresult
        by_cases hfailure : error.isDeliveryFailure = true
        · rw [if_pos hfailure] at hresult
          subst hresult
          simp only [if_pos hfailure]
          exact d.leads_recordFailure origin n error
        · rw [if_neg hfailure] at hresult
          simp only [if_neg hfailure]
          exact leads_throw hresult

theorem leads_deliver :
    (d.deliver n).Leads (.handling origin n) (fun _ s => s = origin.settled)
      origin.FailsAt := by
  refine leads_bind (R := fun found s => found.elim (s = .attempting origin n) fun stored =>
    s = if stored.status = .sent ∨ n.retryCount < stored.retryCount then origin.settled
      else .attempting origin stored) (leads_store ?_) ?_
  · intro result
    rcases result with error | stored
    · exact ⟨_, .fails ⟨error, rfl⟩ nofun, fails_over origin error⟩
    · cases stored with
      | none => exact ⟨_, .trusts, rfl⟩
      | some stored =>
          by_cases hskip : stored.status = .sent ∨ n.retryCount < stored.retryCount
          · exact ⟨_, .skips hskip, (if_pos hskip).symm⟩
          · exact ⟨_, .begins hskip, (if_neg hskip).symm⟩
  · intro found s hfound
    cases found with
    | none =>
        obtain rfl : s = .attempting origin n := hfound
        exact d.leads_attempt origin n
    | some stored =>
        dsimp only at hfound ⊢
        subst hfound
        split
        · exact leads_pure rfl
        · exact d.leads_attempt origin stored

/-- A message whose time has not come stays in hand. -/
theorem leads_retry :
    (d.retry n).Leads (.handling origin n)
      (fun handled s => s = if handled then origin.settled else .handling origin n)
      origin.FailsAt := by
  refine leads_passing trivial fun now => ?_
  split
  · exact leads_pure rfl
  · refine leads_bind (R := fun _ s => s = origin.settled) (d.leads_deliver origin n) ?_
    rintro _ _ rfl
    exact leads_pure rfl

end Delivery

/-! ## Batches -/

namespace Handler

/-- A record that cannot be read is left for a report. -/
private theorem leads_envelope (topic : Topic) (r : Record) (rest : List Record)
    (htopic : topic ≠ .deadLetter) :
    (envelope r).Leads (.facing topic (r :: rest))
      (fun e s => s = .handling (.record topic r rest) e.notification)
      (Origin.record topic r rest).FailsAt := by
  change Job.ends _ _ ((Envelope.decode r.payload).mapError _) _
  cases hdecode : Envelope.decode r.payload with
  | ok e =>
      have hsnapshot : r.snapshot = some e.notification := by
        rw [Record.snapshot, hdecode]
        rfl
      change Stand.facing topic (r :: rest) = .handling (.record topic r rest) e.notification
      cases topic with
      | deadLetter => exact absurd rfl htopic
      | _ => simp only [Stand.facing, hsnapshot]
  | error error =>
      have hsnapshot : r.snapshot = none := by
        rw [Record.snapshot, hdecode]
        rfl
      change Stand.facing topic (r :: rest) = .unreadable topic r rest
      cases topic with
      | deadLetter => exact absurd rfl htopic
      | _ => simp only [Stand.facing, hsnapshot]

end Handler

namespace Pipeline

variable (p : Pipeline) (ledger : Ledger) (topic : Topic) (r : Record) (rest : List Record)

/-- What the handler of a topic makes of the record in hand. -/
theorem leads_handle :
    ((p.handler topic).handle r).Leads (.facing topic (r :: rest))
      (fun disposition s => match disposition with
        | .commit => s = .settled topic r rest
        | .defer => s.Rests)
      (Origin.record topic r rest).FailsAt := by
  cases topic with
  | send =>
      refine leads_bind (Handler.leads_envelope .send r rest nofun) ?_
      rintro e _ rfl
      apply leads_bind (p.delivery.leads_deliver _ e.notification)
      rintro _ _ rfl
      exact leads_pure rfl
  | retry =>
      refine leads_bind (Handler.leads_envelope .retry r rest nofun) ?_
      rintro e _ rfl
      apply leads_bind (p.delivery.leads_retry _ e.notification)
      rintro handled _ rfl
      cases handled with
      | true => exact leads_pure rfl
      | false => exact leads_pure nofun
  | deadLetter =>
      refine leads_passing trivial fun _ => ?_
      exact leads_pure rfl

theorem leads_report :
    ((p.consumer ledger topic).report r).Leads (.unreadable topic r rest)
      (fun _ s => s = .settled topic r rest) (fun _ s => s.Rests) := by
  refine leads_passing trivial fun now => ?_
  refine leads_bind (R := fun _ s => s = .unreadable topic r rest)
    (leads_call fun id => ⟨_, .numbers, rfl⟩) ?_
  rintro id _ rfl
  refine leads_bind (R := fun _ s => s = .settled topic r rest) ?_ ?_
  · intro result
    cases result with
    | ok _ => exact ⟨_, .reports, rfl⟩
    | error error => exact ⟨_, .fails ⟨error, rfl⟩ nofun, nofun⟩
  · rintro _ _ rfl
    exact leads_call fun _ => ⟨_, .passes trivial, rfl⟩

theorem leads_settle :
    ((p.consumer ledger topic).settle r).Leads (.facing topic (r :: rest))
      (fun committed s => if committed then s = .settled topic r rest else s.Rests)
      (fun _ s => s.Rests) := by
  refine leads_bind (leads_outcome (Q := fun result s => match result with
    | .ok .commit => s = .settled topic r rest
    | .ok .defer => s.Rests
    | .error error => (Origin.record topic r rest).FailsAt error s) ?_) ?_
  · refine Prog.leads_mono (p.leads_handle topic r rest) fun result s hresult => ?_
    rcases result with error | (_ | _)
    all_goals exact hresult
  · intro result s hresult
    rcases result with error | (_ | _)
    · by_cases hread : ∃ message, error = .deserialization message
      · obtain ⟨message, rfl⟩ := hread
        obtain rfl : s = .unreadable topic r rest := hresult
        apply leads_bind (p.leads_report ledger topic r rest)
        rintro _ _ rfl
        exact leads_pure rfl
      · have hrests : s.Rests := by
          cases error with
          | deserialization message => exact absurd ⟨message, rfl⟩ hread
          | _ => exact hresult
        have hjob : ∀ b : Bool, (if b then throw error else pure false : Job Bool).Leads s
            (fun committed s => if committed then s = .settled topic r rest else s.Rests)
            (fun _ s => s.Rests) := by
          intro b
          cases b with
          | true => exact leads_throw hrests
          | false => exact leads_pure hrests
        cases error with
        | deserialization message => exact absurd ⟨message, rfl⟩ hread
        | _ => exact hjob _
    · exact leads_pure hresult
    · exact leads_pure hresult

theorem leads_settleAll (rs : List Record) (committed : Nat) :
    ((p.consumer ledger topic).settleAll rs committed).Leads (.facing topic rs)
      (fun _ s => s.Rests) (fun _ s => s.Rests) := by
  induction rs generalizing committed with
  | nil => exact leads_pure nofun
  | cons r rest ih =>
      apply leads_bind (p.leads_settle ledger topic r rest)
      intro settled s hsettled
      cases settled with
      | false => exact leads_pure hsettled
      | true =>
          obtain rfl : s = .settled topic r rest := hsettled
          refine leads_bind (R := fun _ s => s = .facing topic rest) ?_ ?_
          · intro result
            cases result with
            | ok _ => exact ⟨_, .commits, rfl⟩
            | error error => exact ⟨_, .fails ⟨error, rfl⟩ nofun, nofun⟩
          · rintro _ _ rfl
            exact ih (committed + 1)

theorem leads_batch :
    (p.consumer ledger topic).batch.Leads (.polling topic)
      (fun _ s => s.Rests) (fun _ s => s.Rests) := by
  refine leads_bind (R := fun rs s => s = .facing topic rs) ?_ ?_
  · intro result
    cases result with
    | ok rs => exact ⟨_, .polls, rfl⟩
    | error error => exact ⟨_, .fails ⟨error, rfl⟩ nofun, nofun⟩
  · rintro rs _ rfl
    exact p.leads_settleAll ledger topic rs 0

end Pipeline

/-! ## Outbox -/

namespace Publication

variable (p : Publication)

/-- An event that is published is marked at once. -/
theorem leads_publishEvent (now : Instant) (e : OutboxEvent) (due : List OutboxEvent) :
    (p.publishEvent now e).Leads (.publishing (e :: due))
      (fun _ s => s = .publishing due) (fun _ s => s.Rests) := by
  refine leads_bind (R := fun found s => found.elim (s = .over) fun n => s = .lookedUp e n due)
    (leads_store ?_) ?_
  · intro result
    rcases result with error | (_ | n)
    · exact ⟨_, .fails ⟨error, rfl⟩ nofun, nofun⟩
    · exact ⟨_, .misses, rfl⟩
    · exact ⟨_, .looksUp, rfl⟩
  · intro found s hfound
    cases found with
    | none =>
        obtain rfl : s = .over := hfound
        exact leads_throw nofun
    | some n =>
        obtain rfl : s = .lookedUp e n due := hfound
        refine leads_bind (R := ends (fun _ s => s = .announced e due) fun _ s => s = .putOff e due)
          (leads_outcome ?_) ?_
        · refine leads_passing trivial fun later => ?_
          intro result
          cases result with
          | ok _ => exact ⟨_, .announces, rfl⟩
          | error error => exact ⟨_, .misfires, rfl⟩
        · intro result s hresult
          cases result with
          | ok _ =>
              obtain rfl : s = .announced e due := hresult
              refine leads_bind (R := fun _ s => s = .publishing due) (leads_store ?_) ?_
              · intro marked
                cases marked with
                | ok _ => exact ⟨_, .marks, rfl⟩
                | error error => exact ⟨_, .forgets, nofun⟩
              · rintro _ _ rfl
                exact leads_call fun _ => ⟨_, .passes trivial, rfl⟩
          | error error =>
              obtain rfl : s = .putOff e due := hresult
              refine leads_bind (R := fun _ s => s = .putOff e due)
                (leads_orCrash nofun fun _ _ => rfl) ?_
              rintro next _ rfl
              refine leads_bind (R := fun _ s => s = .publishing due) (leads_store ?_) ?_
              · intro marked
                cases marked with
                | ok _ => exact ⟨_, .postpones, rfl⟩
                | error error => exact ⟨_, .fails ⟨error, rfl⟩ nofun, nofun⟩
              · rintro _ _ rfl
                exact leads_call fun _ => ⟨_, .passes trivial, rfl⟩

theorem leads_publishDue (limit : Nat) :
    (p.publishDue limit).Leads .fetching (fun _ s => s.Rests) (fun _ s => s.Rests) := by
  have hevents (now : Instant) (due : List OutboxEvent) :
      (due.forM (p.publishEvent now)).Leads (.publishing due)
        (fun _ s => s = .publishing []) (fun _ s => s.Rests) := by
    induction due with
    | nil => exact leads_pure rfl
    | cons e due ih =>
        apply leads_bind (p.leads_publishEvent now e due)
        rintro _ _ rfl
        exact ih
  refine leads_passing trivial fun now => ?_
  refine leads_bind (R := fun due s => s = .publishing due) (leads_store ?_) ?_
  · intro result
    cases result with
    | ok due => exact ⟨_, .fetches, rfl⟩
    | error error => exact ⟨_, .fails ⟨error, rfl⟩ nofun, nofun⟩
  · rintro due _ rfl
    apply leads_bind (hevents now due)
    rintro _ _ rfl
    exact leads_pure nofun

end Publication

/-! ## Intake -/

namespace Intake

private theorem leads_countAgainst (keys : List String) :
    (countAgainst keys).Leads .fresh (fun _ s => s = .fresh) (fun _ s => s.Rests) := by
  induction keys with
  | nil => exact leads_pure rfl
  | cons key keys ih =>
      refine leads_passing trivial fun admitted => ?_
      cases admitted with
      | true => exact ih
      | false => exact leads_throw nofun

theorem leads_accept (request : Request) :
    (accept request).Leads .fresh (fun _ s => s.Rests) (fun _ s => s.Rests) := by
  refine leads_bind (R := fun _ s => s = .fresh) (leads_store ?_) ?_
  · intro result
    cases result with
    | ok found => exact ⟨_, .passes trivial, rfl⟩
    | error error => exact ⟨_, .passes trivial, nofun⟩
  · rintro found _ rfl
    cases found with
    | some existing => exact leads_pure nofun
    | none =>
        apply leads_bind (leads_countAgainst _)
        rintro _ _ rfl
        refine leads_bind (R := fun id s => s = .drew id) (leads_call fun id =>
          ⟨_, .draws, rfl⟩) ?_
        rintro id _ rfl
        refine leads_passing trivial fun now => ?_
        refine leads_bind (R := fun _ s => s = .over) (leads_store ?_) ?_
        · intro result
          cases result with
          | ok e =>
              exact ⟨_, .promises (n := Notification.ofRequest request id now) rfl rfl, rfl⟩
          | error error => exact ⟨_, .fails ⟨error, rfl⟩ nofun, nofun⟩
        · rintro _ _ rfl
          exact leads_pure nofun

theorem leads_submit (request : Request) :
    (submit request).Leads .fresh (fun _ s => s.Rests) (fun _ s => s.Rests) := by
  refine leads_passing trivial fun _ => ?_
  refine leads_bind (R := fun _ s => s.Rests) (leads_outcome (leads_accept request)) ?_
  intro result s hrests
  refine leads_passing trivial fun _ => ?_
  cases result with
  | ok n => exact leads_pure hrests
  | error error => exact leads_throw hrests

end Intake

/-! ## Dead letters and retention -/

namespace Reprocessing

theorem leads_republish (ns : List Notification) :
    (republish ns).Leads (.republishing ns) (fun _ s => s.Rests) (fun _ s => s.Rests) := by
  induction ns with
  | nil => exact leads_pure nofun
  | cons n ns ih =>
      refine leads_bind (R := fun _ s => s = .republishing ns) ?_ ?_
      · refine leads_passing trivial fun now => ?_
        intro result
        cases result with
        | ok _ => exact ⟨_, .republishes, rfl⟩
        | error error => exact ⟨_, .fails ⟨error, rfl⟩ nofun, nofun⟩
      · rintro _ _ rfl
        apply leads_bind ih
        intro _ s hrests
        exact leads_pure hrests

theorem leads_execute (limit : Nat) :
    (execute limit).Leads .listing (fun _ s => s.Rests) (fun _ s => s.Rests) := by
  refine leads_bind (R := fun ns s => s = .republishing ns) (leads_store ?_) ?_
  · intro result
    cases result with
    | ok ns => exact ⟨_, .lists, rfl⟩
    | error error => exact ⟨_, .fails ⟨error, rfl⟩ nofun, nofun⟩
  · rintro ns _ rfl
    exact leads_republish ns

end Reprocessing

namespace Retention

private theorem leads_pruneTopics (cutoff : Instant) (topics : List String) :
    (pruneTopics cutoff topics).Leads .sweeping (fun _ s => s = .sweeping)
      (fun _ s => s.Rests) := by
  induction topics with
  | nil => exact leads_pure rfl
  | cons topic topics ih =>
      refine leads_bind (R := fun _ s => s = .sweeping) ?_ ?_
      · intro result
        cases result with
        | ok dropped => exact ⟨_, .prunes, rfl⟩
        | error error => exact ⟨_, .fails ⟨error, rfl⟩ nofun, nofun⟩
      · rintro dropped _ rfl
        apply leads_bind ih
        rintro _ _ rfl
        exact leads_pure rfl

theorem leads_sweep (r : Retention) :
    r.sweep.Leads .sweeping (fun _ s => s.Rests) (fun _ s => s.Rests) := by
  unfold sweep
  split
  · exact leads_throw nofun
  · refine leads_passing trivial fun now => ?_
    refine leads_bind (R := fun _ s => s = .sweeping) (leads_orCrash nofun fun _ _ => rfl) ?_
    rintro cutoff _ rfl
    refine leads_bind (R := fun _ s => s = .sweeping) (leads_store ?_) ?_
    · intro result
      cases result with
      | ok count => exact ⟨_, .deletes, rfl⟩
      | error error => exact ⟨_, .fails ⟨error, rfl⟩ nofun, nofun⟩
    · rintro count _ rfl
      apply leads_bind (leads_pruneTopics cutoff r.topics)
      rintro _ _ rfl
      refine leads_passing trivial fun _ => ?_
      exact leads_pure nofun

end Retention

/-! ## Operations -/

/-- What the pipeline does, one call of which is one program. -/
inductive Operation where
  | submit (request : Request)
  | publishDue (p : Publication) (limit : Nat)
  | batch (p : Pipeline) (ledger : Ledger) (topic : Topic)
  | reprocess (limit : Nat)
  | sweep (r : Retention)
  | deliver (d : Delivery) (n : Notification)

namespace Operation

/-- The program of an operation. What it returns does not matter here. -/
def program : Operation → Prog Unit
  | .submit request => (Intake.submit request).run.bind fun _ => .done ()
  | .publishDue p limit => (p.publishDue limit).run.bind fun _ => .done ()
  | .batch p ledger topic => (p.consumer ledger topic).batch.run.bind fun _ => .done ()
  | .reprocess limit => (Reprocessing.execute limit).run.bind fun _ => .done ()
  | .sweep r => r.sweep.run.bind fun _ => .done ()
  | .deliver d n => (d.deliver n).run.bind fun _ => .done ()

/-- Where an operation stands when it starts. -/
def start : Operation → Stand
  | .submit _ => .fresh
  | .publishDue _ _ => .fetching
  | .batch _ _ topic => .polling topic
  | .reprocess _ => .listing
  | .sweep _ => .sweeping
  | .deliver _ n => .handling .request n

/-- Every operation keeps to the protocol and ends with nothing published that is not marked. -/
theorem leads_program (op : Operation) : op.program.Leads op.start fun _ s => s.Rests := by
  have hdiscard {α : Type} {job : Job α} {s : Stand}
      (h : job.Leads s (fun _ s => s.Rests) (fun _ s => s.Rests)) :
      (job.run.bind fun _ => .done ()).Leads s fun (_ : Unit) s => s.Rests := by
    refine Prog.leads_bind h fun result s hrests => ?_
    cases result with
    | ok a => exact hrests
    | error error => exact hrests
  cases op with
  | submit request => exact hdiscard (Intake.leads_submit request)
  | publishDue p limit => exact hdiscard (p.leads_publishDue limit)
  | batch p ledger topic => exact hdiscard (p.leads_batch ledger topic)
  | reprocess limit => exact hdiscard (Reprocessing.leads_execute limit)
  | sweep r => exact hdiscard r.leads_sweep
  | deliver d n =>
      refine hdiscard (Prog.leads_mono (d.leads_deliver .request n) fun result s hresult => ?_)
      cases result with
      | ok outcome =>
          obtain rfl : s = .over := hresult
          exact nofun
      | error error =>
          cases error with
          | deserialization message =>
              obtain rfl : s = .over := hresult
              exact nofun
          | _ => exact hresult

end Operation
end Courier
