import Courier.Proofs.Alone.Attempts
import Courier.Proofs.Registry

/-!
A delivery is one transition of one row. What the row becomes is read off the row, the result of
its channel and the decision of the policy; a write that fails changes no table, and all else stays
as it was. Of the message that asked for the delivery only the id and the count of failures matter.
-/

namespace Courier

/-! ## Rows of the store -/

namespace Store

variable {s : Store} {n row : Notification} {rows : List Notification}

/-- The store with a row in the place of the one with its id, and with more events. -/
def amend (s : Store) (row : Notification) (events : List OutboxEvent) : Store :=
  { s with
    notifications := s.notifications.map fun n => if n.id = row.id then row else n
    outbox := s.outbox ++ events }

theorem putInto_eq_map (hnodup : (rows.map (·.id)).Nodup) (hn : n ∈ rows) (hid : row.id = n.id) :
    putInto row rows = rows.map fun m => if m.id = row.id then row else m := by
  induction rows with
  | nil => exact absurd hn List.not_mem_nil
  | cons first rows ih =>
      obtain ⟨hfresh, hnodup⟩ := List.nodup_cons.mp hnodup
      rw [putInto, List.map_cons]
      by_cases hfirst : first.id = row.id
      · have hrest : rows.map (fun m => if m.id = row.id then row else m) = rows.map id := by
          refine List.map_congr_left fun m hm => if_neg fun hsame => hfresh ?_
          exact List.mem_map.mpr ⟨m, hm, hsame.trans hfirst.symm⟩
        rw [if_pos hfirst, if_pos hfirst, hrest, List.map_id]
      · have hn : n ∈ rows := (List.mem_cons.mp hn).resolve_left fun heq => hfirst (heq ▸ hid.symm)
        rw [if_neg hfirst, if_neg hfirst, ih hnodup hn]

/-- What a write of a row returns that comes with this outcome, and the store that it leaves. -/
def conclude (s : Store) (outcome : DeliveryOutcome) (row : Notification)
    (events : List OutboxEvent) : Except DeliveryError DeliveryOutcome × Store :=
  match s.saveError with
  | some text => (.error (.ofStore (.database text)), { s with saveError := none })
  | none => (.ok outcome, s.amend row events)

end Store

/-- What the result of a channel makes of a notification: the outcome, the row after it, and the
topic that an event promises it to. An error that is no failed attempt makes nothing of it. -/
def Notification.verdict (n : Notification) (now : Instant) (decision : RetryDecision) :
    Except DeliveryError Unit → Except DeliveryError (DeliveryOutcome × Notification × Option Topic)
  | .ok _ => .ok (.sent, n.sent now, none)
  | .error error =>
    if error.isDeliveryFailure then
      match decision with
      | .retry next =>
        .ok (.retryScheduled next, n.retryScheduled error.failure next now, some .retry)
      | .giveUp _ => .ok (.deadLettered, n.deadLettered error.failure now, some .deadLetter)
    else .error error

namespace Notification

variable {n : Notification} {now : Instant} {decision : RetryDecision} {error : DeliveryError}

theorem verdict_of_failure (hfailure : error.isDeliveryFailure = true) :
    n.verdict now decision (.error error) = match decision with
      | .retry next =>
        .ok (.retryScheduled next, n.retryScheduled error.failure next now, some .retry)
      | .giveUp _ => .ok (.deadLettered, n.deadLettered error.failure now, some .deadLetter) :=
  if_pos hfailure

theorem verdict_of_other (hother : error.isDeliveryFailure = false) :
    n.verdict now decision (.error error) = .error error :=
  if_neg (Bool.eq_false_iff.mp hother)

end Notification

/-- What an attempt returns whose channel gives this result, and the store that it leaves. -/
def Store.transition (s : Store) (n : Notification) (now : Instant) (eventId : Uuid)
    (decision : RetryDecision) (result : Except DeliveryError Unit) :
    Except DeliveryError DeliveryOutcome × Store :=
  match n.verdict now decision result with
  | .error error => (.error error, s)
  | .ok (outcome, row, topic) =>
    s.conclude outcome row (topic.toList.map fun t => .pending eventId n.id t.name now)

/-- The first channel that supports a medium stands at this place. -/
def World.FirstFor (w : World) (medium : Medium) (place : Nat) : Prop :=
  (∃ c, w.channels[place]? = some c ∧ c.supports medium = true) ∧
    ∀ earlier < place, ∀ c, w.channels[earlier]? = some c → c.supports medium = false

/-- Which channel is called, and for what. -/
def Answered.addressed? : Answered → Option (Nat × Notification)
  | ⟨.send place n, _⟩ => some (place, n)
  | _ => none

/-- The calls of channels that were answered, the latest first. -/
def Account.addressed (s : Account) : List (Nat × Notification) :=
  s.history.filterMap Answered.addressed?

/-! ## Writes -/

section Writes

variable {d : Delivery} {n row : Notification} {w : World}

/-- Row and store fit each other: no two rows share an id or a key, and the notification is one of
them. -/
structure Store.Keeps (s : Store) (n : Notification) : Prop where
  ids : (s.notifications.map (·.id)).Nodup
  keys : (s.notifications.map (·.idempotencyKey)).Nodup
  mem : n ∈ s.notifications

theorem Store.Keeps.save_eq {s : Store} (h : s.Keeps n) (hid : row.id = n.id)
    (hkey : row.idempotencyKey = n.idempotencyKey) :
    s.save row = match s.saveError with
      | some text => (.error (.database text), { s with saveError := none })
      | none => (.ok (), s.amend row []) := by
  have hfree : s.keyTaken row = false := keyTaken_eq_false h.keys h.mem hid hkey
  cases herror : s.saveError with
  | some text => rw [save, guarded_of_some .write herror]; rfl
  | none =>
      rw [save, guarded_of_none .write herror]
      rw [hfree, put, putInto_eq_map h.ids h.mem hid, amend, List.append_nil]
      rfl

theorem Store.Keeps.saveWithOutbox_eq {s : Store} (h : s.Keeps n) (hid : row.id = n.id)
    (hkey : row.idempotencyKey = n.idempotencyKey) (topic : String) (eventId : Uuid)
    (now : Instant) :
    s.saveWithOutbox row topic eventId now = match s.saveError with
      | some text => (.error (.database text), { s with saveError := none })
      | none => (.ok (.pending eventId n.id topic now),
          s.amend row [.pending eventId n.id topic now]) := by
  cases herror : s.saveError with
  | some text => rw [saveWithOutbox, guarded_of_some .write herror]; rfl
  | none =>
      have hfree : s.keyTaken row = false := keyTaken_eq_false h.keys h.mem hid hkey
      rw [saveWithOutbox_of_not_keyTaken herror hfree, put, putInto_eq_map h.ids h.mem hid, ← hid]
      rfl

/-- A program returns what it should and leaves the store so, and it calls no channel. -/
def Concludes (p : Prog (Except DeliveryError DeliveryOutcome)) (w : World)
    (r : Except DeliveryError DeliveryOutcome × Store) : Prop :=
  p.RunsAs w fun close w' calls =>
    close = .returned r.1 ∧ w'.store = r.2 ∧ calls.filterMap Answered.addressed? = []

theorem concludes_done {result : Except DeliveryError DeliveryOutcome} {s : Store}
    (hstore : w.store = s) : Concludes (.done result) w (result, s) :=
  Prog.runsAs_done ⟨rfl, hstore, rfl⟩

/-- A call that is not one of a channel comes first. -/
theorem Concludes.ask {c : Call} {a : c.Answer} {w' : World}
    {next : c.Answer → Prog (Except DeliveryError DeliveryOutcome)}
    {r : Except DeliveryError DeliveryOutcome × Store} (hanswer : w.answer c = (.done a, w'))
    (hquiet : (Answered.mk c a).addressed? = none) (h : Concludes (next a) w' r) :
    Concludes (.ask c next) w r := by
  refine Prog.runsAs_ask hanswer (Prog.runsAs_mono h fun close w'' calls hconcludes => ?_)
  refine ⟨hconcludes.1, hconcludes.2.1, ?_⟩
  rw [List.filterMap_append, hconcludes.2.2, List.filterMap_cons_none hquiet]
  rfl

/-- A write with an event, and the count of it. -/
theorem concludes_promise (d : Delivery) (row : Notification) (h : w.store.Keeps n)
    (hid : row.id = n.id) (hkey : row.idempotencyKey = n.idempotencyKey) (topic : Topic)
    (what : Tally) (outcome : DeliveryOutcome) :
    Concludes (do
        let _ ← Job.store (.call (.saveWithOutbox row topic.name))
        Job.call (.tally d.ledger what)
        return outcome : Job DeliveryOutcome).run w
      (w.store.conclude outcome row [.pending w.takeId.1 n.id topic.name w.now]) := by
  have hsave := h.saveWithOutbox_eq hid hkey topic.name w.takeId.1 w.now
  have hanswer : w.answer (.saveWithOutbox row topic.name) =
      (.done (w.store.saveWithOutbox row topic.name w.takeId.1 w.now).1,
        { w.takeId.2 with
          store := (w.store.saveWithOutbox row topic.name w.takeId.1 w.now).2 }) := rfl
  rw [Store.conclude]
  cases herror : w.store.saveError with
  | some text =>
      rw [hsave, herror] at hanswer
      exact .ask hanswer rfl (concludes_done rfl)
  | none =>
      rw [hsave, herror] at hanswer
      exact .ask hanswer rfl (.ask rfl rfl (concludes_done (World.store_count _ _ _)))

theorem concludes_recordSent (h : w.store.Keeps n) (decision : RetryDecision) (eventId : Uuid) :
    Concludes (d.recordSent n).run w (w.store.transition n w.now eventId decision (.ok ())) := by
  have hsave : w.store.save (n.sent w.now) = _ := h.save_eq rfl rfl
  have hanswer : w.answer (.save (n.sent w.now)) =
      (.done (w.store.save (n.sent w.now)).1,
        { w with store := (w.store.save (n.sent w.now)).2 }) := rfl
  change Concludes _ _ (w.store.conclude .sent (n.sent w.now) [])
  rw [Store.conclude]
  refine .ask rfl rfl ?_
  cases herror : w.store.saveError with
  | some text =>
      rw [hsave, herror] at hanswer
      exact .ask hanswer rfl (concludes_done rfl)
  | none =>
      rw [hsave, herror] at hanswer
      exact .ask hanswer rfl (.ask rfl rfl (concludes_done (World.store_count _ _ _)))

theorem concludes_recordFailure {error : DeliveryError} {decision : RetryDecision}
    (h : w.store.Keeps n) (hdecide : d.decision n w = .ok decision)
    (hfailure : error.isDeliveryFailure = true) :
    Concludes (d.recordFailure n error).run w
      (w.store.transition n w.now w.takeId.1 decision (.error error)) := by
  have hdrawn : (Delivery.drawn w).store.Keeps n := h
  rw [Store.transition, Notification.verdict_of_failure hfailure]
  refine .ask rfl rfl (.ask rfl rfl ?_)
  change Concludes (Job.orCrash (d.decision n w) >>= _ : Job DeliveryOutcome).run
    (Delivery.drawn w) _
  rw [hdecide]
  cases decision with
  | retry next =>
      exact concludes_promise d (n.retryScheduled error.failure next w.now) hdrawn rfl rfl .retry
        .retryScheduled (.retryScheduled next)
  | giveUp reason =>
      exact concludes_promise d (n.deadLettered error.failure w.now) hdrawn rfl rfl .deadLetter
        .deadLettered .deadLettered

theorem concludes_error {decision : RetryDecision} (h : w.store.Keeps n)
    (hdecide : d.decision n w = .ok decision) (error : DeliveryError) :
    Concludes (if error.isDeliveryFailure then d.recordFailure n error
        else throw error : Job DeliveryOutcome).run w
      (w.store.transition n w.now w.takeId.1 decision (.error error)) := by
  by_cases hfailure : error.isDeliveryFailure = true
  · rw [if_pos hfailure]
    exact concludes_recordFailure h hdecide hfailure
  · rw [if_neg hfailure, Store.transition,
      Notification.verdict_of_other (eq_false_of_ne_true hfailure)]
    exact concludes_done rfl

end Writes

/-! ## Deliveries -/

namespace Delivery

variable {d : Delivery} {m n : Notification} {w : World} {decision : RetryDecision} {place : Nat}

/-- The channel that is found for a medium is the first one. -/
theorem firstFor_of_find {name : String} (hregistry : d.registry = .ofChannels w.channels)
    (hfind : d.registry.find n.medium = .ok (place, name)) : w.FirstFor n.medium place := by
  obtain ⟨⟨media, hget, htakes⟩, hbefore⟩ := Registry.first_of_find hfind
  rw [hregistry, Registry.ofChannels, List.getElem?_map] at hget
  obtain ⟨c, hc, heq⟩ := Option.map_eq_some_iff.mp hget
  obtain ⟨-, rfl⟩ := Prod.mk.inj heq
  refine ⟨⟨c, hc, htakes⟩, fun earlier hlt c' hc' => hbefore earlier hlt (c'.name, c'.media) ?_⟩
  rw [hregistry, Registry.ofChannels, List.getElem?_map, hc']
  rfl

/-- A delivery looks its row up, and then it depends on the id and the count of the message only. -/
theorem perform_deliver (d : Delivery) (hstored : w.store.find? m.id = some n) :
    (d.deliver m).run.perform (.opened w) =
      (if n.status = .sent ∨ m.retryCount < n.retryCount then pure .skipped
        else d.attempt n : Job DeliveryOutcome).run.perform
          ⟨w, [⟨.findById m.id, .ok (some n)⟩]⟩ := by
  have hanswer : w.answer (.findById m.id) = (.done (.ok (some n)), w) := hstored ▸ rfl
  change Prog.perform (.ask (.findById m.id) _) (.opened w) = _
  rw [Prog.perform]
  dsimp only [Account.opened]
  rw [hanswer]
  rfl

/-- The count of attempts is nothing to a channel. -/
theorem answer_send_count (w : World) (ledger : Ledger) (what : Tally) (place : Nat)
    (n : Notification) :
    ((w.count ledger what).answer (.send place n)).1 = (w.answer (.send place n)).1 := by
  cases ledger with
  | pipeline =>
      have hwith := congrArg Prod.fst <|
        w.sendAndWait_with w.store w.bus (w.pipelineStats.count what) w.loopStats place n
      exact hwith
  | loops =>
      have hwith := congrArg Prod.fst <|
        w.sendAndWait_with w.store w.bus w.pipelineStats (w.loopStats.count what) place n
      exact hwith

/-- A channel leaves alone what an attempt goes by. -/
theorem kept_of_send {o : Outcome (Except DeliveryError Unit)} {w' : World}
    (hanswer : (w.count d.ledger .sendAttempt).answer (.send place n) = (o, w')) :
    w'.store = w.store ∧ w'.now = w.now ∧ w'.takeId.1 = w.takeId.1 ∧ w'.jitter = w.jitter := by
  obtain ⟨channels, journal, millis, heq⟩ :=
    (w.count d.ledger .sendAttempt).sendAndWait_eq place n
  obtain rfl : ((w.count d.ledger .sendAttempt).sendAndWait place n).2 = w' :=
    congrArg Prod.snd hanswer
  rw [heq]
  cases d.ledger <;> exact ⟨rfl, rfl, rfl, rfl⟩

/-- How an attempt goes whose channel stands at a place: the channel is called once, and its result
makes the transition; without a result nothing is returned and nothing written. -/
def Goes (n : Notification) (w : World) (decision : RetryDecision) (place : Nat)
    (close : Close (Except DeliveryError DeliveryOutcome)) (addressed : List (Nat × Notification))
    (store : Store) : Prop :=
  match (w.answer (.send place n)).1 with
  | .done result =>
    addressed = [(place, n)] ∧
      close = .returned (w.store.transition n w.now w.takeId.1 decision result).1 ∧
      store = (w.store.transition n w.now w.takeId.1 decision result).2
  | _ => addressed = [] ∧ close = .unanswered ∧ store = w.store

theorem runsAs_attempt_goes {name : String} (h : w.store.Keeps n)
    (hdecide : d.decision n w = .ok decision)
    (hfind : d.registry.find n.medium = .ok (place, name)) :
    (d.attempt n).run.RunsAs w fun close w' calls =>
      Goes n w decision place close (calls.filterMap Answered.addressed?) w'.store := by
  unfold attempt
  rw [hfind]
  refine Prog.runsAs_ask rfl ?_
  -- the attempt is counted before the channel is called, and neither touches what decides later
  have hresult := answer_send_count w d.ledger .sendAttempt place n
  rcases hanswer : (w.count d.ledger .sendAttempt).answer (.send place n) with ⟨o, w₁⟩
  rw [hanswer] at hresult
  obtain ⟨hstore, hnow, hid, hjitter⟩ := kept_of_send hanswer
  have hdecide : d.decision n w₁ = .ok decision := by
    rw [← hdecide, Delivery.decision, Delivery.decision, hnow, hjitter]
  unfold Goes
  rw [← hresult]
  cases o with
  | done result =>
      refine Prog.runsAs_ask hanswer ?_
      have hgoes {p : Prog (Except DeliveryError DeliveryOutcome)} (hconcludes : Concludes p w₁
          (w₁.store.transition n w₁.now w₁.takeId.1 decision result)) :
          p.RunsAs w₁ fun close w' calls =>
            ((calls ++ [Answered.mk (.send place n) result]) ++
                [Answered.mk (.tally d.ledger .sendAttempt) ()]).filterMap Answered.addressed? =
              [(place, n)] ∧
              close = .returned (w.store.transition n w.now w.takeId.1 decision result).1 ∧
              w'.store = (w.store.transition n w.now w.takeId.1 decision result).2 := by
        rw [hstore, hnow, hid] at hconcludes
        refine Prog.runsAs_mono hconcludes fun close w' calls hconcludes => ?_
        refine ⟨?_, hconcludes.1, hconcludes.2.1⟩
        rw [List.filterMap_append, List.filterMap_append, hconcludes.2.2]
        rfl
      cases result with
      | ok done => exact hgoes (concludes_recordSent (hstore ▸ h) decision _)
      | error error => exact hgoes (concludes_error (hstore ▸ h) hdecide error)
  | crashed text => exact Prog.runsAs_unanswered hanswer nofun ⟨rfl, rfl, hstore⟩
  | stuck => exact Prog.runsAs_unanswered hanswer nofun ⟨rfl, rfl, hstore⟩

/-- A message is delivered whose notification is in the store, where every medium has a channel and
the time of a next attempt can be represented. If the row has gone beyond the message, nothing
happens. Otherwise the first channel for its medium is called once, for the row, and the result
decides the transition, which leaves all other rows as they are. Another message with the same id
and count of failures does just the same. -/
theorem deliver_transition (d : Delivery) (w : World) (m n : Notification)
    (decision : RetryDecision) (hids : (w.store.notifications.map (·.id)).Nodup)
    (hkeys : (w.store.notifications.map (·.idempotencyKey)).Nodup)
    (hstored : w.store.find? m.id = some n) (hregistry : d.registry = .ofChannels w.channels)
    (hcovers : d.registry.coverage = .ok ()) (hdecide : d.decision n w = .ok decision) :
    ∃ close after, (d.deliver m).run.perform (.opened w) = (close, after) ∧
      (n.Outdates m → close = .returned (.ok .skipped) ∧ after.world = w ∧ after.addressed = []) ∧
      (¬ n.Outdates m → ∃ place, w.FirstFor n.medium place ∧
        Goes n w decision place close after.addressed after.world.store) ∧
      ∀ m', m'.id = m.id → m'.retryCount = m.retryCount →
        (d.deliver m').run.perform (.opened w) = (close, after) := by
  have hkeeps : w.store.Keeps n := ⟨hids, hkeys, List.mem_of_find?_eq_some hstored⟩
  have hperform := perform_deliver d hstored
  have hsame : ∀ m', m'.id = m.id → m'.retryCount = m.retryCount →
      (d.deliver m').run.perform (.opened w) = (d.deliver m).run.perform (.opened w) := by
    intro m' hid hcount
    have hstored' : w.store.find? m'.id = some n := hid ▸ hstored
    rw [perform_deliver d hstored', hperform, hid, hcount]
  by_cases houtdates : n.status = .sent ∨ m.retryCount < n.retryCount
  · rw [if_pos houtdates] at hperform
    exact ⟨_, _, hperform, fun _ => ⟨rfl, rfl, rfl⟩, fun hnot => absurd houtdates hnot,
      fun m' hid hcount => (hsame m' hid hcount).trans hperform⟩
  · rw [if_neg houtdates] at hperform
    obtain ⟨place, name, hfind⟩ := Registry.find_of_coverage hcovers n.medium
    obtain ⟨close, w', calls, hattempt, hgoes⟩ :=
      runsAs_attempt_goes hkeeps hdecide hfind [⟨.findById m.id, .ok (some n)⟩]
    rw [hattempt] at hperform
    refine ⟨close, _, hperform, fun h => absurd h houtdates, fun _ => ⟨place, ?_, ?_⟩,
      fun m' hid hcount => (hsame m' hid hcount).trans hperform⟩
    · exact firstFor_of_find hregistry hfind
    · rw [Account.addressed, List.filterMap_append]
      exact (List.append_nil (calls.filterMap Answered.addressed?)).symm ▸ hgoes

/-! ## A failure -/

private def stored : Notification := .ofRequest Sample.request (.ofSerial 0) .epoch

private def bystander : Notification :=
  .ofRequest { Sample.request with idempotencyKey := "other" } (.ofSerial 1) .epoch

/-- Nothing but the id and the count of failures is right. -/
private def forged : Notification :=
  { stored with medium := .webhook, recipient := "nobody", idempotencyKey := "other" }

/-- The channel fails. -/
private def failingWorld : World :=
  { Sample.world [.done (.error (.network "down"))] with
    store := { notifications := [bystander, stored] } }

private def patient : Delivery := ⟨.ofChannels failingWorld.channels, ⟨.standard, []⟩, .loops⟩

private def twoSecondsLater : Instant := (Instant.epoch.add? (.ofSecs 2)).getD .last

/-- A forged message has the stored row tried once and scheduled again. -/
theorem deliver_transition_forged :
    (failingWorld.store.notifications.map (·.id)).Nodup ∧
    (failingWorld.store.notifications.map (·.idempotencyKey)).Nodup ∧
    failingWorld.store.find? forged.id = some stored ∧
    patient.registry = .ofChannels failingWorld.channels ∧
    patient.registry.coverage = .ok () ∧
    patient.decision stored failingWorld = .ok (.retry twoSecondsLater) ∧
    ∃ close after, (patient.deliver forged).run.perform (.opened failingWorld) = (close, after) ∧
      close = .returned (.ok (.retryScheduled twoSecondsLater)) ∧
      after.addressed = [(0, stored)] ∧
      after.world.store.notifications = [bystander, stored.retryScheduled
        (DeliveryError.network "down").failure twoSecondsLater .epoch] ∧
      after.world.store.outbox.map (·.topic) = [Topic.retry.name] := by
  have hids : (failingWorld.store.notifications.map (·.id)).Nodup := by decide
  have hkeys : (failingWorld.store.notifications.map (·.idempotencyKey)).Nodup := by decide
  have hstored : failingWorld.store.find? forged.id = some stored := by decide
  have hcovers : patient.registry.coverage = .ok () := by rfl
  have hdecide : patient.decision stored failingWorld = .ok (.retry twoSecondsLater) := by
    decide +kernel
  obtain ⟨close, after, hperform, -, hgoes, -⟩ := deliver_transition patient failingWorld forged
    stored _ hids hkeys hstored rfl hcovers hdecide
  have hcurrent : ¬ stored.Outdates forged := by
    unfold Notification.Outdates
    decide
  obtain ⟨place, ⟨⟨c, hc, -⟩, -⟩, hgoes⟩ := hgoes hcurrent
  obtain rfl : place = 0 := by
    have hlt := (List.getElem?_eq_some_iff.mp hc).1
    exact Nat.lt_one_iff.mp hlt
  obtain ⟨haddressed, hclose, hstore⟩ := hgoes
  refine ⟨hids, hkeys, hstored, rfl, hcovers, hdecide, close, after, hperform, hclose, haddressed,
    ?_, ?_⟩
  · rw [hstore]
    decide +kernel
  · rw [hstore]
    decide +kernel

end Delivery
end Courier
