import Courier.Proofs.Draining.Publications
import Courier.Proofs.Envelope
import Courier.Proofs.Runs.Hosts
import Courier.Proofs.Store.Due
import Courier.Proofs.Time.Instant

/-!
One cycle of the outbox. Publications may fail in any pattern: the bus refuses some, and others are
lost on the way to it, as it is written down beforehand. Main rule: the first events that are due
are handled one after the other, up to the first one whose notification is missing. Each of them is
published once, and marked or put off by what became of it; nothing else changes.
-/

namespace Courier

/-! ## Publications that fail -/

/-- A publication that was tried, and what became of it. -/
structure Dispatch where
  topic : String
  key : Option String
  payload : Bytes
  result : Except DeliveryError Unit

/-- A world from which some publications do not reach the bus. -/
structure Dispatcher where
  world : World
  /-- What becomes of the next publications: an error, or what the bus says. -/
  faults : List (Option DeliveryError) := []
  /-- The publications so far. -/
  tried : List Dispatch := []

/-- How many of the next records of a topic will be refused. -/
def Bus.left (b : Bus) (topic : String) : Nat := (b.refusals.lookup topic).getD 0

namespace Dispatcher

/-- What becomes of publications to topics, one after the other: each fails as it is written down,
or else because its topic refuses records and has not yet refused as many as it will. -/
def verdicts : List (Option DeliveryError) → (String → Nat) → List String →
    List (Except DeliveryError Unit)
  | _, _, [] => []
  | some error :: faults, left, _ :: topics => .error error :: verdicts faults left topics
  | faults, left, topic :: topics =>
    match left topic with
    | 0 => .ok () :: verdicts faults.tail left topics
    | count + 1 =>
      .error (.publish topic "injected publish failure") ::
        verdicts faults.tail (Function.update left topic count) topics

def dispatch (d : Dispatcher) (topic : String) (key : Option String) (payload : Bytes) :
    Except DeliveryError Unit × Dispatcher :=
  match d.faults with
  | some error :: faults =>
    (.error error,
      { d with faults, tried := d.tried ++ [⟨topic, key, payload, .error error⟩] })
  | faults =>
    let (result, bus) := d.world.bus.publish topic key payload d.world.now
    (result,
      { world := { d.world with bus }
        faults := faults.tail
        tried := d.tried ++ [⟨topic, key, payload, result⟩] })

def answer (d : Dispatcher) : (c : Call) → Outcome c.Answer × Dispatcher
  | .publish topic key payload =>
    let (result, d) := d.dispatch topic key payload
    (.done result, d)
  | c =>
    let (outcome, world) := d.world.answer c
    (outcome, { d with world })

/-- Answers calls as the world does, but for publications. -/
def host : Host Dispatcher := ⟨answer, fun d => d.world.bus⟩

/-- Where no publication is lost on the way, programs run as they do in the world. -/
theorem run_of_no_faults {α : Type} (prog : Prog α) (w : World) (tried : List Dispatch) :
    ∃ tried', host.run prog ⟨w, [], tried⟩ = ((prog.run w).1, ⟨(prog.run w).2, [], tried'⟩) := by
  induction prog generalizing w tried with
  | done a | crash text => exact ⟨tried, rfl⟩
  | ask c next ih =>
      have hanswer : ∃ tried', host.answer ⟨w, [], tried⟩ c =
          ((w.answer c).1, ⟨(w.answer c).2, [], tried'⟩) := by
        cases c <;> exact ⟨_, rfl⟩
      obtain ⟨tried', hanswer⟩ := hanswer
      rw [Host.run, hanswer, Prog.run]
      rcases w.answer c with ⟨_ | _ | _, w'⟩
      · exact ih _ w' tried'
      · exact ⟨tried', rfl⟩
      · exact ⟨tried', rfl⟩

end Dispatcher

/-- An event that was handled: what was published for it, and what became of that. -/
structure Handling where
  event : OutboxEvent
  notification : Notification
  result : Except DeliveryError Unit

namespace Handling

variable (x : Handling) (now next : Instant)

/-- The event afterwards. -/
def settled : OutboxEvent :=
  match x.result with
  | .ok _ => { x.event with status := .published, updatedAt := now }
  | .error error =>
    { x.event with
      attempts := countUp x.event.attempts
      lastError := some error.message
      nextAttemptAt := some next
      updatedAt := now }

@[simp] theorem settled_id : (x.settled now next).id = x.event.id := by
  unfold settled
  split <;> rfl

def key : Option String := some x.notification.id.text

def payload : Bytes := (Envelope.ofNotification x.notification now).encode

def dispatched : Dispatch := ⟨x.event.topic, x.key, x.payload now, x.result⟩

/-- What a topic got by the handling of events. -/
def messages (done : List Handling) (topic : String) : List (Option String × Bytes) :=
  (done.filter fun x => x.event.topic = topic ∧ x.result.isOk).map fun x => (x.key, x.payload now)

/-- An event of the outbox after some were handled. -/
def after (done : List Handling) (e : OutboxEvent) : OutboxEvent :=
  match done.find? (·.event.id = e.id) with
  | some x => x.settled now next
  | none => e

variable {x now next} {done more : List Handling} {e : OutboxEvent} {events : List OutboxEvent}
  {change : OutboxEvent → OutboxEvent}

@[simp] theorem id_after : (after now next done e).id = e.id := by
  unfold after
  split
  · next x hfirst => simpa using List.find?_some hfirst
  · rfl

theorem messages_append (now : Instant) (done more : List Handling) (topic : String) :
    messages now (done ++ more) topic = messages now done topic ++ messages now more topic := by
  simp [messages]

/-- Events that are handled later are others. -/
theorem after_append (hothers : ∀ x ∈ done, ∀ y ∈ more, y.event.id ≠ x.event.id) :
    after now next (done ++ more) e = after now next more (after now next done e) := by
  unfold after
  rw [List.find?_append]
  cases hfirst : done.find? (·.event.id = e.id) with
  | none => rfl
  | some x =>
      have hx := List.mem_of_find?_eq_some hfirst
      have hlater : more.find? (·.event.id = (x.settled now next).id) = none := by
        refine List.find?_eq_none.mpr fun y hy => ?_
        simpa using hothers x hx y hy
      dsimp only [Option.or]
      rw [hlater]

/-- A change of one event in its place. -/
theorem map_after_singleton (hids : (events.map (·.id)).Nodup) (hx : x.event ∈ events)
    (hchange : change x.event = x.settled now next) :
    events.map (after now next [x]) =
      events.map fun e => if e.id = x.event.id then change e else e := by
  refine List.map_congr_left fun e he => ?_
  unfold after
  by_cases hid : e.id = x.event.id
  · obtain rfl := List.inj_on_of_nodup_map hids he hx hid
    simp [hchange]
  · simp [hid, Ne.symm hid]

end Handling

/-- A log with more records at its end, at the offsets that come next. -/
def Log.extended (log : Log) (topic : String) (now : Instant)
    (messages : List (Option String × Bytes)) : Log where
  entries := log.entries ++
    messages.mapIdx fun i (key, payload) => ⟨⟨topic, 0, log.head + i, key, payload⟩, now⟩
  head := log.head + messages.length

theorem Log.extended_nil (log : Log) (topic : String) (now : Instant) :
    log.extended topic now [] = log := by
  simp [extended]

theorem Log.extended_append (log : Log) (topic : String) (now : Instant)
    (messages more : List (Option String × Bytes)) :
    log.extended topic now (messages ++ more) =
      (log.extended topic now messages).extended topic now more := by
  simp [extended, List.mapIdx_append, Int.add_assoc, Int.add_comm, Int.add_left_comm]

namespace Bus

variable {b : Bus} {topic : String} {key : Option String} {payload : Bytes} {now : Instant}

theorem publish_of_left_eq_zero (h : b.left topic = 0) :
    b.publish topic key payload now = (.ok (), b.append topic key payload now) := by
  unfold publish
  rw [show (b.refusals.lookup topic).getD 0 = 0 from h]
  rfl

theorem publish_of_left_eq_succ {count : Nat} (h : b.left topic = count + 1) :
    b.publish topic key payload now =
      (.error (.publish topic "injected publish failure"),
        { b with refusals := set topic count b.refusals }) := by
  unfold publish
  rw [show (b.refusals.lookup topic).getD 0 = count + 1 from h]

theorem left_refuse (b : Bus) (topic : String) (count : Nat) :
    left { b with refusals := set topic count b.refusals } =
      Function.update b.left topic count := by
  funext other
  unfold left
  by_cases hother : other = topic
  · subst hother
    rw [lookup_set_self, Function.update_self, Option.getD_some]
  · rw [lookup_set_of_ne hother, Function.update_of_ne hother]

theorem log_append_eq_extended (b : Bus) (topic : String) (key : Option String) (payload : Bytes)
    (now : Instant) :
    (b.append topic key payload now).log topic =
      (b.log topic).extended topic now [(key, payload)] := by
  simp [log_append_self, Log.extended]

end Bus

/-- What is wrong about an event whose notification is missing. -/
def OutboxEvent.missing (e : OutboxEvent) : DeliveryError :=
  .integrity
    s!"outbox event {e.id.text} references missing notification {e.notificationId.text}"

/-- Whether the notification of an event is there. -/
def Store.knows (s : Store) (e : OutboxEvent) : Bool := (s.find? e.notificationId).isSome

/-- How the handling of events ends: at once where a notification is missing. -/
def Store.ending (s : Store) (events : List OutboxEvent) : Except DeliveryError Unit :=
  match events.find? (!s.knows ·) with
  | some e => .error e.missing
  | none => .ok ()

namespace Store

variable {s : Store} {e : OutboxEvent} {n : Notification} {events : List OutboxEvent}

theorem knows_of_find (h : s.find? e.notificationId = some n) : s.knows e = true := by
  rw [knows, h]
  rfl

theorem knows_of_find_none (h : s.find? e.notificationId = none) : s.knows e = false := by
  rw [knows, h]
  rfl

theorem ending_of_knows (h : s.knows e = true) : s.ending (e :: events) = s.ending events := by
  rw [ending, ending, List.find?_cons_of_neg (by simp [h])]

theorem ending_of_not_knows (h : s.knows e = false) :
    s.ending (e :: events) = .error e.missing := by
  rw [ending, List.find?_cons_of_pos (by simp [h])]

end Store

/-- An event is put off by the delay, if that leads to some moment. -/
theorem Publication.plus_postponement {p : Publication} {now next : Instant}
    (hnext : now.Follows p.retryDelay next) : now.plus p.postponement = .ok next := by
  have hadd := Instant.add?_eq_some_iff.mpr hnext
  rw [postponement, if_pos (Instant.canShiftBy_of_add? hadd), Instant.plus, hadd]

namespace Dispatcher

/-- What the handling of some events makes of a world: they are settled, their topics got the
records, each publication was tried in its turn, and everything else is as it was. -/
structure Handled (d : Dispatcher) (next : Instant) (done : List Handling) (d' : Dispatcher) :
    Prop where
  store : d'.world.store = { d.world.store with
    outbox := d.world.store.outbox.map (Handling.after d.world.now next done) }
  clock : d'.world.clock = d.world.clock
  log : ∀ topic, d'.world.bus.log topic =
    (d.world.bus.log topic).extended topic d.world.now (Handling.messages d.world.now done topic)
  cursors : d'.world.bus.cursors = d.world.bus.cursors
  tried : d'.tried = d.tried ++ done.map (·.dispatched d.world.now)

variable {d d' d'' : Dispatcher} {next : Instant} {done more : List Handling} {x : Handling}

theorem Handled.refl (d : Dispatcher) (next : Instant) : d.Handled next [] d where
  store := by
    have hmap : d.world.store.outbox.map (Handling.after d.world.now next []) =
        d.world.store.outbox := List.map_id _
    rw [hmap]
  clock := rfl
  log topic := (Log.extended_nil _ _ _).symm
  cursors := rfl
  tried := (List.append_nil _).symm

theorem Handled.now (h : d.Handled next done d') : d'.world.now = d.world.now :=
  congrArg Clock.now h.clock

theorem Handled.trans (h : d.Handled next done d') (h' : d'.Handled next more d'')
    (hothers : ∀ x ∈ done, ∀ y ∈ more, y.event.id ≠ x.event.id) :
    d.Handled next (done ++ more) d'' where
  store := by
    have hafter : Handling.after d.world.now next more ∘ Handling.after d.world.now next done =
        Handling.after d.world.now next (done ++ more) :=
      funext fun _ => (Handling.after_append hothers).symm
    rw [h'.store, h.store, h.now, List.map_map, hafter]
  clock := h'.clock.trans h.clock
  log topic := by
    rw [h'.log, h.log, h.now, Handling.messages_append, Log.extended_append]
  cursors := h'.cursors.trans h.cursors
  tried := by
    rw [h'.tried, h.tried, h.now, List.map_append, List.append_assoc]

/-! ## One publication -/

/-- What a publication does: only the log of its topic can change, and what becomes of those that
come after it is what was to become of them before. -/
structure Tries (d : Dispatcher) (topic : String) (key : Option String) (payload : Bytes)
    (result : Except DeliveryError Unit) (d' : Dispatcher) : Prop where
  store : d'.world.store = d.world.store
  clock : d'.world.clock = d.world.clock
  log : ∀ other, d'.world.bus.log other = (d.world.bus.log other).extended other d.world.now
    (if topic = other ∧ result.isOk then [(key, payload)] else [])
  cursors : d'.world.bus.cursors = d.world.bus.cursors
  tried : d'.tried = d.tried ++ [⟨topic, key, payload, result⟩]
  verdicts : ∀ topics, verdicts d.faults d.world.bus.left (topic :: topics) =
    result :: verdicts d'.faults d'.world.bus.left topics

theorem Tries.now {topic : String} {key : Option String} {payload : Bytes}
    {result : Except DeliveryError Unit} (h : d.Tries topic key payload result d') :
    d'.world.now = d.world.now :=
  congrArg Clock.now h.clock

theorem verdicts_of_no_fault {faults : List (Option DeliveryError)}
    (h : ∀ error rest, faults ≠ some error :: rest) (left : String → Nat) (topic : String)
    (topics : List String) :
    verdicts faults left (topic :: topics) = match left topic with
      | 0 => .ok () :: verdicts faults.tail left topics
      | count + 1 =>
        .error (.publish topic "injected publish failure") ::
          verdicts faults.tail (Function.update left topic count) topics := by
  rcases faults with _ | ⟨_ | error, rest⟩
  · rfl
  · rfl
  · exact absurd rfl (h error rest)

theorem tries_dispatch (d : Dispatcher) (topic : String) (key : Option String) (payload : Bytes) :
    d.Tries topic key payload (d.dispatch topic key payload).1
      (d.dispatch topic key payload).2 := by
  have hnothing (other : String) (error : DeliveryError) : d.world.bus.log other =
      (d.world.bus.log other).extended other d.world.now
        (if topic = other ∧ (Except.error error : Except DeliveryError Unit).isOk then
          [(key, payload)] else []) := by
    rw [if_neg (fun h => nomatch h.2), Log.extended_nil]
  unfold dispatch
  split
  · next error faults hfaults =>
    refine ⟨rfl, rfl, fun other => hnothing other error, rfl, rfl, fun topics => ?_⟩
    rw [hfaults]
    rfl
  · next hfaults =>
    dsimp only
    cases hleft : d.world.bus.left topic with
    | zero =>
        rw [Bus.publish_of_left_eq_zero hleft]
        refine ⟨rfl, rfl, fun other => ?_, rfl, rfl, fun topics => ?_⟩
        · by_cases htopic : topic = other
          · subst htopic
            rw [if_pos ⟨rfl, rfl⟩]
            exact Bus.log_append_eq_extended _ _ _ _ _
          · rw [if_neg (fun h => htopic h.1), Log.extended_nil]
            exact Bus.log_append_of_ne _ _ _ _ _ (Ne.symm htopic)
        · rw [verdicts_of_no_fault hfaults, hleft]
          rfl
    | succ count =>
        rw [Bus.publish_of_left_eq_succ hleft]
        refine ⟨rfl, rfl, fun other => hnothing other _, rfl, rfl, fun topics => ?_⟩
        rw [verdicts_of_no_fault hfaults, hleft]
        dsimp only
        rw [Bus.left_refuse]

theorem exists_tries (d : Dispatcher) (topic : String) (key : Option String) (payload : Bytes) :
    ∃ result d', host.answer d (.publish topic key payload) = (.done result, d') ∧
      d.Tries topic key payload result d' :=
  ⟨_, _, rfl, d.tries_dispatch topic key payload⟩

/-! ## One event -/

/-- The events were changed. -/
def changed (d : Dispatcher) (events : List OutboxEvent) : Dispatcher :=
  { d with world := { d.world with store := { d.world.store with outbox := events } } }

/-- The events were changed, and that was counted. -/
def marked (d : Dispatcher) (events : List OutboxEvent) (ledger : Ledger) (what : Tally) :
    Dispatcher :=
  { d with world := (d.changed events).world.count ledger what }

variable {p : Publication} {e : OutboxEvent} {n : Notification} {change : OutboxEvent → OutboxEvent}
  {events : List OutboxEvent}

section Marked

variable (d : Dispatcher) (events : List OutboxEvent) (ledger : Ledger) (what : Tally)

@[simp] theorem store_marked :
    (d.marked events ledger what).world.store = { d.world.store with outbox := events } :=
  World.store_count _ _ _

@[simp] theorem bus_marked : (d.marked events ledger what).world.bus = d.world.bus :=
  World.bus_count _ _ _

@[simp] theorem clock_marked : (d.marked events ledger what).world.clock = d.world.clock := by
  cases ledger <;> rfl

end Marked

theorem answer_markPublished {id : Uuid} (hnone : d.world.store.outboxError = none)
    (hevents : Store.changeEvent id (·.markPublished d.world.now) d.world.store.outbox =
      some events) :
    host.answer d (.markPublished id) = (.done (.ok ()), d.changed events) :=
  congrArg (fun answer => (answer.1, { d with world := answer.2 }))
    (World.answer_markPublished hnone hevents)

theorem answer_markFailed {id : Uuid} {error : String}
    (hnone : d.world.store.outboxError = none)
    (hevents : Store.changeEvent id (·.markFailed error next d.world.now) d.world.store.outbox =
      some events) :
    host.answer d (.markFailed id error next) = (.done (.ok ()), d.changed events) :=
  congrArg (fun answer => (answer.1, { d with world := answer.2 }))
    (World.answer_markFailed hnone hevents)

/-- An event is handled once it is marked with what became of its publication. -/
theorem Tries.handled (h : d.Tries x.event.topic x.key (x.payload d.world.now) x.result d')
    (hids : (d.world.store.outbox.map (·.id)).Nodup) (hx : x.event ∈ d.world.store.outbox)
    (hevents : Store.changeEvent x.event.id change d.world.store.outbox = some events)
    (hchange : change x.event = x.settled d.world.now next) (ledger : Ledger) (what : Tally) :
    d.Handled next [x] (d'.marked events ledger what) where
  store := by
    rw [store_marked, h.store, Handling.map_after_singleton hids hx hchange,
      Store.eq_map_of_changeEvent hids hevents]
  clock := by
    rw [clock_marked, h.clock]
  log topic := by
    rw [bus_marked, h.log]
    by_cases htopic : x.event.topic = topic ∧ x.result.isOk = true
    · simp [Handling.messages, htopic]
    · simp [Handling.messages, htopic]
  cursors := by
    rw [bus_marked, h.cursors]
  tried := h.tried

theorem verdicts_marked {topic : String} {key : Option String} {payload : Bytes}
    {result : Except DeliveryError Unit} (h : d.Tries topic key payload result d')
    (ledger : Ledger) (what : Tally) (topics : List String) :
    verdicts d.faults d.world.bus.left (topic :: topics) = result ::
      verdicts (d'.marked events ledger what).faults (d'.marked events ledger what).world.bus.left
        topics := by
  rw [h.verdicts, bus_marked]
  rfl

/-- An event whose notification is there is handled. -/
theorem run_publishEvent (hnone : d.world.store.outboxError = none)
    (hids : (d.world.store.outbox.map (·.id)).Nodup) (he : e ∈ d.world.store.outbox)
    (hfind : d.world.store.find? e.notificationId = some n)
    (hnext : d.world.now.Follows p.retryDelay next) :
    ∃ x d', host.run (p.publishEvent d.world.now e).run d = (.done (.ok ()), d') ∧
      x.event = e ∧ x.notification = n ∧ d.Handled next [x] d' ∧
      ∀ topics, verdicts d.faults d.world.bus.left (e.topic :: topics) =
        x.result :: verdicts d'.faults d'.world.bus.left topics := by
  obtain ⟨result, d₁, hpublish, htries⟩ := d.exists_tries e.topic (some n.id.text)
    (Envelope.ofNotification n d.world.now).encode
  have hfound : host.answer d (.findById e.notificationId) = (.done (.ok (some n)), d) :=
    hfind ▸ rfl
  have hstart : host.run (p.publishEvent d.world.now e).run d = _ :=
    (Host.run_ask hfound).trans ((Host.run_ask rfl).trans (Host.run_ask hpublish))
  have hnone₁ : d₁.world.store.outboxError = none := htries.store ▸ hnone
  cases result with
  | ok done =>
      obtain ⟨events, hevents⟩ := Store.exists_changeEvent (·.markPublished d.world.now) he
      have hmark : host.answer d₁ (.markPublished e.id) = (.done (.ok ()), d₁.changed events) := by
        apply answer_markPublished hnone₁
        rw [htries.store, htries.now]
        exact hevents
      refine ⟨⟨e, n, .ok done⟩, d₁.marked events p.ledger .published, ?_, rfl, rfl,
        htries.handled (x := ⟨e, n, .ok done⟩) hids he hevents rfl _ _,
        verdicts_marked htries _ _⟩
      exact hstart.trans ((Host.run_ask hmark).trans (Host.run_ask rfl))
  | error error =>
      obtain ⟨events, hevents⟩ :=
        Store.exists_changeEvent (·.markFailed error.message next d.world.now) he
      have hmark : host.answer d₁ (.markFailed e.id error.message next) =
          (.done (.ok ()), d₁.changed events) := by
        apply answer_markFailed hnone₁
        rw [htries.store, htries.now]
        exact hevents
      have hpostponed : host.run (p.publishEvent d.world.now e).run d =
          host.run (Job.orCrash (d.world.now.plus p.postponement) >>= fun next => do
            Job.store (.call (.markFailed e.id error.message next))
            Job.call (.tally p.ledger .publishFailure)).run d₁ := hstart
      rw [p.plus_postponement hnext] at hpostponed
      refine ⟨⟨e, n, .error error⟩, d₁.marked events p.ledger .publishFailure, ?_, rfl, rfl,
        htries.handled (x := ⟨e, n, .error error⟩) hids he hevents rfl _ _,
        verdicts_marked htries _ _⟩
      exact hpostponed.trans ((Host.run_ask hmark).trans (Host.run_ask rfl))

/-- An event whose notification is missing ends everything. -/
theorem run_publishEvent_of_missing (now : Instant)
    (hfind : d.world.store.find? e.notificationId = none) :
    host.run (p.publishEvent now e).run d = (.done (.error e.missing), d) := by
  have hmissing : host.answer d (.findById e.notificationId) = (.done (.ok none), d) :=
    hfind ▸ rfl
  exact Host.run_ask hmissing

/-! ## One event after the other -/

/-- Events were handled in their order, up to the first one whose notification is missing. -/
structure HandledInTurn (d : Dispatcher) (next : Instant) (events : List OutboxEvent)
    (done : List Handling) (d' : Dispatcher) : Prop where
  events : done.map (·.event) = events.takeWhile d.world.store.knows
  notifications : ∀ x ∈ done, d.world.store.find? x.event.notificationId = some x.notification
  results : done.map (·.result) = verdicts d.faults d.world.bus.left (done.map (·.event.topic))
  handled : d.Handled next done d'

theorem Handled.knows (h : d.Handled next done d') :
    d'.world.store.knows = d.world.store.knows := by
  rw [h.store]
  rfl

theorem Handled.outbox (h : d.Handled next done d') : d'.world.store.outbox =
    d.world.store.outbox.map (Handling.after d.world.now next done) := by
  rw [h.store]

theorem HandledInTurn.nil (d : Dispatcher) (next : Instant) {due : List OutboxEvent}
    (hnone : due.takeWhile d.world.store.knows = []) : d.HandledInTurn next due [] d where
  events := hnone.symm
  notifications _ hx := absurd hx List.not_mem_nil
  results := by
    rw [List.map_nil, List.map_nil, verdicts]
  handled := .refl d next

/-- The events after one that was handled are still there. -/
theorem Handled.mem_outbox (h : d.Handled next [x] d') (he : e ∈ d.world.store.outbox)
    (hne : e.id ≠ x.event.id) : e ∈ d'.world.store.outbox := by
  rw [h.outbox]
  refine List.mem_map.mpr ⟨e, he, ?_⟩
  simp [Handling.after, hne.symm]

theorem Handled.ids (h : d.Handled next done d') :
    d'.world.store.outbox.map (·.id) = d.world.store.outbox.map (·.id) := by
  rw [h.outbox, List.map_map]
  exact List.map_congr_left fun e _ => Handling.id_after

theorem HandledInTurn.cons {due : List OutboxEvent} (h : d.Handled next [x] d')
    (hfind : d.world.store.find? x.event.notificationId = some x.notification)
    (hverdicts : ∀ topics, verdicts d.faults d.world.bus.left (x.event.topic :: topics) =
      x.result :: verdicts d'.faults d'.world.bus.left topics)
    (h' : d'.HandledInTurn next due done d'') (hnew : x.event.id ∉ due.map (·.id)) :
    d.HandledInTurn next (x.event :: due) (x :: done) d'' where
  events := by
    rw [List.takeWhile_cons_of_pos (Store.knows_of_find hfind), List.map_cons, h'.events, h.knows]
  notifications y hy := by
    rcases List.mem_cons.mp hy with rfl | hy
    · exact hfind
    · rw [← h'.notifications y hy, h.store]
      rfl
  results := by
    rw [List.map_cons, List.map_cons, hverdicts, h'.results]
  handled := by
    refine h.trans h'.handled fun x' hx' y hy heq => hnew ?_
    obtain rfl := List.mem_singleton.mp hx'
    have hy : y.event ∈ due.takeWhile d'.world.store.knows := by
      rw [← h'.events]
      exact List.mem_map_of_mem hy
    exact List.mem_map.mpr ⟨y.event, (List.takeWhile_prefix _).subset hy, heq⟩

/-- The events of a list are handled in turn, where they are in the outbox with ids of their own. -/
theorem run_forM_publishEvent {due : List OutboxEvent} (hnone : d.world.store.outboxError = none)
    (hids : (d.world.store.outbox.map (·.id)).Nodup) (hdue : ∀ e ∈ due, e ∈ d.world.store.outbox)
    (hnodup : (due.map (·.id)).Nodup) (hnext : d.world.now.Follows p.retryDelay next) :
    ∃ done d', host.run (due.forM (p.publishEvent d.world.now)).run d =
        (.done (d.world.store.ending due), d') ∧
      d.HandledInTurn next due done d' := by
  induction due generalizing d with
  | nil => exact ⟨[], d, rfl, .nil d next rfl⟩
  | cons e due ih =>
      rw [List.map_cons, List.nodup_cons] at hnodup
      have hmem := hdue e List.mem_cons_self
      have hsteps := host.run_bind_job (p.publishEvent d.world.now e)
        (fun _ => due.forM (p.publishEvent d.world.now)) d
      cases hfind : d.world.store.find? e.notificationId with
      | none =>
          have hknows := Store.knows_of_find_none hfind
          rw [run_publishEvent_of_missing _ hfind] at hsteps
          refine ⟨[], d, hsteps.trans ?_, .nil d next ?_⟩
          · rw [Store.ending_of_not_knows hknows]
          · exact List.takeWhile_cons_of_neg (by simp [hknows])
      | some n =>
          obtain ⟨x, d₁, hrun, rfl, rfl, hhandled, hverdicts⟩ :=
            run_publishEvent hnone hids hmem hfind hnext
          have hnone₁ : d₁.world.store.outboxError = none := by
            rw [hhandled.store]
            exact hnone
          -- The event is no longer what it was, but those after it are, as they have other ids.
          have hrest : ∀ e ∈ due, e ∈ d₁.world.store.outbox := fun e he =>
            hhandled.mem_outbox (hdue e (List.mem_cons_of_mem _ he)) fun heq =>
              hnodup.1 (List.mem_map.mpr ⟨e, he, heq⟩)
          have hnext₁ : d₁.world.now.Follows p.retryDelay next := by
            rw [hhandled.now]
            exact hnext
          obtain ⟨done, d', hrun', hdone⟩ :=
            ih hnone₁ (by rw [hhandled.ids]; exact hids) hrest hnodup.2 hnext₁
          rw [hrun] at hsteps
          rw [hhandled.now] at hrun'
          refine ⟨x :: done, d', hsteps.trans (hrun'.trans ?_),
            .cons hhandled hfind hverdicts hdone hnodup.1⟩
          rw [Store.ending_of_knows (Store.knows_of_find hfind), Store.ending, Store.ending,
            hhandled.knows]

/-! ## A cycle -/

theorem run_publishDue (p : Publication) (limit : Nat) {due : List OutboxEvent}
    (hdue : d.world.store.dueEvents d.world.now limit = (.ok due, d.world.store)) :
    host.run (p.publishDue limit).run d =
      match host.run (due.forM (p.publishEvent d.world.now)).run d with
      | (.done result, d') => (.done (result.map fun _ => due.length), d')
      | (.crashed text, d') => (.crashed text, d')
      | (.stuck, d') => (.stuck, d') := by
  have hanswer : host.answer d (.dueEvents d.world.now limit) = (.done (.ok due), d) := by
    change (((d.world.answer (.dueEvents d.world.now limit)).1,
      { d with world := (d.world.answer (.dueEvents d.world.now limit)).2 }) : _ × _) = _
    rw [World.answer, hdue]
    rfl
  have hstart : host.run (p.publishDue limit).run d = host.run (do
      due.forM (p.publishEvent d.world.now)
      return due.length : Job Nat).run d :=
    (Host.run_ask rfl).trans (Host.run_ask hanswer)
  rw [hstart, host.run_bind_job]
  rcases host.run (due.forM (p.publishEvent d.world.now)).run d with ⟨(error | _) | _ | _, d'⟩ <;>
    rfl

/-- Let the ids of the events be distinct, no error wait in the store, and the delay lead to some
moment. Then a cycle handles the first events that are due, one after the other, whichever of the
publications fail. It ends with their number, or at the first one whose notification is missing.
The notifications can be read back from what is published, with their moments as these can be
told. -/
theorem publishDue_handles_first_due (hids : (d.world.store.outbox.map (·.id)).Nodup)
    (hnone : d.world.store.outboxError = none) (hnext : d.world.now.Follows p.retryDelay next)
    (limit : Nat) :
    ∃ due done d', d.world.store.FirstDue d.world.now limit due ∧
      host.run (p.publishDue limit).run d =
        (.done ((d.world.store.ending due).map fun _ => due.length), d') ∧
      d.HandledInTurn next due done d' ∧
      ∀ x ∈ done, Envelope.decode (x.payload d.world.now) =
        .ok (.ofNotification x.notification.told d.world.now) := by
  obtain ⟨due, hdue, hfirst⟩ := Store.dueEvents_firstDue hnone hids d.world.now limit
  obtain ⟨done, d', hrun, hdone⟩ := run_forM_publishEvent hnone hids
    (fun e he => (hfirst.isDue e he).1) (hfirst.ids_nodup hids) hnext
  refine ⟨due, done, d', hfirst, ?_, hdone, fun _ _ => Envelope.decode_ofNotification _ _⟩
  rw [run_publishDue p limit hdue, hrun]

/-- A promise to publish a notification, made in some second. -/
private def promise (id notification : Nat) (topic : Topic) (second : Nat) : OutboxEvent :=
  .pending (.ofSerial id) (.ofSerial notification) topic.name (Clock.now ⟨second * 1_000_000⟩)

/-- Ten seconds into its time a world has five promises, one of them about a notification that is
missing. The first publication will be lost, and the next record of one topic refused. -/
private def promising : Dispatcher where
  world := { Sample.world [] with
    clock := ⟨10_000_000⟩
    store := {
      notifications := [.ofRequest Sample.request (.ofSerial 0) .epoch]
      outbox := [promise 1 0 .send 3, promise 2 0 .send 1, promise 3 0 .retry 1,
        promise 4 9 .send 4, promise 5 0 .send 5] }
    bus := { refusals := [(Topic.send.name, 1)] } }
  faults := [some (.publish Topic.send.name "timed out")]

/-- The three oldest promises are handled, and only one of them is kept. The fourth one ends the
cycle. -/
theorem publishDue_ends_at_missing :
    (promising.world.store.outbox.map (·.id)).Nodup ∧
      promising.world.store.outboxError = none ∧
      ∃ next done d', promising.world.now.Follows (.ofSecs 5) next ∧
        host.run (Publication.publishDue ⟨.ofSecs 5, .loops⟩ 4).run promising =
          (.done (.error (promise 4 9 .send 4).missing), d') ∧
        promising.HandledInTurn next
          [promise 2 0 .send 1, promise 3 0 .retry 1, promise 1 0 .send 3, promise 4 9 .send 4]
          done d' ∧
        done.map (·.event) =
          [promise 2 0 .send 1, promise 3 0 .retry 1, promise 1 0 .send 3] ∧
        done.map (·.result.isOk) = [false, true, false] := by
  have hids : (promising.world.store.outbox.map (·.id)).Nodup := by decide +kernel
  have hnext : promising.world.now.Follows (.ofSecs 5)
      ⟨15, 0, by decide, by decide, by decide⟩ :=
    Instant.add?_eq_some_iff.mp (by decide)
  obtain ⟨due, done, d', hfirst, hrun, hdone, -⟩ :=
    publishDue_handles_first_due (p := ⟨.ofSecs 5, .loops⟩) hids rfl hnext 4
  obtain rfl : due = [promise 2 0 .send 1, promise 3 0 .retry 1, promise 1 0 .send 3,
      promise 4 9 .send 4] :=
    hfirst.unique (by decide +kernel) hids.of_map
  have hevents : done.map (·.event) =
      [promise 2 0 .send 1, promise 3 0 .retry 1, promise 1 0 .send 3] :=
    hdone.events.trans (by decide +kernel)
  have htopics : done.map (·.event.topic) = [Topic.send, .retry, .send].map Topic.name :=
    List.map_map.symm.trans (congrArg (List.map (·.topic)) hevents)
  have hresults : done.map (·.result.isOk) = (verdicts promising.faults promising.world.bus.left
      (done.map (·.event.topic))).map Except.isOk :=
    List.map_map.symm.trans (congrArg (List.map Except.isOk) hdone.results)
  rw [htopics] at hresults
  exact ⟨hids, rfl, _, done, d', hnext, hrun, hdone, hevents, hresults⟩

end Dispatcher
end Courier
