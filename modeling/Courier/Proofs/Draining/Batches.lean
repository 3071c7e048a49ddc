import Courier.Proofs.Draining.Work

/-!
Batches of a pipeline that nothing stops. Every record in hand is handled: it is passed, or, on the
topic to try again from, left for later. With each record that is passed there is less work left,
and a batch that passes none leaves the world as it was.
-/

namespace Courier

open Job

/-! ## Rows that are written -/

/-- Rows can be told apart by their identifiers, and by their keys. -/
structure Store.Distinct (store : Store) : Prop where
  ids : (store.notifications.map (·.id)).Nodup
  keys : (store.notifications.map (·.idempotencyKey)).Nodup

namespace World

variable {w w' : World} {x y : Notification} {topic : String}

theorem answer_save (hnone : w.store.saveError = none) (hfree : w.store.keyTaken y = false) :
    w.answer (.save y) = (.done (.ok ()), { w with store := w.store.put y }) := by
  simp only [answer, Store.save, Store.guarded_of_none .write hnone, hfree, withStore]
  rfl

theorem answer_saveWithOutbox (hnone : w.store.saveError = none)
    (hfree : w.store.keyTaken y = false) :
    w.answer (.saveWithOutbox y topic) =
      (.done (.ok (.pending (w.ids.draw w.serial) y.id topic w.now)),
        { w with
          store := { w.store.put y with
            outbox := w.store.outbox ++ [.pending (w.ids.draw w.serial) y.id topic w.now] }
          serial := w.serial + 1 }) := by
  simp only [answer, takeId, withStore, Store.saveWithOutbox_of_not_keyTaken hnone hfree]
  rfl

theorem store_answer_send {place : Nat} {o : Outcome (Except DeliveryError Unit)}
    (h : w.answer (.send place x) = (o, w')) : w'.store = w.store ∧ w'.serial = w.serial := by
  obtain ⟨channels, journal, millis, heq⟩ := w.sendAndWait_eq place x
  rw [show w' = (w.sendAndWait place x).2 from (congrArg Prod.snd h).symm, heq]
  exact ⟨rfl, rfl⟩

end World

namespace Delivery.Sends

variable {p : Pipeline} {d : Delivery} {n y : Notification} {w w' : World} {place : Nat}
  {result : Except DeliveryError Unit}

theorem store_eq (h : d.Sends n w place result w') : w'.store = w.store ∧ w'.serial = w.serial := by
  obtain ⟨hstore, hserial⟩ := World.store_answer_send h.answered
  exact ⟨hstore.trans (w.store_count _ _), hserial.trans (w.serial_count _ _)⟩

/-- What is written after the call to the channel is written to the tables as they were. -/
theorem keyTaken_eq_false (h : d.Sends n w place result w') (hw : w.store.Distinct)
    (hn : n ∈ w.store.notifications) (hid : y.id = n.id)
    (hkey : y.idempotencyKey = n.idempotencyKey) : w'.store.keyTaken y = false := by
  rw [h.store_eq.1]
  exact Store.keyTaken_eq_false hw.keys hn hid hkey

theorem unhindered (h : d.Sends n w place result w') (hp : p.Unhindered w) : p.Unhindered w' := by
  have hcounted : p.Unhindered (w.count d.ledger .sendAttempt) :=
    hp.answer (.tally d.ledger .sendAttempt)
  have hanswer := hcounted.answer (.send place n)
  rwa [h.answered] at hanswer

end Delivery.Sends

/-- The channel of an unhindered pipeline gives a result, and no error but a failure to deliver. -/
theorem Pipeline.Unhindered.settles {p : Pipeline} {n : Notification} {w w' : World} {place : Nat}
    {name : String} {o : Outcome (Except DeliveryError Unit)} (hp : p.Unhindered w)
    (hfind : p.delivery.registry.find n.medium = .ok (place, name))
    (hanswer : (w.count p.delivery.ledger .sendAttempt).answer (.send place n) = (o, w')) :
    ∃ result, o = .done result ∧
      ∀ error, result = .error error → error.isDeliveryFailure = true := by
  have hcounted : p.Unhindered (w.count p.delivery.ledger .sendAttempt) :=
    hp.answer (.tally p.delivery.ledger .sendAttempt)
  obtain ⟨place', name', hfind', hplace⟩ := hcounted.finds n.medium
  obtain ⟨rfl, -⟩ := Prod.mk.inj (Except.ok.inj (hfind'.symm.trans hfind))
  obtain ⟨result, hdone, hsettled, -⟩ := World.sendAndWait_settles hcounted.channels hplace n
  exact ⟨result, (congrArg Prod.fst hanswer).symm.trans hdone, hsettled⟩

namespace Pipeline

/-- A record of the topic was handled, and is still to be committed. What handling it has added is
less than what it costs to pass it. -/
structure Handled (p : Pipeline) (topic : Topic) (w w' : World) : Prop where
  cost : w'.store.cost p.backoff + 1 ≤ w.store.cost p.backoff + recordCost topic.name
  bus : w'.bus = w.bus
  serial : w'.serial ≤ w.serial + 1
  ids : w'.store.notifications.map (·.id) = w.store.notifications.map (·.id)
  keys : w'.store.notifications.map (·.idempotencyKey) =
    w.store.notifications.map (·.idempotencyKey)

variable {p : Pipeline} {topic : Topic} {w w' : World} {n y : Notification}

theorem Handled.distinct (h : p.Handled topic w w') (hw : w.store.Distinct) :
    w'.store.Distinct where
  ids := h.ids ▸ hw.ids
  keys := h.keys ▸ hw.keys

theorem Handled.of_same (hstore : w'.store = w.store) (hbus : w'.bus = w.bus)
    (hserial : w'.serial = w.serial) : p.Handled topic w w' where
  cost := by
    rw [hstore]
    exact Nat.add_le_add_left (recordCost_pos _) _
  bus := hbus
  serial := by omega
  ids := by rw [hstore]
  keys := by rw [hstore]

/-- The row that was attempted is written, and perhaps an event with it. -/
theorem Handled.write (htopic : topic ≠ .deadLetter) (hw : w.store.Distinct)
    (hn : n ∈ w.store.notifications) (hid : y.id = n.id)
    (hkey : y.idempotencyKey = n.idempotencyKey) (promised : List OutboxEvent)
    (hrows : w'.store.notifications = Store.putInto y w.store.notifications)
    (hevents : w'.store.outbox = w.store.outbox ++ promised)
    (hcost : p.backoff.cost y + (promised.map OutboxEvent.cost).sum ≤ p.backoff.cost n + 2)
    (hbus : w'.bus = w.bus) (hserial : w'.serial ≤ w.serial + 1) : p.Handled topic w w' where
  cost := by
    have hsum := Store.sum_putInto p.backoff.cost hw.ids hn hid
    have htopic : recordCost topic.name = 3 := by
      cases topic <;> first | rfl | exact absurd rfl htopic
    unfold Store.cost
    rw [hrows, hevents, List.map_append, List.sum_append, htopic]
    omega
  bus := hbus
  serial := hserial
  ids := by rw [hrows, Store.map_putInto hw.ids hn hid hid]
  keys := by rw [hrows, Store.map_putInto hw.ids hn hid hkey]

end Pipeline

/-! ## Attempts -/

namespace Delivery

variable {p : Pipeline} {topic : Topic} {w w' : World} {n m : Notification}
  {calls : List Answered} {close : Close (Except DeliveryError DeliveryOutcome)}

/-- What becomes of a row by a decision, and what the decision promises. -/
private theorem cost_of_judges {error : DeliveryError} {what : Tally}
    (h : p.delivery.Judges n error w m topic what) :
    m.id = n.id ∧ m.idempotencyKey = n.idempotencyKey ∧
      p.backoff.cost m + (recordCost topic.name + 1) ≤ p.backoff.cost n + 2 := by
  cases h with
  | @retry b next hb hdecide =>
      subst hb
      have hcost : p.backoff.cost (n.retryScheduled error.failure next w.now) + 2 =
          p.backoff.cost n := Backoff.cost_of_retry rfl rfl hdecide
      have hrecord : recordCost Topic.retry.name = 3 := rfl
      exact ⟨rfl, rfl, by omega⟩
  | giveUp hb hdecide =>
      have hcost : p.backoff.cost (n.deadLettered error.failure w.now) ≤ p.backoff.cost n :=
        Backoff.cost_le rfl (le_countUp _)
      have hrecord : recordCost Topic.deadLetter.name = 1 := rfl
      exact ⟨rfl, rfl, by omega⟩

/-- An attempt at a row comes to a result. -/
theorem Attempt.handled (h : p.delivery.Attempt n w close w' calls) (hp : p.Unhindered w)
    (hw : w.store.Distinct) (hn : n ∈ w.store.notifications) (htopic : topic ≠ .deadLetter) :
    ∃ outcome, close = .returned (.ok outcome) ∧ p.Handled topic w w' := by
  cases h with
  | unavailable hnone =>
      obtain ⟨place, name, hfind, -⟩ := hp.finds n.medium
      cases hfind.symm.trans hnone
  | unanswered hfind hanswer hnone =>
      obtain ⟨result, rfl, -⟩ := hp.settles hfind hanswer
      exact absurd rfl (hnone result)
  | refused hsends hother =>
      obtain ⟨⟨name, hfind⟩, hanswer⟩ := hsends
      obtain ⟨result, hdone, hsettled⟩ := hp.settles hfind hanswer
      cases hother.symm.trans (hsettled _ (Outcome.done.inj hdone).symm)
  | @unsaved _ w₁ _ _ hsends hsave =>
      have hfree := hsends.keyTaken_eq_false (y := n.sent w₁.now) hw hn rfl rfl
      rw [World.answer_save (hsends.unhindered hp).saveError hfree] at hsave
      cases (Prod.mk.inj hsave).1
  | @sent _ w₁ _ hsends hsave =>
      have hfree := hsends.keyTaken_eq_false (y := n.sent w₁.now) hw hn rfl rfl
      rw [World.answer_save (hsends.unhindered hp).saveError hfree] at hsave
      obtain ⟨-, rfl⟩ := Prod.mk.inj hsave
      obtain ⟨hstore, hserial⟩ := hsends.store_eq
      refine ⟨_, rfl, .write htopic hw hn (y := n.sent w₁.now) rfl rfl [] ?_ ?_ ?_ ?_ ?_⟩
      · rw [World.store_count]
        exact congrArg (Store.putInto _ ·.notifications) hstore
      · rw [World.store_count, List.append_nil]
        exact (congrArg Store.outbox hstore : w₁.store.outbox = _)
      · exact Nat.le_add_right _ 2
      · rw [World.bus_count]
        exact hsends.bus_eq
      · rw [World.serial_count]
        exact hserial.le.trans (Nat.le_succ _)
  | overflowed hsends _ hdecide =>
      obtain ⟨decision, hdecision⟩ := (hsends.unhindered hp).timely.decides n.medium
        (countUp n.retryCount) _ (Jitter.draw_lt (by decide) _)
      cases hdecision.symm.trans hdecide
  | @unrecorded _ _ w₁ m _ _ _ _ hsends _ hjudges hsave =>
      obtain ⟨hid, hkey, -⟩ := cost_of_judges hjudges
      have hfree := hsends.keyTaken_eq_false hw hn hid hkey
      have hnone := (hsends.unhindered hp).saveError
      rw [World.answer_saveWithOutbox (w := drawn w₁) hnone hfree] at hsave
      cases (Prod.mk.inj hsave).1
  | @failed _ _ w₁ m next _ _ _ _ hsends _ hjudges hsave =>
      obtain ⟨hid, hkey, hcost⟩ := cost_of_judges hjudges
      have hfree := hsends.keyTaken_eq_false hw hn hid hkey
      have hnone := (hsends.unhindered hp).saveError
      rw [World.answer_saveWithOutbox (w := drawn w₁) hnone hfree] at hsave
      obtain ⟨-, rfl⟩ := Prod.mk.inj hsave
      obtain ⟨hstore, hserial⟩ := hsends.store_eq
      refine ⟨_, rfl, .write htopic hw hn hid hkey
        [.pending (w₁.ids.draw w₁.serial) m.id next.name w₁.now] ?_ ?_ hcost ?_ ?_⟩
      · rw [World.store_count]
        exact congrArg (Store.putInto _ ·.notifications) hstore
      · rw [World.store_count]
        exact congrArg (·.outbox ++ _) hstore
      · rw [World.bus_count]
        exact hsends.bus_eq
      · rw [World.serial_count]
        exact (congrArg Nat.succ hserial).le

end Delivery

/-! ## Records -/

/-- The rows can be told apart, and the records of each topic are in order. Those to deliver from
can be read, and what they carry has a row. No record lies at the very last offset. -/
structure World.Tidy (w : World) : Prop where
  rows : w.store.Distinct
  ordered : ∀ topic : Topic, (w.bus.records topic.name).Pairwise (·.offset < ·.offset)
  last : ∀ topic : Topic, ∀ r ∈ w.bus.records topic.name, r.offset < 0x7fff_ffff_ffff_ffff
  known : ∀ topic : Topic, topic ≠ .deadLetter → ∀ r ∈ w.bus.records topic.name,
    ∃ m, r.snapshot = some m ∧ ∃ x ∈ w.store.notifications, x.id = m.id

/-- The record is left for later: it says that it is not to be tried yet. -/
def World.Defers (w : World) (topic : Topic) (r : Record) : Prop :=
  topic = .retry ∧ ∃ m, r.snapshot = some m ∧ m.isRetryPending w.now = true

namespace Pipeline

variable {p : Pipeline} {ledger : Ledger} {topic : Topic} {w w' : World} {r : Record}
  {rs later : List Record}

theorem Handled.tidy (h : p.Handled topic w w') (hw : w.Tidy) : w'.Tidy where
  rows := h.distinct hw.rows
  ordered := by
    rw [h.bus]
    exact hw.ordered
  last := by
    rw [h.bus]
    exact hw.last
  known := by
    rw [h.bus]
    intro other hother r hr
    obtain ⟨m, hm, x, hx, hid⟩ := hw.known other hother r hr
    have hmem : m.id ∈ w'.store.notifications.map (·.id) := by
      rw [h.ids]
      exact List.mem_map.mpr ⟨x, hx, hid⟩
    exact ⟨m, hm, List.mem_map.mp hmem⟩

/-- A record is handled, or left for later. -/
theorem ensures_handle (hp : p.Unhindered w) (hw : w.Tidy) (hr : r ∈ w.bus.records topic.name) :
    ((p.handler topic).handle r).Ensures w fun disposition w' =>
      disposition = .commit ∧ p.Handled topic w w' ∨
        disposition = .defer ∧ w' = w ∧ w.Defers topic r := by
  by_cases htopic : topic = .deadLetter
  · subst htopic
    refine Job.ensures_bind (R := fun _ w' => p.Handled .deadLetter w w')
      (Job.ensures_call rfl (.of_same rfl rfl rfl)) fun _ w' _ h => ?_
    exact Job.ensures_pure (Or.inl ⟨rfl, h⟩)
  · obtain ⟨m, hm, x, hx, hid⟩ := hw.known topic htopic r hr
    refine Job.ensures_of_runsAs (Prog.runsAs_mono (p.runsAs_handle htopic r w) ?_)
    intro close w' calls h
    cases h with
    | unreadable hnone => cases hm.symm.trans hnone
    | defers hretry hr hpending => exact ⟨_, rfl, Or.inr ⟨rfl, rfl, hretry, _, hr, hpending⟩⟩
    | delivers hr' _ h =>
        obtain rfl := Option.some.inj (hm.symm.trans hr')
        cases h with
        | skips => exact ⟨_, rfl, Or.inl ⟨rfl, .of_same rfl rfl rfl⟩⟩
        | @attempts n _ _ _ hn h =>
            have hrow : n ∈ w.store.notifications := by
              rcases hn with ⟨hfind, -⟩ | ⟨hnone, -⟩
              · exact (Store.find?_some hfind).1
              · exact absurd hid (Store.find?_none hnone x hx)
            obtain ⟨outcome, rfl, hhandled⟩ := h.handled hp hw.rows hrow htopic
            exact ⟨_, rfl, Or.inl ⟨rfl, hhandled⟩⟩

theorem ensures_settle (hp : p.Unhindered w) (hw : w.Tidy) (hr : r ∈ w.bus.records topic.name) :
    ((p.consumer ledger topic).settle r).Ensures w fun settled w' =>
      settled = true ∧ p.Handled topic w w' ∨ settled = false ∧ w' = w ∧ w.Defers topic r := by
  obtain ⟨disposition, w', hrun, hhandled⟩ := ensures_handle hp hw hr
  refine Job.ensures_bind (R := fun result w₁ => result = .ok disposition ∧ w₁ = w')
    (Job.ensures_outcome hrun ⟨rfl, rfl⟩) ?_
  rintro _ _ - ⟨rfl, rfl⟩
  rcases hhandled with ⟨rfl, h⟩ | ⟨rfl, h⟩
  · exact Job.ensures_pure (Or.inl ⟨rfl, h⟩)
  · exact Job.ensures_pure (Or.inr ⟨rfl, h⟩)

/-- The world once the record was committed. -/
def committed (topic : Topic) (r : Record) (w : World) : World :=
  { w with bus := w.bus.commit topic.subscription r.offset }

/-- A record that was handled and is committed is a step done. -/
theorem Handled.works (h : p.Handled topic w w') (hw : w.Tidy)
    (hunread : w.bus.unread topic = r :: rs) : p.Works 1 w (committed topic r w') where
  work := by
    have hcost := h.cost
    have hmem : r ∈ w.bus.unread topic := hunread ▸ List.mem_cons_self
    have hcommit := Bus.cost_commit hunread ((hw.ordered topic).sublist List.filter_sublist)
      (hw.last topic r (List.mem_filter.mp hmem).1)
    unfold workLeft
    rw [← h.bus] at hcommit
    change w'.store.cost p.backoff + (w'.bus.commit topic.subscription r.offset).cost + 1 ≤ _
    rw [← h.bus]
    omega
  serial := h.serial
  heads := by
    intro other
    change (w'.bus.log other).head ≤ _
    rw [h.bus]
    omega

/-- Records are handled and committed one after the other, up to one that is left for later. -/
theorem ensures_settleAll (hp : p.Unhindered w) (hw : w.Tidy)
    (hunread : w.bus.unread topic = rs ++ later) (done : Nat) :
    ((p.consumer ledger topic).settleAll rs done).Ensures w fun count w' =>
      ∃ steps, count = done + steps ∧ p.Works steps w w' ∧
        (steps = 0 → w' = w ∧ ∀ r ∈ rs.head?, w.Defers topic r) := by
  induction rs generalizing w done with
  | nil => exact Job.ensures_pure ⟨0, rfl, .refl w, fun _ => ⟨rfl, by simp⟩⟩
  | cons r rest ih =>
      have hmem : r ∈ w.bus.unread topic := hunread ▸ List.mem_cons_self
      have hr : r ∈ w.bus.records topic.name := (List.mem_filter.mp hmem).1
      refine Job.ensures_bind (ensures_settle hp hw hr) fun settled w₁ hrun hsettled => ?_
      rcases hsettled with ⟨rfl, hhandled⟩ | ⟨rfl, rfl, hdefers⟩
      · have hworks := hhandled.works hw hunread
        have hp₁ : p.Unhindered w₁ := by
          have hafter := hp.run ((p.consumer ledger topic).settle r).run
          rwa [hrun] at hafter
        have hp₂ : p.Unhindered (committed topic r w₁) :=
          hp₁.answer (.commit topic.subscription r.offset)
        have hw₁ := hhandled.tidy hw
        have hw₂ : (committed topic r w₁).Tidy := ⟨hw₁.rows, hw₁.ordered, hw₁.last, hw₁.known⟩
        have hunread₂ : (committed topic r w₁).bus.unread topic = rest ++ later := by
          change (w₁.bus.commit topic.subscription r.offset).unread topic = _
          rw [hhandled.bus]
          exact Bus.unread_commit hunread ((hw.ordered topic).sublist List.filter_sublist)
            (hw.last topic r hr)
        refine Job.ensures_bind (R := fun _ w' => w' = committed topic r w₁)
          ⟨(), _, rfl, rfl⟩ ?_
        rintro _ _ - rfl
        refine Job.ensures_mono (ih hp₂ hw₂ hunread₂ (done + 1)) ?_
        rintro count w' ⟨steps, rfl, hmore, -⟩
        refine ⟨1 + steps, by omega, hworks.trans hmore, fun hnone => ?_⟩
        omega
      · refine Job.ensures_pure ⟨0, rfl, .refl w₁, fun _ => ⟨rfl, fun r' hr' => ?_⟩⟩
        obtain rfl := Option.some.inj hr'
        exact hdefers

/-- A batch does as much work as it counts. If it does none, nothing is unread, or the first record
is left for later. -/
theorem ensures_batch (hp : p.Unhindered w) (hw : w.Tidy) (ledger : Ledger) (topic : Topic)
    (hsize : 1 ≤ p.settings.consumer.batchSize.toNat) :
    (p.consumer ledger topic).batch.Ensures w fun count w' => p.Works count w w' ∧
      (count = 0 → w' = w ∧ ∀ r ∈ (w.bus.unread topic).head?, w.Defers topic r) := by
  let size := p.settings.consumer.batchSize.toNat
  refine Job.ensures_bind (R := fun rs w' => rs = (w.bus.unread topic).take size ∧ w' = w)
    ⟨_, w, rfl, rfl, rfl⟩ ?_
  rintro _ _ - ⟨rfl, rfl⟩
  refine Job.ensures_mono (ensures_settleAll hp hw (List.take_append_drop size _).symm 0) ?_
  rintro count w' ⟨steps, rfl, hworks, hidle⟩
  rw [Nat.zero_add]
  refine ⟨hworks, fun hnone => ?_⟩
  obtain ⟨hsame, hhead⟩ := hidle hnone
  rw [List.head?_take, if_neg (by omega)] at hhead
  exact ⟨hsame, hhead⟩

end Pipeline
end Courier
