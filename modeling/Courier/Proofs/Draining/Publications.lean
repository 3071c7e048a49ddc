import Courier.Proofs.Draining.Work

/-!
Publication in a pipeline that nothing stops. Of every event that is due, the row is found. Then a
record is appended and the event marked, or a refusal is used up and the event postponed. Either
way there is less work left.
-/

namespace Courier

open Job

/-- What publishing an event does besides the work: it changes no row and no other event. -/
structure World.Publishes (w : World) (e : OutboxEvent) (w' : World) : Prop where
  rows : w'.store.notifications = w.store.notifications
  clock : w'.clock = w.clock
  ids : w'.store.outbox.map (·.id) = w.store.outbox.map (·.id)
  others : ∀ e' ∈ w.store.outbox, e'.id ≠ e.id → e' ∈ w'.store.outbox

/-- The event is still to be published, and is about a row. -/
structure World.Owes (w : World) (e : OutboxEvent) : Prop where
  mem : e ∈ w.store.outbox
  pending : e.status = .pending
  known : ∃ x ∈ w.store.notifications, x.id = e.notificationId

theorem World.Owes.exists_find {w : World} {e : OutboxEvent} (h : w.Owes e) :
    ∃ n, w.store.find? e.notificationId = some n := by
  obtain ⟨x, hx, hid⟩ := h.known
  cases hfind : w.store.find? e.notificationId with
  | none => exact absurd hid (Store.find?_none hfind x hx)
  | some n => exact ⟨n, rfl⟩

theorem World.Publishes.owes {w w' : World} {e e' : OutboxEvent} (h : w.Publishes e w')
    (howes : w.Owes e') (hne : e'.id ≠ e.id) : w'.Owes e' where
  mem := h.others e' howes.mem hne
  pending := howes.pending
  known := by
    rw [h.rows]
    exact howes.known

namespace World

variable {w : World} {id : Uuid} {events : List OutboxEvent}

theorem answer_markPublished (hnone : w.store.outboxError = none)
    (hchange : Store.changeEvent id (·.markPublished w.now) w.store.outbox = some events) :
    w.answer (.markPublished id) =
      (.done (.ok ()), { w with store := { w.store with outbox := events } }) := by
  simp only [answer, Store.markPublished, Store.changing_of_changeEvent hnone hchange, withStore]

theorem answer_markFailed {error : String} {next : Instant} (hnone : w.store.outboxError = none)
    (hchange : Store.changeEvent id (·.markFailed error next w.now) w.store.outbox = some events) :
    w.answer (.markFailed id error next) =
      (.done (.ok ()), { w with store := { w.store with outbox := events } }) := by
  simp only [answer, Store.markFailed, Store.changing_of_changeEvent hnone hchange, withStore]

end World

namespace Pipeline

variable {p : Pipeline} {w w' : World} {e : OutboxEvent} {change : OutboxEvent → OutboxEvent}
  {events : List OutboxEvent} {bus : Bus}

/-- The world once something came over the bus and the events were changed. -/
private def marked (w : World) (bus : Bus) (events : List OutboxEvent) : World :=
  { w with bus, store := { w.store with outbox := events } }

private theorem changes_marked {ledger : Ledger} {what : Tally}
    (hnodup : (w.store.outbox.map (·.id)).Nodup) (he : e ∈ w.store.outbox)
    (hchange : Store.changeEvent e.id change w.store.outbox = some events)
    (hids : ∀ e, (change e).id = e.id)
    (hcost : (change e).cost + bus.cost + 1 ≤ e.cost + w.bus.cost)
    (hheads : ∀ topic, (bus.log topic).head ≤ (w.bus.log topic).head + 1) :
    p.Works 1 w ((marked w bus events).count ledger what) ∧
      w.Publishes e ((marked w bus events).count ledger what) := by
  have hsum := Store.sum_changeEvent OutboxEvent.cost hnodup he hchange
  constructor
  · refine ⟨?_, ?_, ?_⟩
    · unfold workLeft Store.cost
      rw [World.store_count, World.bus_count]
      change (w.store.notifications.map p.backoff.cost).sum + (events.map OutboxEvent.cost).sum +
        bus.cost + 1 ≤ _
      omega
    · rw [World.serial_count]
      exact Nat.le_succ _
    · rw [World.bus_count]
      exact hheads
  · refine ⟨?_, (marked w bus events).clock_answer (.tally ledger what), ?_, fun e' he' hne => ?_⟩
    · rw [World.store_count]
      rfl
    · rw [World.store_count]
      exact Store.ids_changeEvent hids hchange
    · rw [World.store_count]
      exact (Store.mem_changeEvent hnodup hchange).mpr (Or.inr ⟨he', hne⟩)

/-- One event is published, or postponed. -/
theorem ensures_publishEvent (hp : p.Unhindered w) (hnodup : (w.store.outbox.map (·.id)).Nodup)
    (he : w.Owes e) :
    (p.publication.publishEvent w.now e).Ensures w fun _ w' =>
      p.Works 1 w w' ∧ w.Publishes e w' := by
  have hcost : e.cost = recordCost e.topic + 1 := if_pos he.pending
  obtain ⟨n, hfind⟩ := he.exists_find
  refine Job.ensures_bind (R := fun found w' => found = some n ∧ w = w')
    ⟨_, w, rfl, hfind, rfl⟩ ?_
  rintro _ _ - ⟨rfl, rfl⟩
  let key := some n.id.text
  let payload := (Envelope.ofNotification n w.now).encode
  let bus := (w.bus.publish e.topic key payload w.now).2
  have hpublish : (publishNotification e.topic n).run.run w =
      (.done (w.bus.publish e.topic key payload w.now).1, { w with bus }) := rfl
  have hp' : p.Unhindered { w with bus } := hp.answer (.publish e.topic key payload)
  rcases w.bus.publish_cost e.topic key payload w.now with ⟨⟨error, hrefused⟩, hless, hlogs⟩ | hok
  · -- A refusal was used up, so the event is postponed.
    rw [hrefused] at hpublish
    obtain ⟨later, hlater⟩ := hp.timely.postpones
    obtain ⟨events, hchange⟩ := Store.exists_changeEvent (·.markFailed error.message later w.now)
      he.mem
    refine Job.ensures_bind (R := fun result w' => result = .error error ∧ w' = { w with bus })
      (Job.ensures_outcome hpublish ⟨rfl, rfl⟩) ?_
    rintro _ _ - ⟨rfl, rfl⟩
    refine Job.ensures_bind (R := fun next w' => later = next ∧ w' = { w with bus }) ?_ ?_
    · rw [hlater]
      exact Job.ensures_pure ⟨rfl, rfl⟩
    rintro _ _ - ⟨rfl, rfl⟩
    refine Job.ensures_bind (R := fun _ w' => w' = marked w bus events)
      (Job.ensures_store (World.answer_markFailed hp'.outboxError hchange) rfl rfl) ?_
    rintro _ _ - rfl
    refine Job.ensures_call rfl (changes_marked hnodup he.mem hchange (fun _ => rfl) ?_ ?_)
    · have hless : bus.cost + 1 = w.bus.cost := hless
      change e.cost + bus.cost + 1 ≤ _
      omega
    · intro topic
      rw [hlogs]
      omega
  · -- The record that was appended costs less than the event did.
    have hbus : bus = w.bus.append e.topic key payload w.now := congrArg Prod.snd hok
    rw [hok] at hpublish
    obtain ⟨events, hchange⟩ := Store.exists_changeEvent (·.markPublished w.now) he.mem
    refine Job.ensures_bind (R := fun result w' => result = .ok () ∧ w' = { w with bus })
      (Job.ensures_outcome hpublish ⟨rfl, rfl⟩) ?_
    rintro _ _ - ⟨rfl, rfl⟩
    refine Job.ensures_bind (R := fun _ w' => w' = marked w bus events)
      (Job.ensures_store (World.answer_markPublished hp'.outboxError hchange) rfl rfl) ?_
    rintro _ _ - rfl
    refine Job.ensures_call rfl (changes_marked hnodup he.mem hchange (fun _ => rfl) ?_ ?_)
    · have happend := w.bus.cost_append_le e.topic key payload w.now
      rw [← hbus] at happend
      change 0 + bus.cost + 1 ≤ _
      omega
    · intro topic
      rw [hbus]
      exact w.bus.head_append_le e.topic topic key payload w.now

/-- Events that are to be published one after the other. -/
private theorem ensures_events {now : Instant} {due : List OutboxEvent} (hp : p.Unhindered w)
    (hnodup : (w.store.outbox.map (·.id)).Nodup) (hdue : ∀ e ∈ due, w.Owes e)
    (hdistinct : (due.map (·.id)).Nodup) (hnow : w.now = now) :
    (due.forM (p.publication.publishEvent now)).Ensures w fun _ w' =>
      p.Works due.length w w' ∧ (due = [] → w' = w) := by
  induction due generalizing w with
  | nil => exact Job.ensures_pure ⟨.refl w, fun _ => rfl⟩
  | cons e due ih =>
      subst hnow
      refine Job.ensures_bind (ensures_publishEvent hp hnodup (hdue e List.mem_cons_self)) ?_
      rintro _ w₁ hrun ⟨hworks, hpublishes⟩
      have hp₁ : p.Unhindered w₁ := by
        have hafter := hp.run (p.publication.publishEvent w.now e).run
        rwa [hrun] at hafter
      rw [List.map_cons, List.nodup_cons] at hdistinct
      have hdue₁ : ∀ e' ∈ due, w₁.Owes e' := fun e' he' =>
        hpublishes.owes (hdue e' (List.mem_cons_of_mem e he')) fun heq =>
          hdistinct.1 (List.mem_map.mpr ⟨e', he', heq⟩)
      refine Job.ensures_mono (ih hp₁ (hpublishes.ids ▸ hnodup) hdue₁ hdistinct.2
        (congrArg Clock.now hpublishes.clock)) ?_
      rintro _ w' ⟨hmore, -⟩
      refine ⟨?_, fun hnil => absurd hnil (List.cons_ne_nil e due)⟩
      rw [List.length_cons, Nat.add_comm]
      exact hworks.trans hmore

/-- What is due is published. If there is nothing, nothing is done. -/
theorem ensures_publishDue (hp : p.Unhindered w) (hnodup : (w.store.outbox.map (·.id)).Nodup)
    (hknown : ∀ e ∈ w.store.outbox, ∃ x ∈ w.store.notifications, x.id = e.notificationId)
    {limit : Nat} (hlimit : 1 ≤ limit) :
    (p.publication.publishDue limit).Ensures w fun count w' => p.Works count w w' ∧
      (count = 0 → w' = w ∧ ∀ e ∈ w.store.outbox, e.isDue w.now = false) := by
  let due := ((w.store.outbox.filter (·.isDue w.now)).mergeSort
    fun a b => a.createdAt ≤ b.createdAt).take limit
  have hfetch : w.store.dueEvents w.now limit = (.ok due, w.store) := by
    rw [Store.dueEvents, Store.guarded_of_none .outbox hp.outboxError]
  have hanswer : w.answer (.dueEvents w.now limit) = (.done (.ok due), w) := by
    simp only [World.answer, hfetch, World.withStore]
  obtain ⟨hmem, hdistinct, -⟩ := (World.effect_of_answer hanswer).of_dueEvents
  refine Job.ensures_bind (R := fun now w' => w.now = now ∧ w = w')
    (Job.ensures_call rfl ⟨rfl, rfl⟩) ?_
  rintro _ _ - ⟨rfl, rfl⟩
  refine Job.ensures_bind (R := fun events w' => due = events ∧ w = w')
    (Job.ensures_store hanswer rfl ⟨rfl, rfl⟩) ?_
  rintro _ _ - ⟨rfl, rfl⟩
  have hdue : ∀ e ∈ due, w.Owes e := fun e he =>
    ⟨(hmem e he).1, (hmem e he).2, hknown e (hmem e he).1⟩
  refine Job.ensures_bind (ensures_events hp hnodup hdue (hdistinct hnodup) rfl) ?_
  rintro _ w' - ⟨hworks, hnone⟩
  refine Job.ensures_pure ⟨hworks, fun hzero => ?_⟩
  have hempty : due = [] := List.eq_nil_of_length_eq_zero hzero
  have hsorted := (List.take_eq_nil_iff.mp hempty).resolve_left (Nat.one_le_iff_ne_zero.mp hlimit)
  have hall : w.store.outbox.filter (·.isDue w.now) = [] := by
    have hperm := List.mergeSort_perm (w.store.outbox.filter (·.isDue w.now))
      fun a b => a.createdAt ≤ b.createdAt
    rw [hsorted] at hperm
    exact hperm.nil_eq.symm
  exact ⟨hnone hempty, fun e he => Bool.eq_false_iff.mpr (List.filter_eq_nil_iff.mp hall e he)⟩

end Pipeline
end Courier
