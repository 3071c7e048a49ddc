import Courier.Config.Fault
import Courier.Proofs.Alone.Promptness
import Courier.Proofs.Publication

/-!
How long events are put off whose publication fails. The delay that counts is the one of the
configuration, but for delays of `2 ^ 63` milliseconds or more five seconds are taken. Main rule: if
some moment comes that much later, cycles do not break off, and an event that could not be published
is put off to just that moment.
-/

namespace Courier

namespace Publication

/-- The publication that has as its delay the one that counts. -/
def counted (p : Publication) : Publication := ⟨p.postponement, p.ledger⟩

theorem postponement_counted (p : Publication) : p.counted.postponement = p.postponement := by
  unfold counted postponement
  dsimp only
  by_cases hshift : Instant.canShiftBy p.retryDelay = true
  · rw [if_pos hshift, if_pos hshift]
  · rw [if_neg hshift]
    rfl

/-- Nothing else of the delay is used. -/
theorem publishDue_counted (p : Publication) (limit : Nat) :
    p.counted.publishDue limit = p.publishDue limit := by
  have hevent : p.counted.publishEvent = p.publishEvent := by
    unfold publishEvent
    rw [postponement_counted]
    rfl
  unfold publishDue
  rw [hevent]

end Publication

namespace Config

/-- For how many nanoseconds an event is put off. -/
def postponedNanos (c : Config) : Nat :=
  if c.outboxPublishRetryDelayMs.toNat < 2 ^ 63 then
    c.outboxPublishRetryDelayMs.toNat * 1_000_000
  else 5_000_000_000

/-- Publications with the delay of the configuration. -/
def publication (c : Config) (ledger : Ledger) : Publication :=
  ⟨c.pipeline.publishRetryDelay, ledger⟩

theorem nanos_postponement (c : Config) (ledger : Ledger) :
    (c.publication ledger).postponement.nanos = c.postponedNanos := by
  have hdelay : (c.publication ledger).retryDelay.nanos =
      c.outboxPublishRetryDelayMs.toNat * 1_000_000 := Duration.nanos_ofMillis_toNat _
  unfold Publication.postponement Instant.canShiftBy Instant.maxShift postponedNanos
  by_cases hshort : c.outboxPublishRetryDelayMs.toNat < 2 ^ 63
  · rw [if_pos hshort, if_pos (decide_eq_true (by omega)), hdelay]
  · rw [if_neg hshort, if_neg (by rw [decide_eq_true_eq]; omega)]
    rfl

end Config

namespace Dispatcher

variable {d d' : Dispatcher} {next : Instant} {due : List OutboxEvent} {done : List Handling}
  {x : Handling}

/-- What was handled stands in the outbox as that has left it. -/
theorem HandledInTurn.settled_mem (h : d.HandledInTurn next due done d')
    (hdue : ∀ e ∈ due, e ∈ d.world.store.outbox) (hnodup : (due.map (·.id)).Nodup)
    (hx : x ∈ done) :
    x.event ∈ d.world.store.outbox ∧ x.settled d.world.now next ∈ d'.world.store.outbox := by
  have hbegins : done.map (·.event) <+: due := h.events ▸ List.takeWhile_prefix _
  have hmem := hdue _ (hbegins.subset (List.mem_map_of_mem hx))
  refine ⟨hmem, ?_⟩
  rw [h.handled.outbox]
  refine List.mem_map.mpr ⟨x.event, hmem, ?_⟩
  have hids : (done.map (·.event.id)).Nodup := by
    have hsub := (hbegins.map (·.id)).sublist
    rw [List.map_map] at hsub
    exact hnodup.sublist hsub
  obtain ⟨y, hfirst⟩ : ∃ y, done.find? (·.event.id = x.event.id) = some y :=
    Option.isSome_iff_exists.mp (List.find?_isSome.mpr ⟨x, hx, by simp⟩)
  have hid : y.event.id = x.event.id := by simpa using List.find?_some hfirst
  obtain rfl := List.inj_on_of_nodup_map hids (List.mem_of_find?_eq_some hfirst) hx hid
  rw [Handling.after, hfirst]

/-- If the delay that counts leads to some moment, a cycle returns, whatever waits in the store and
however publications fail; and what was tried and failed is put off to that moment. -/
theorem run_publishDue_of_follows {p : Publication}
    (hids : (d.world.store.outbox.map (·.id)).Nodup)
    (hnext : d.world.now.Follows p.postponement next) (limit : Nat) :
    ∃ result, ∃ done : List Handling, ∃ d',
      host.run (p.publishDue limit).run d = (.done result, d') ∧
      d'.tried = d.tried ++ done.map (·.dispatched d.world.now) ∧
      ∀ x ∈ done, x.event ∈ d.world.store.outbox ∧
        x.settled d.world.now next ∈ d'.world.store.outbox := by
  cases herror : d.world.store.outboxError with
  | some message =>
      -- The error that waits is all that the cycle comes to.
      have hdue : d.world.store.dueEvents d.world.now limit =
          (.error (.database message), { d.world.store with outboxError := none }) := by
        rw [Store.dueEvents, Store.guarded_of_some .outbox herror]
        rfl
      have hanswer : host.answer d (.dueEvents d.world.now limit) =
          (.done (.error (.database message)), { d with world := { d.world with
            store := { d.world.store with outboxError := none } } }) := by
        change (((d.world.answer (.dueEvents d.world.now limit)).1,
          { d with world := (d.world.answer (.dueEvents d.world.now limit)).2 }) : _ × _) = _
        rw [World.answer, hdue]
        rfl
      refine ⟨_, [], _, (Host.run_ask rfl).trans (Host.run_ask hanswer), ?_,
        fun x hx => absurd hx List.not_mem_nil⟩
      exact (List.append_nil _).symm
  | none =>
      obtain ⟨due, hdue, hfirst⟩ := Store.dueEvents_firstDue herror hids d.world.now limit
      have hmem : ∀ e ∈ due, e ∈ d.world.store.outbox := fun e he => (hfirst.isDue e he).1
      obtain ⟨done, d', hrun, hdone⟩ := run_forM_publishEvent (p := p.counted) herror hids hmem
        (hfirst.ids_nodup hids) hnext
      refine ⟨(d.world.store.ending due).map fun _ => due.length, done, d', ?_,
        hdone.handled.tried, fun x hx => hdone.settled_mem hmem (hfirst.ids_nodup hids) hx⟩
      rw [← p.publishDue_counted, run_publishDue p.counted limit hdue, hrun]

/-- Let the ids of the events be distinct, and let some moment come as much later as the delay says
that counts. Then a cycle returns, however publications fail, and an event that could not be
published is put off to just that moment. -/
theorem publishDue_puts_off (c : Config) (ledger : Ledger) (limit : Nat)
    (hids : (d.world.store.outbox.map (·.id)).Nodup)
    (hlast : d.world.now.nanosSinceEpoch + c.postponedNanos ≤ Instant.last.nanosSinceEpoch) :
    ∃ next : Instant,
      next.nanosSinceEpoch = d.world.now.nanosSinceEpoch + c.postponedNanos ∧
      ∃ result, ∃ done : List Handling, ∃ d',
        host.run ((c.publication ledger).publishDue limit).run d = (.done result, d') ∧
        d'.tried = d.tried ++ done.map (·.dispatched d.world.now) ∧
        ∀ x ∈ done, ∀ error, x.result = .error error → x.event ∈ d.world.store.outbox ∧
          ∃ e ∈ d'.world.store.outbox, e.id = x.event.id ∧ e.status = x.event.status ∧
            e.nextAttemptAt = some next := by
  have hwhole := d.world.clock.frac_now_lt
  rw [← c.nanos_postponement ledger] at hlast ⊢
  obtain ⟨next, hplus⟩ := (Instant.exists_plus_iff hwhole _).mpr hlast
  have hfollows := Instant.add?_eq_some_iff.mp (Instant.add?_of_plus hplus)
  obtain ⟨result, done, d', hrun, htried, hsettled⟩ :=
    run_publishDue_of_follows hids hfollows limit
  refine ⟨next, Instant.nanosSinceEpoch_of_plus hwhole hplus, result, done, d', hrun, htried, ?_⟩
  intro x hx error herror
  obtain ⟨hmem, hmem'⟩ := hsettled x hx
  refine ⟨hmem, _, hmem', x.settled_id _ _, ?_⟩
  rw [Handling.settled, herror]
  exact ⟨rfl, rfl⟩

/-- A world with a promise to publish a notification, from which the first publication is lost. -/
private def cutOff : Dispatcher where
  world := { Sample.world [] with
    store := {
      notifications := [.ofRequest Sample.request (.ofSerial 0) .epoch]
      outbox := [.pending (.ofSerial 1) (.ofSerial 0) Topic.send.name .epoch] } }
  faults := [some (.publish Topic.send.name "timed out")]

private def config (delay : UInt64) : Config :=
  { Config.standard with outboxPublishRetryDelayMs := delay }

/-- With a delay of a second the event is put off by a second. -/
theorem publishDue_puts_off_second :
    (cutOff.world.store.outbox.map (·.id)).Nodup ∧
      cutOff.world.now.nanosSinceEpoch + (config 1000).postponedNanos ≤
        Instant.last.nanosSinceEpoch ∧
      ∃ next : Instant, next.nanosSinceEpoch = cutOff.world.now.nanosSinceEpoch + 1_000_000_000 ∧
        ∃ e ∈ (host.run (((config 1000).publication .loops).publishDue 10).run
            cutOff).2.world.store.outbox,
          e.nextAttemptAt = some next := by
  have hids : (cutOff.world.store.outbox.map (·.id)).Nodup := by decide +kernel
  have hlast : cutOff.world.now.nanosSinceEpoch + (config 1000).postponedNanos ≤
      Instant.last.nanosSinceEpoch := by decide +kernel
  obtain ⟨next, hnext, result, done, d', hrun, htried, hfailed⟩ :=
    publishDue_puts_off (config 1000) .loops 10 hids hlast
  have hlost : (host.run (((config 1000).publication .loops).publishDue 10).run
      cutOff).2.tried.map (·.result.isOk) = [false] := by decide +kernel
  rw [hrun] at hlost ⊢
  have hresults : done.map (·.result.isOk) = [false] := by
    rw [← hlost]
    dsimp only
    rw [htried, List.map_append, List.map_map]
    rfl
  obtain ⟨x, rfl, hx⟩ := List.map_eq_singleton_iff.mp hresults
  cases hresult : x.result with
  | ok _ =>
      rw [hresult] at hx
      cases hx
  | error error =>
      obtain ⟨-, e, he, -, -, hput⟩ := hfailed x List.mem_cons_self error hresult
      exact ⟨hids, hlast, next, hnext, e, he, hput⟩

/-- Though the configuration asks for the longest delay there is, the event is put off by five
seconds. -/
theorem publishDue_overlong_soon :
    (config 18_446_744_073_709_551_615).fault? = none ∧
      (host.run (((config 18_446_744_073_709_551_615).publication .loops).publishDue 10).run
        cutOff).2.world.store.outbox.map (fun e => e.nextAttemptAt.map (·.nanosSinceEpoch)) =
          [some (cutOff.world.now.nanosSinceEpoch + 5_000_000_000)] ∧
      cutOff.world.now.nanosSinceEpoch + 5_000_000_000 <
        min (cutOff.world.now.nanosSinceEpoch + 18_446_744_073_709_551_615 * 1_000_000)
          Instant.last.nanosSinceEpoch := by
  decide +kernel

end Dispatcher
end Courier
