import Courier.Proofs.Alone.Promptness
import Courier.Proofs.Draining.Batches
import Courier.Proofs.Draining.Outcomes
import Courier.Proofs.Turns.Lifecycle

/-!
Messages delivered one after the other where nothing keeps the pipeline from it. A message whose
row has gone beyond it is skipped; for any other one a channel is called, and the row becomes what
comes of that. So what was given up once and is published again, however often, is attempted just
once: after that its row has gone beyond each of the messages.
-/

namespace Courier

/-! ## Pipelines that can deliver -/

/-- Nothing in the world keeps the pipeline from delivering. -/
structure Pipeline.Unobstructed (p : Pipeline) (w : World) : Prop where
  saveError : w.store.saveError = none
  channels : ∀ channel ∈ w.channels, channel.Settles
  finds : ∀ medium, ∃ place name,
    p.registry.find medium = .ok (place, name) ∧ place < w.channels.length
  delays : ∀ medium, ∃ t, w.now.plus (p.backoff.policyFor medium).maxDelay = .ok t

namespace Pipeline.Unobstructed

variable {p : Pipeline} {w : World} {n : Notification}

theorem answer (h : p.Unobstructed w) (c : Call) : p.Unobstructed (w.answer c).2 := by
  obtain ⟨hlength, hchannels⟩ := World.settles_answer h.channels c
  have hnow : (w.answer c).2.now = w.now := congrArg Clock.now (w.clock_answer c)
  refine ⟨World.waiting_answer .write h.saveError c, hchannels, ?_, ?_⟩
  · rw [hlength]
    exact h.finds
  · rw [hnow]
    exact h.delays

theorem run {α : Type} (h : p.Unobstructed w) (program : Prog α) :
    p.Unobstructed (program.run w).2 :=
  program.keeps_run h fun h c => h.answer c

/-- An attempt at a row calls one channel, once, and the row becomes what comes of that. -/
theorem comesTo_attempt (h : p.Unobstructed w) (hn : w.store.Keeps n) :
    ∃ outcome w' place y events,
      (p.delivery.attempt n).ComesTo w outcome w' [(place, n)] ∧
      n.Becomes ⟨(· = p.backoff), True⟩ y ∧ w'.store = w.store.amend y events := by
  obtain ⟨place, name, hfind, hplace⟩ := h.finds n.medium
  obtain ⟨decision, hdecide⟩ : ∃ decision, p.delivery.decision n w = .ok decision :=
    Backoff.exists_decide w.clock.frac_now_lt (h.delays n.medium) _ _
  obtain ⟨result, hsends, hfailure, -⟩ := World.sendAndWait_settles h.channels hplace n
  have hgoes := Delivery.runsAs_attempt_goes hn hdecide hfind
  have hconclude (outcome : DeliveryOutcome) (y : Notification) (events : List OutboxEvent) :
      w.store.conclude outcome y events = (.ok outcome, w.store.amend y events) := by
    rw [Store.conclude, h.saveError]
  have htransition : ∃ outcome y events, n.Becomes ⟨(· = p.backoff), True⟩ y ∧
      w.store.transition n w.now w.takeId.1 decision result =
        (.ok outcome, w.store.amend y events) := by
    unfold Store.transition
    cases result with
    | ok _ => exact ⟨_, _, _, .sent, hconclude _ _ _⟩
    | error error =>
        rw [Notification.verdict_of_failure (hfailure error rfl)]
        cases decision with
        | retry next =>
            exact ⟨_, _, _, .failed (hfailure error rfl) (.retry rfl hdecide), hconclude _ _ _⟩
        | giveUp reason =>
            exact ⟨_, _, _, .failed (hfailure error rfl) (.giveUp rfl hdecide), hconclude _ _ _⟩
  obtain ⟨outcome, y, events, hbecomes, htransition⟩ := htransition
  have hdone : (w.answer (.send place n)).1 = .done result := hsends
  obtain ⟨outcome', w', sends, hcomes, rfl, rfl, hstore⟩ := Job.exists_comesTo
    (fun outcome' w' sends => outcome' = outcome ∧ sends = [(place, n)] ∧
      w'.store = w.store.amend y events)
    (Prog.runsAs_mono hgoes fun close w' calls hgoes => by
      unfold Delivery.Goes at hgoes
      rw [hdone] at hgoes
      obtain ⟨haddressed, hclose, hstore⟩ := hgoes
      rw [htransition] at hclose hstore
      exact ⟨outcome, hclose, rfl, haddressed, hstore⟩)
  exact ⟨_, w', place, y, events, hcomes, hbecomes, hstore⟩

end Pipeline.Unobstructed

/-! ## Rows that are amended -/

namespace Store

variable {store : Store} {x y n : Notification} {events : List OutboxEvent}

theorem ids_amend (store : Store) (y : Notification) (events : List OutboxEvent) :
    (store.amend y events).notifications.map (·.id) = store.notifications.map (·.id) := by
  rw [amend, List.map_map]
  refine List.map_congr_left fun n _ => ?_
  dsimp only [Function.comp_apply]
  split
  · next hid => exact hid.symm
  · rfl

theorem Distinct.ids_amend (h : store.Distinct) (y : Notification) (events : List OutboxEvent) :
    ((store.amend y events).notifications.map (·.id)).Nodup := by
  rw [Store.ids_amend]
  exact h.ids

theorem Distinct.amend (h : store.Distinct) (hx : x ∈ store.notifications) (hid : y.id = x.id)
    (hkey : y.idempotencyKey = x.idempotencyKey) (events : List OutboxEvent) :
    (store.amend y events).Distinct where
  ids := h.ids_amend y events
  keys := by
    have hkeys : (store.amend y events).notifications.map (·.idempotencyKey) =
        store.notifications.map (·.idempotencyKey) := by
      rw [Store.amend, List.map_map]
      refine List.map_congr_left fun n hn => ?_
      dsimp only [Function.comp_apply]
      split
      · next hsame => rw [eq_of_id_eq h.ids hn hx (hsame.trans hid), hkey]
      · rfl
    rw [hkeys]
    exact h.keys

theorem find?_amend_self (h : store.Distinct) (hx : x ∈ store.notifications) (hid : y.id = x.id)
    (events : List OutboxEvent) : (store.amend y events).find? x.id = some y := by
  have hy : y ∈ (store.amend y events).notifications :=
    List.mem_map.mpr ⟨x, hx, if_pos hid.symm⟩
  rw [← hid]
  exact find?_of_mem (h.ids_amend y events) hy

theorem find?_amend_of_ne (h : store.Distinct) (hn : store.find? n.id = some x)
    (hne : n.id ≠ y.id) (events : List OutboxEvent) :
    (store.amend y events).find? n.id = some x := by
  obtain ⟨hx, hid⟩ := find?_some hn
  have hmem : x ∈ (store.amend y events).notifications :=
    List.mem_map.mpr ⟨x, hx, if_neg (hid ▸ hne)⟩
  rw [← hid]
  exact find?_of_mem (h.ids_amend y events) hmem

end Store

/-! ## One message after the other -/

/-- The messages are delivered in order, each to the row that it finds, and channels are called
for those that are attempted, the latest first. -/
inductive Pipeline.Delivers (p : Pipeline) :
    World → List Notification → World → List (Nat × Notification) → Prop
  | nil {w} : Delivers p w [] w []
  | skips {w w' m ms x sends} (hfind : w.store.find? m.id = some x) (houtdates : x.Outdates m)
      (hrest : Delivers p w ms w' sends) : Delivers p w (m :: ms) w' sends
  | attempts {w w₁ w' m ms x y outcome place events more} (hfind : w.store.find? m.id = some x)
      (hopen : ¬ x.Outdates m)
      (hattempt : (p.delivery.attempt x).ComesTo w outcome w₁ [(place, x)])
      (hbecomes : x.Becomes ⟨(· = p.backoff), True⟩ y)
      (hstore : w₁.store = w.store.amend y events) (hrest : Delivers p w₁ ms w' more) :
      Delivers p w (m :: ms) w' (more ++ [(place, x)])

namespace Pipeline.Delivers

variable {p : Pipeline} {w w₁ w' : World} {m n x y : Notification} {ms ms' : List Notification}
  {sends more : List (Nat × Notification)}

theorem append (h : p.Delivers w ms w₁ sends) (h' : p.Delivers w₁ ms' w' more) :
    p.Delivers w (ms ++ ms') w' (more ++ sends) := by
  induction h with
  | nil =>
      rw [List.append_nil]
      exact h'
  | skips hfind houtdates _ ih => exact .skips hfind houtdates (ih h')
  | attempts hfind hopen hattempt hbecomes hstore _ ih =>
      rw [← List.append_assoc]
      exact .attempts hfind hopen hattempt hbecomes hstore (ih h')

theorem exists_split (h : p.Delivers w (ms ++ ms') w' sends) :
    ∃ w₁ before after, p.Delivers w ms w₁ before ∧ p.Delivers w₁ ms' w' after ∧
      sends = after ++ before := by
  induction ms generalizing w sends with
  | nil => exact ⟨w, [], sends, .nil, h, (List.append_nil sends).symm⟩
  | cons m ms ih =>
      cases h with
      | skips hfind houtdates hrest =>
          obtain ⟨w₁, before, after, hbefore, hafter, rfl⟩ := ih hrest
          exact ⟨w₁, before, after, .skips hfind houtdates hbefore, hafter, rfl⟩
      | @attempts _ w₂ _ _ _ x _ _ place _ _ hfind hopen hattempt hbecomes hstore hrest =>
          obtain ⟨w₁, before, after, hbefore, hafter, rfl⟩ := ih hrest
          exact ⟨w₁, before ++ [(place, x)], after,
            .attempts hfind hopen hattempt hbecomes hstore hbefore, hafter, List.append_assoc ..⟩

/-- Messages that their rows have gone beyond change nothing. -/
theorem of_outdated (h : ∀ m ∈ ms, ∃ x, w.store.find? m.id = some x ∧ x.Outdates m) :
    p.Delivers w ms w [] := by
  induction ms with
  | nil => exact .nil
  | cons m ms ih =>
      rw [List.forall_mem_cons] at h
      obtain ⟨⟨x, hfind, houtdates⟩, hrest⟩ := h
      exact .skips hfind houtdates (ih hrest)

end Pipeline.Delivers

/-- What an attempt writes keeps the rows apart. -/
theorem Notification.Becomes.distinct {terms : Terms} {store : Store} {m x y : Notification}
    (h : x.Becomes terms y) (hopen : ¬ x.Outdates m) (hstore : store.Distinct)
    (hx : x ∈ store.notifications) (events : List OutboxEvent) :
    y.id = x.id ∧ (store.amend y events).Distinct := by
  have hadvances := h.advances fun hsent => hopen (Or.inl hsent)
  exact ⟨hadvances.id, hstore.amend hx hadvances.id hadvances.idempotencyKey events⟩

/-- Where nothing keeps the pipeline from it, all messages are delivered that are about rows. -/
theorem Pipeline.Unobstructed.delivers {p : Pipeline} {w : World} {ms : List Notification}
    (h : p.Unobstructed w) (hw : w.store.Distinct)
    (hknown : ∀ m ∈ ms, m.id ∈ w.store.notifications.map (·.id)) :
    ∃ w' sends, p.Delivers w ms w' sends := by
  induction ms generalizing w with
  | nil => exact ⟨w, [], .nil⟩
  | cons m ms ih =>
      rw [List.forall_mem_cons] at hknown
      obtain ⟨hm, hms⟩ := hknown
      obtain ⟨x, hx, hid⟩ := List.mem_map.mp hm
      have hfind : w.store.find? m.id = some x := hid ▸ Store.find?_of_mem hw.ids hx
      by_cases houtdates : x.Outdates m
      · obtain ⟨w', sends, hrest⟩ := ih h hw hms
        exact ⟨w', sends, .skips hfind houtdates hrest⟩
      · obtain ⟨outcome, w₁, place, y, events, hattempt, hbecomes, hstore⟩ :=
          h.comesTo_attempt ⟨hw.ids, hw.keys, hx⟩
        have hnext : p.Unobstructed w₁ := by
          have hafter := h.run (p.delivery.attempt x).run
          rwa [hattempt.run] at hafter
        obtain ⟨w', sends, hrest⟩ := ih hnext
          (hstore ▸ (hbecomes.distinct houtdates hw hx events).2)
          (by rwa [hstore, Store.ids_amend])
        exact ⟨w', _, .attempts hfind houtdates hattempt hbecomes hstore hrest⟩

/-! ## Rows that were given up -/

namespace Notification

/-- The notification was given up, having used up all its attempts, and its count can still
grow. -/
structure IsSpent (n : Notification) (policy : RetryPolicy) : Prop where
  status : n.status = .deadLettered
  attempts : policy.maxAttempts ≤ n.retryCount
  room : n.retryCount ≠ 0xffffffff

/-- A notification that was given up was sent after all, or has failed once more. -/
def Revives (n y : Notification) : Prop :=
  y.status = .sent ∨ y.status = .deadLettered ∧ y.retryCount.toNat = n.retryCount.toNat + 1

variable {n m y : Notification}

theorem Revives.outdates (h : n.Revives y) (hcount : m.retryCount ≤ n.retryCount) :
    y.Outdates m := by
  refine h.imp_right fun ⟨_, hmore⟩ => ?_
  have hle := UInt32.le_iff_toNat_le.mp hcount
  exact UInt32.lt_iff_toNat_lt.mpr (by omega)

/-- One more attempt at a notification without attempts left sends it, or gives it up again. -/
theorem IsSpent.revives {b : Backoff} (h : n.IsSpent (b.policyFor n.medium)) {faults : Prop}
    (hbecomes : n.Becomes ⟨(· = b), faults⟩ y) : n.Revives y := by
  cases hbecomes with
  | sent => exact Or.inl rfl
  | failed _ hruling =>
      have hroom : n.retryCount.toNat ≠ 0xffffffff :=
        fun hfull => h.room (UInt32.toNat_inj.mp hfull)
      have hbound := n.retryCount.toNat_lt
      have hup := toNat_countUp n.retryCount
      cases hruling with
      | retry hterms hdecide =>
          obtain rfl := hterms
          have hleft := UInt32.lt_iff_toNat_lt.mp (Backoff.lt_of_decide_retry hdecide)
          have hspent := UInt32.le_iff_toNat_le.mp h.attempts
          omega
      | giveUp hterms hdecide =>
          refine Or.inr ⟨rfl, ?_⟩
          change (countUp n.retryCount).toNat = _
          omega

end Notification

/-- How often channels were called for a notification. -/
def callsFor (id : Uuid) (sends : List (Nat × Notification)) : Nat :=
  sends.countP (·.2.id == id)

theorem callsFor_concat (id : Uuid) (sends : List (Nat × Notification)) (place : Nat)
    (x : Notification) :
    callsFor id (sends ++ [(place, x)]) = callsFor id sends + if x.id = id then 1 else 0 := by
  rw [callsFor, List.countP_append, List.countP_singleton, ← callsFor]
  simp only [beq_iff_eq]

namespace Pipeline.Delivers

variable {p : Pipeline} {w w' : World} {n y : Notification} {ms : List Notification}
  {sends : List (Nat × Notification)}

/-- A row that has gone beyond all messages about it stays as it is, and no channel is called. -/
theorem rests (h : p.Delivers w ms w' sends) (hw : w.store.Distinct)
    (hy : w.store.find? n.id = some y) (hms : ∀ m ∈ ms, m.id = n.id → y.Outdates m) :
    w'.store.find? n.id = some y ∧ callsFor n.id sends = 0 := by
  induction h with
  | nil => exact ⟨hy, rfl⟩
  | skips _ _ _ ih => exact ih hw hy (List.forall_mem_cons.mp hms).2
  | @attempts _ _ _ m _ x z _ place events more hfind hopen _ hbecomes hstore _ ih =>
      obtain ⟨hm, hms⟩ := List.forall_mem_cons.mp hms
      obtain ⟨hx, hxid⟩ := Store.find?_some hfind
      obtain ⟨hid, hdistinct⟩ := hbecomes.distinct hopen hw hx events
      have hother : m.id ≠ n.id := by
        intro hsame
        rw [hsame] at hfind
        obtain rfl := Option.some.inj (hfind.symm.trans hy)
        exact hopen (hm hsame)
      have hne : x.id ≠ n.id := hxid ▸ hother
      rw [hstore] at ih
      obtain ⟨hrow, hcalls⟩ :=
        ih hdistinct (Store.find?_amend_of_ne hw hy (hid ▸ hne.symm) events) hms
      exact ⟨hrow, by rw [callsFor_concat, hcalls, if_neg hne]⟩

/-- What was given up and comes again is attempted just once, by a message that knows of no more
failures than the row. -/
theorem revives (h : p.Delivers w ms w' sends) (hw : w.store.Distinct)
    (hn : n.IsSpent (p.backoff.policyFor n.medium)) (hrow : w.store.find? n.id = some n)
    (hmem : n.told ∈ ms) (hms : ∀ m ∈ ms, m.id = n.id → m.retryCount ≤ n.retryCount) :
    ∃ y, w'.store.find? n.id = some y ∧ n.Revives y ∧ callsFor n.id sends = 1 := by
  induction h with
  | nil => exact absurd hmem List.not_mem_nil
  | @skips _ _ m _ _ _ hfind houtdates _ ih =>
      refine ih hw hrow ((List.mem_cons.mp hmem).resolve_left ?_) (List.forall_mem_cons.mp hms).2
      rintro rfl
      obtain rfl := Option.some.inj (hfind.symm.trans hrow)
      rcases houtdates with hsent | hless
      · cases hsent.symm.trans hn.status
      · exact UInt32.lt_irrefl _ hless
  | @attempts _ _ _ m _ x z _ place events more hfind hopen _ hbecomes hstore hrest ih =>
      obtain ⟨-, hms⟩ := List.forall_mem_cons.mp hms
      obtain ⟨hx, hxid⟩ := Store.find?_some hfind
      obtain ⟨hid, hdistinct⟩ := hbecomes.distinct hopen hw hx events
      rw [← hstore] at hdistinct
      by_cases hsame : m.id = n.id
      · rw [hsame] at hfind
        obtain rfl := Option.some.inj (hfind.symm.trans hrow)
        have hrevives := hn.revives hbecomes
        obtain ⟨hkept, hcalls⟩ := hrest.rests hdistinct
          (by rw [hstore]; exact Store.find?_amend_self hw hx hid events)
          fun m hm hsame => hrevives.outdates (hms m hm hsame)
        exact ⟨z, hkept, hrevives, by rw [callsFor_concat, hcalls, if_pos rfl]⟩
      · have hne : x.id ≠ n.id := hxid ▸ hsame
        obtain ⟨y, hy, hrevives, hcalls⟩ := ih hdistinct
          (by rw [hstore]; exact Store.find?_amend_of_ne hw hrow (hid ▸ hne.symm) events)
          ((List.mem_cons.mp hmem).resolve_left fun heq => hsame (congrArg (·.id) heq.symm)) hms
        exact ⟨y, hy, hrevives, by rw [callsFor_concat, hcalls, if_neg hne]⟩

end Pipeline.Delivers

end Courier
