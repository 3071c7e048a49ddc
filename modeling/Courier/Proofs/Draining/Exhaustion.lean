import Courier.Proofs.Draining.Deliveries

/-!
A topic exhausted: batches are taken from the topic to send from until one commits nothing. Where
all messages on it can be delivered, that comes to the same as delivering them one after the other,
wherever one batch ends and the next one begins.
-/

namespace Courier

open Job

/-- Takes batches until one commits nothing, at most `fuel` of them, and counts what they
committed. -/
def Consumer.exhaust (c : Consumer) : Nat → Job Nat
  | 0 => return 0
  | fuel + 1 => do
    let committed ← c.batch
    if committed = 0 then return 0
    return committed + (← c.exhaust fuel)

/-! ## Records in order -/

namespace Bus

/-- What is unread on the topic to send from stands in order below the head of the topic, which
offsets can reach. -/
structure InOrder (b : Bus) : Prop where
  ordered : (b.unread .send).Pairwise (·.offset < ·.offset)
  below : ∀ r ∈ b.unread .send, r.offset < (b.log Topic.send.name).head
  cursor_le : b.cursor Topic.send.subscription ≤ (b.log Topic.send.name).head
  head_le : (b.log Topic.send.name).head ≤ 0x7fff_ffff_ffff_ffff

/-- The unread records carry these messages. -/
def Waiting (b : Bus) (ms : List Notification) : Prop :=
  (b.unread .send).map Record.snapshot = ms.map some

variable {b : Bus} {n : Notification} {ms : List Notification} {r : Record} {rest : List Record}

theorem InOrder.last (h : b.InOrder) (hr : r ∈ b.unread .send) :
    r.offset < 0x7fff_ffff_ffff_ffff :=
  (h.below r hr).trans_le h.head_le

theorem InOrder.commit (h : b.InOrder) (hunread : b.unread .send = r :: rest) :
    (b.commit Topic.send.subscription r.offset).unread .send = rest ∧
      (b.commit Topic.send.subscription r.offset).InOrder := by
  have hr : r ∈ b.unread .send := hunread ▸ List.mem_cons_self
  have hrest := unread_commit hunread h.ordered (h.last hr)
  have hsub : rest ⊆ b.unread .send := hunread ▸ List.subset_cons_self r rest
  have hbelow := h.below r hr
  have hcursor := h.cursor_le
  refine ⟨hrest, ?_, ?_, ?_, h.head_le⟩
  · rw [hrest]
    exact (List.pairwise_cons.mp (hunread ▸ h.ordered)).2
  · rw [hrest]
    exact fun x hx => h.below x (hsub hx)
  · rw [cursor_commit_self]
    change _ ≤ (b.log Topic.send.name).head
    unfold behind
    omega

end Bus

/-! ## Records that are settled -/

section

variable {p : Pipeline} {w w' : World} {m : Notification}
  {ms : List Notification} {r : Record} {rs rest : List Record} {outcome : DeliveryOutcome}
  {sends : List (Nat × Notification)}

/-- A message is delivered to the row that it finds. -/
theorem Delivery.comesTo_deliver {d : Delivery} {x : Notification}
    (hfind : w.store.find? m.id = some x) (h : (if x.status = .sent ∨ m.retryCount < x.retryCount
      then pure .skipped else d.attempt x : Job DeliveryOutcome).ComesTo w outcome w' sends) :
    (d.deliver m).ComesTo w outcome w' sends := by
  have hanswer : w.answer (.findById m.id) = (.done (.ok (some x)), w) := hfind ▸ rfl
  have hfound : (Job.store (.call (.findById m.id))).ComesTo w (some x) w [] :=
    comesTo_ask rfl hanswer rfl rfl
  exact comesTo_seq hfound h

/-- The first message is delivered, and then the others are. -/
theorem Pipeline.Delivers.first (h : p.Delivers w (m :: ms) w' sends) :
    ∃ outcome w₁ before after, (p.delivery.deliver m).ComesTo w outcome w₁ before ∧
      p.Delivers w₁ ms w' after ∧ sends = after ++ before := by
  cases h with
  | skips hfind houtdates hrest =>
      refine ⟨.skipped, w, [], sends, Delivery.comesTo_deliver hfind ?_, hrest,
        (List.append_nil sends).symm⟩
      unfold Notification.Outdates at houtdates
      rw [if_pos houtdates]
      exact comesTo_pure _ w
  | @attempts _ _ _ _ _ _ _ outcome _ _ _ hfind hopen hattempt _ _ hrest =>
      refine ⟨outcome, _, _, _, Delivery.comesTo_deliver hfind ?_, hrest, rfl⟩
      unfold Notification.Outdates at hopen
      rw [if_neg hopen]
      exact hattempt

/-- A record whose message is delivered is to be committed. -/
theorem Consumer.comesTo_settle (ledger : Ledger) (hr : r.snapshot = some m)
    (h : (p.delivery.deliver m).ComesTo w outcome w' sends) :
    ((p.consumer ledger .send).settle r).ComesTo w true w' sends := by
  have hhandle : ((Handler.send p.delivery).handle r).ComesTo w .commit w' sends := by
    cases hdecode : Envelope.decode r.payload with
    | error fault =>
        rw [Record.snapshot, hdecode] at hr
        cases hr
    | ok e =>
        rw [Record.snapshot, hdecode] at hr
        obtain rfl : e.notification = m := Option.some.inj hr
        have hread : (Handler.envelope r).ComesTo w e w [] := by
          rw [Handler.envelope, hdecode]
          exact comesTo_pure e w
        exact comesTo_seq hread (comesTo_last h rfl)
  exact comesTo_last (comesTo_outcome hhandle) rfl

/-- Records whose messages are delivered are settled and committed one after the other. -/
theorem Pipeline.Delivers.comesTo_settleAll (ledger : Ledger) (h : p.Delivers w ms w' sends)
    {b : Bus} (hb : b.InOrder) (hunread : b.unread .send = rs ++ rest)
    (hrs : rs.map Record.snapshot = ms.map some) (done : Nat) :
    ∃ b' : Bus, b'.InOrder ∧ b'.unread .send = rest ∧
      ((p.consumer ledger .send).settleAll rs done).ComesTo (w.withBus b) (done + rs.length)
        (w'.withBus b') sends := by
  induction rs generalizing w b ms sends done with
  | nil =>
      obtain rfl : ms = [] := List.map_eq_nil_iff.mp hrs.symm
      cases h
      exact ⟨b, hb, hunread, comesTo_pure done _⟩
  | cons r rs ih =>
      obtain ⟨m, ms, rfl, hr, hrs⟩ := List.map_eq_cons_iff.mp hrs.symm
      obtain ⟨outcome, w₁, before, after, hdeliver, hrest, rfl⟩ := h.first
      obtain ⟨hunread', hb'⟩ := hb.commit hunread
      obtain ⟨b', hfinal, hleft, hothers⟩ := ih hrest hb' hunread' hrs.symm (done + 1)
      refine ⟨b', hfinal, hleft, ?_⟩
      have hsettle := Consumer.comesTo_settle ledger hr.symm
        (hdeliver.withBus (p.delivery.asks_deliver m) b)
      have hcommit : (Job.attempt (.call (.commit Topic.send.subscription r.offset))).ComesTo
          (w₁.withBus b) () (w₁.withBus (b.commit Topic.send.subscription r.offset)) [] :=
        comesTo_ask rfl rfl rfl rfl
      rw [List.length_cons, Nat.add_comm rs.length, ← Nat.add_assoc]
      exact comesTo_bind hsettle (comesTo_seq hcommit hothers)

/-! ## Batches until there is nothing left -/

/-- A batch settles as many records as it takes, or as there are. -/
theorem Pipeline.Delivers.comesTo_batch (ledger : Ledger) {size : Nat}
    (hsize : p.settings.consumer.batchSize.toNat = size) (h : p.Delivers w (ms.take size) w' sends)
    {b : Bus} (hb : b.InOrder) (hms : b.Waiting ms) :
    ∃ b' : Bus, b'.InOrder ∧ b'.Waiting (ms.drop size) ∧
      (p.consumer ledger .send).batch.ComesTo (w.withBus b) (ms.take size).length
        (w'.withBus b') sends := by
  have htake : ((b.unread .send).take size).map Record.snapshot = (ms.take size).map some := by
    rw [List.map_take, hms, List.map_take]
  obtain ⟨b', hb', hrest, hsettle⟩ := h.comesTo_settleAll ledger hb
    (List.take_append_drop size (b.unread .send)).symm htake 0
  have hlength : ((b.unread .send).take size).length = (ms.take size).length := by
    have hlengths := congrArg List.length htake
    rwa [List.length_map, List.length_map] at hlengths
  have hpoll : (Job.attempt (.call (.poll Topic.send.subscription size))).ComesTo (w.withBus b)
      ((b.unread .send).take size) (w.withBus b) [] := comesTo_ask rfl rfl rfl rfl
  rw [Nat.zero_add, hlength] at hsettle
  refine ⟨b', hb', ?_, ?_⟩
  · rw [Bus.Waiting, hrest, List.map_drop, hms, List.map_drop]
  · subst hsize
    exact comesTo_seq hpoll hsettle

/-- Where all messages on the topic are delivered, batches come to an end that commit nothing. -/
theorem Pipeline.Delivers.comesTo_exhaust (ledger : Ledger) (h : p.Delivers w ms w' sends)
    (hsize : 1 ≤ p.settings.consumer.batchSize.toNat) {b : Bus} (hb : b.InOrder)
    (hms : b.Waiting ms) :
    ∃ b' : Bus, b'.InOrder ∧ b'.Waiting [] ∧ ∀ fuel > ms.length,
      ((p.consumer ledger .send).exhaust fuel).ComesTo (w.withBus b) ms.length (w'.withBus b')
        sends := by
  -- Every batch but the last leaves fewer messages.
  induction hlength : ms.length using Nat.strong_induction_on generalizing w b ms sends with
  | _ length ih =>
      subst hlength
      generalize hbatch : p.settings.consumer.batchSize.toNat = size at hsize
      rw [← List.take_append_drop size ms] at h
      obtain ⟨w₁, before, after, hfirst, hrest, rfl⟩ := h.exists_split
      obtain ⟨b₁, hb₁, hms₁, hcomes⟩ := hfirst.comesTo_batch ledger hbatch hb hms
      by_cases hnone : ms = []
      · subst hnone
        rw [List.take_nil] at hfirst hcomes
        rw [List.drop_nil] at hrest hms₁
        cases hfirst
        cases hrest
        refine ⟨b₁, hb₁, hms₁, fun fuel hfuel => ?_⟩
        obtain ⟨fuel, rfl⟩ := Nat.exists_eq_add_one.mpr hfuel
        exact comesTo_last hcomes rfl
      · have hpos : 0 < ms.length := List.length_pos_iff.mpr hnone
        have htaken : (ms.take size).length = min size ms.length := List.length_take
        have hleft : (ms.drop size).length = ms.length - size := List.length_drop
        obtain ⟨b', hb', hms', hexhaust⟩ := ih _ (by omega) hrest hb₁ hms₁ rfl
        refine ⟨b', hb', hms', fun fuel hfuel => ?_⟩
        obtain ⟨fuel, rfl⟩ := Nat.exists_eq_add_one.mpr (hpos.trans hfuel)
        have hsum : ms.length = (ms.take size).length + (ms.drop size).length := by omega
        rw [hsum]
        refine comesTo_bind hcomes ?_
        rw [if_neg (by omega)]
        exact comesTo_last (hexhaust fuel (by omega)) rfl

end

end Courier
