import Courier.Proofs.Turns.Operations

/-!
The books balance. What channels returned, the events that were created and the writes that
succeeded are read off the history of a closed run in which no write is made to fail. They agree
with the rows and with the counters: every failure of a channel is in a retry count, every success
is a sent row, and every event was created with one transition. One turn carries this on, since it
makes all its entries at once.
-/

namespace Courier

/-! ## What is on record -/

namespace Answered

/-- The notification that a channel was called for and failed to deliver. -/
def undelivered : Answered → Option Uuid
  | ⟨.send _ n, .error error⟩ => if error.isDeliveryFailure then some n.id else none
  | _ => none

/-- The notification that a channel was called for and delivered. -/
def delivered : Answered → Option Uuid
  | ⟨.send _ n, .ok _⟩ => some n.id
  | _ => none

/-- The event that was created. -/
def created : Answered → Option OutboxEvent
  | ⟨.saveWithOutbox _ _, .ok e⟩ => some e
  | _ => none

/-- The row that was written. -/
def row : Answered → Option Notification
  | ⟨.save n, .ok _⟩ => some n
  | ⟨.saveWithOutbox n _, .ok _⟩ => some n
  | _ => none

/-- Nothing that counts for the notification with this identifier. -/
structure Spares (x : Answered) (id : Uuid) : Prop where
  undelivered : x.undelivered ≠ some id
  delivered : x.delivered ≠ some id
  created : ∀ e, x.created = some e → e.notificationId ≠ id
  row : ∀ n, x.row = some n → n.id ≠ id

theorem spares_of_none {x : Answered} (hundelivered : x.undelivered = none)
    (hdelivered : x.delivered = none) (hcreated : x.created = none) (hrow : x.row = none)
    (id : Uuid) : x.Spares id := by
  constructor <;> simp [hundelivered, hdelivered, hcreated, hrow]

variable {n : Notification} {id : Uuid}

theorem spares_send {place : Nat} {result : Except DeliveryError Unit} (hne : id ≠ n.id) :
    Spares ⟨.send place n, result⟩ id := by
  have hother : some n.id ≠ some id := fun heq => hne (Option.some.inj heq).symm
  have hnone : none ≠ some id := (Option.some_ne_none id).symm
  cases result with
  | ok _ =>
      exact ⟨hnone, hother, fun e heq => absurd heq.symm (Option.some_ne_none e),
        fun m heq => absurd heq.symm (Option.some_ne_none m)⟩
  | error error =>
      refine ⟨?_, hnone, fun e heq => absurd heq.symm (Option.some_ne_none e),
        fun m heq => absurd heq.symm (Option.some_ne_none m)⟩
      change (if error.isDeliveryFailure then some n.id else none) ≠ some id
      split
      · exact hother
      · exact hnone

theorem spares_save (hne : id ≠ n.id) : Spares ⟨.save n, .ok ()⟩ id where
  undelivered := (Option.some_ne_none id).symm
  delivered := (Option.some_ne_none id).symm
  created := fun e heq => absurd heq.symm (Option.some_ne_none e)
  row := fun _ heq => Option.some.inj heq ▸ hne.symm

theorem spares_saveWithOutbox {topic : String} {e : OutboxEvent} (hne : id ≠ n.id)
    (he : e.notificationId = n.id) : Spares ⟨.saveWithOutbox n topic, .ok e⟩ id where
  undelivered := (Option.some_ne_none id).symm
  delivered := (Option.some_ne_none id).symm
  created := fun _ heq => Option.some.inj heq ▸ he ▸ hne.symm
  row := fun _ heq => Option.some.inj heq ▸ hne.symm

end Answered

theorem Call.IsQuiet.spares {c : Call} {a : c.Answer} (h : c.IsQuiet a) (id : Uuid) :
    Answered.Spares ⟨c, a⟩ id := by
  cases c with
  | send => exact h.elim
  | save | saveWithOutbox =>
      obtain ⟨error, rfl⟩ := h
      exact Answered.spares_of_none rfl rfl rfl rfl id
  | _ => exact Answered.spares_of_none rfl rfl rfl rfl id

namespace Account

/-- How often a channel failed to deliver a notification. -/
def failures (s : Account) (id : Uuid) : Nat :=
  (s.history.filterMap Answered.undelivered).count id

/-- How often a channel delivered a notification. -/
def deliveries (s : Account) (id : Uuid) : Nat :=
  (s.history.filterMap Answered.delivered).count id

/-- The events that were ever created for a notification. -/
def events (s : Account) (id : Uuid) : List OutboxEvent :=
  (s.history.filterMap Answered.created).filter (·.notificationId == id)

/-- How many of them promise it to a topic. -/
def promises (s : Account) (topic : Topic) (id : Uuid) : Nat :=
  (s.events id).countP (·.topic == topic.name)

/-- How often the row of a notification was written with a status. -/
def transitions (s : Account) (status : Status) (id : Uuid) : Nat :=
  ((s.history.filterMap Answered.row).filter (·.id == id)).countP (·.status == status)

/-- What is on record for a notification is the same as before. -/
structure SameFor (s s' : Account) (id : Uuid) : Prop where
  failures : s'.failures id = s.failures id
  deliveries : s'.deliveries id = s.deliveries id
  events : s'.events id = s.events id
  transitions : ∀ status, s'.transitions status id = s.transitions status id

namespace SameFor

variable {s s' s'' : Account} {id : Uuid}

theorem trans (h : s.SameFor s' id) (h' : s'.SameFor s'' id) : s.SameFor s'' id where
  failures := h'.failures.trans h.failures
  deliveries := h'.deliveries.trans h.deliveries
  events := h'.events.trans h.events
  transitions := fun status => (h'.transitions status).trans (h.transitions status)

private theorem of_entry {x : Answered} (hspares : x.Spares id) (h : s'.history = x :: s.history) :
    s.SameFor s' id := by
  constructor
  · cases hx : x.undelivered with
    | none => simp [Account.failures, h, hx]
    | some other =>
        have hne : other ≠ id := fun heq => hspares.undelivered (heq ▸ hx)
        simp [Account.failures, h, hx, hne]
  · cases hx : x.delivered with
    | none => simp [Account.deliveries, h, hx]
    | some other =>
        have hne : other ≠ id := fun heq => hspares.delivered (heq ▸ hx)
        simp [Account.deliveries, h, hx, hne]
  · cases hx : x.created with
    | none => simp [Account.events, h, hx]
    | some e => simp [Account.events, h, hx, hspares.created e hx]
  · intro status
    cases hx : x.row with
    | none => simp [Account.transitions, h, hx]
    | some n => simp [Account.transitions, h, hx, hspares.row n hx]

/-- More entries, none of them about the notification. -/
theorem of_entries {world : World} {entries : List Answered} (h : ∀ x ∈ entries, x.Spares id) :
    s.SameFor ⟨world, entries ++ s.history⟩ id := by
  induction entries generalizing world with
  | nil => exact ⟨rfl, rfl, rfl, fun _ => rfl⟩
  | cons x entries ih =>
      rw [List.forall_mem_cons] at h
      have hbefore : s.SameFor ⟨world, entries ++ s.history⟩ id := ih h.2
      exact hbefore.trans (of_entry h.1 rfl)

end SameFor

/-! ## Balance -/

/-- A row agrees with what is on record for it: it counts the failures, it is sent if and only if
it was delivered, and that once, it was promised to be sent once, and to another topic with each
transition to failed or dead-lettered. -/
structure AddsUp (s : Account) (n : Notification) : Prop where
  failures : s.failures n.id = n.retryCount.toNat
  deliveries : s.deliveries n.id = if n.status = .sent then 1 else 0
  send : s.promises .send n.id = 1
  retry : s.promises .retry n.id = s.transitions .failed n.id
  deadLetter : s.promises .deadLetter n.id = s.transitions .deadLettered n.id
  events : (s.events n.id).length = 1 + n.retryCount.toNat

/-- Nothing is on record for a notification. -/
structure Untouched (s : Account) (id : Uuid) : Prop where
  failures : s.failures id = 0
  deliveries : s.deliveries id = 0
  events : s.events id = []
  transitions : ∀ status, s.transitions status id = 0

/-- The rows and the counters agree with what is on record. -/
structure Balanced (s : Account) : Prop where
  rows : ∀ n ∈ s.world.books.rows, s.AddsUp n
  strangers : ∀ id, ¬ s.world.books.Known id → s.Untouched id
  sent : s.world.pipelineStats.sent = s.world.books.rows.countP (·.status == .sent)
  failed : s.world.pipelineStats.retriesScheduled + s.world.pipelineStats.deadLettered =
    (s.world.books.rows.map (·.retryCount.toNat)).sum

/-! ## One entry after the other -/

/-- A write of a row is on record, with what led to it: failures and deliveries of the channel,
and the topic that the row is promised to. -/
structure Enters (s s' : Account) (m : Notification) (failed delivered : Nat)
    (promised : Option Topic) : Prop where
  failures : s'.failures m.id = s.failures m.id + failed
  deliveries : s'.deliveries m.id = s.deliveries m.id + delivered
  events : (s'.events m.id).length = (s.events m.id).length + promised.toList.length
  promises : ∀ topic, s'.promises topic m.id =
    s.promises topic m.id + if promised = some topic then 1 else 0
  transitions : ∀ status, s'.transitions status m.id =
    s.transitions status m.id + if m.status = status then 1 else 0
  others : ∀ id ≠ m.id, s.SameFor s' id

variable {s s' : Account} {n m : Notification}

theorem AddsUp.of_same (h : s.AddsUp n) (hsame : s.SameFor s' n.id) : s'.AddsUp n := by
  have hpromises (topic : Topic) : s'.promises topic n.id = s.promises topic n.id := by
    rw [promises, promises, hsame.events]
  constructor
  · rw [hsame.failures, h.failures]
  · rw [hsame.deliveries, h.deliveries]
  · rw [hpromises, h.send]
  · rw [hpromises, hsame.transitions, h.retry]
  · rw [hpromises, hsame.transitions, h.deadLetter]
  · rw [hsame.events, h.events]

theorem Untouched.of_same {id : Uuid} (h : s.Untouched id) (hsame : s.SameFor s' id) :
    s'.Untouched id where
  failures := hsame.failures.trans h.failures
  deliveries := hsame.deliveries.trans h.deliveries
  events := hsame.events.trans h.events
  transitions := fun status => (hsame.transitions status).trans (h.transitions status)

namespace Enters

theorem addsUp_accepted (h : s.Enters s' m 0 0 (some .send)) (huntouched : s.Untouched m.id)
    (hpending : m.status = .pending) (hcount : m.retryCount = 0) : s'.AddsUp m := by
  have hpromises (topic : Topic) : s.promises topic m.id = 0 := by
    rw [Account.promises, huntouched.events, List.countP_nil]
  constructor
  · rw [h.failures, huntouched.failures, hcount]
    rfl
  · rw [h.deliveries, huntouched.deliveries, hpending]
    rfl
  · rw [h.promises, hpromises]
    rfl
  · rw [h.promises, h.transitions, hpromises, huntouched.transitions, hpending]
    rfl
  · rw [h.promises, h.transitions, hpromises, huntouched.transitions, hpending]
    rfl
  · rw [h.events, huntouched.events, hcount]
    rfl

theorem addsUp_sent (h : s.Enters s' m 0 1 none) (hn : s.AddsUp n) (hid : m.id = n.id)
    (hopen : n.status ≠ .sent) (hsent : m.status = .sent) (hcount : m.retryCount = n.retryCount) :
    s'.AddsUp m := by
  constructor
  · rw [h.failures, hid, hn.failures, hcount, Nat.add_zero]
  · rw [h.deliveries, hid, hn.deliveries, if_neg hopen, if_pos hsent]
  · rw [h.promises, hid, hn.send]
    rfl
  · rw [h.promises, h.transitions, hid, hn.retry, hsent]
    rfl
  · rw [h.promises, h.transitions, hid, hn.deadLetter, hsent]
    rfl
  · rw [h.events, hid, hn.events, hcount]
    rfl

theorem addsUp_failed {topic : Topic} (h : s.Enters s' m 1 0 (some topic)) (hn : s.AddsUp n)
    (hid : m.id = n.id) (hopen : n.status ≠ .sent)
    (hstatus : topic = .retry ∧ m.status = .failed ∨
      topic = .deadLetter ∧ m.status = .deadLettered)
    (hcount : m.retryCount.toNat = n.retryCount.toNat + 1) : s'.AddsUp m := by
  have hfailed : m.status ≠ .sent := by
    rcases hstatus with ⟨-, hm⟩ | ⟨-, hm⟩ <;> rw [hm] <;> exact nofun
  constructor
  · rw [h.failures, hid, hn.failures, hcount]
  · rw [h.deliveries, hid, hn.deliveries, if_neg hopen, if_neg hfailed]
  · rw [h.promises, hid, hn.send]
    rcases hstatus with ⟨rfl, -⟩ | ⟨rfl, -⟩ <;> rfl
  · rw [h.promises, h.transitions, hid, hn.retry]
    rcases hstatus with ⟨rfl, hm⟩ | ⟨rfl, hm⟩ <;> rw [hm] <;> rfl
  · rw [h.promises, h.transitions, hid, hn.deadLetter]
    rcases hstatus with ⟨rfl, hm⟩ | ⟨rfl, hm⟩ <;> rw [hm] <;> rfl
  · rw [h.events, hid, hn.events, hcount]
    rfl

end Enters

namespace Balanced

/-- What is about no notification leaves the balance alone. -/
theorem frame (h : s.Balanced) (hrows : s'.world.books.rows = s.world.books.rows)
    (hstats : s'.world.pipelineStats.recorded = s.world.pipelineStats.recorded)
    (hsame : ∀ id, s.SameFor s' id) : s'.Balanced := by
  obtain ⟨hsent, hstats⟩ := Prod.mk.inj hstats
  obtain ⟨hretries, hdead⟩ := Prod.mk.inj hstats
  constructor
  · intro n hn
    exact (h.rows n (hrows ▸ hn)).of_same (hsame n.id)
  · intro id hunknown
    refine (h.strangers id fun hknown => hunknown ?_).of_same (hsame id)
    rwa [Books.Known, hrows]
  · rw [hrows, hsent, h.sent]
  · rw [hrows, hretries, hdead, h.failed]

/-- A row is written in the place of an earlier one, if there was one, and adds up. -/
theorem write (h : s.Balanced) (before others : List Notification)
    (hbefore : s.world.books.rows.Perm (before ++ others))
    (hafter : s'.world.books.rows.Perm (m :: others)) (hown : ∀ n ∈ before, n.id = m.id)
    (hothers : ∀ n ∈ others, n.id ≠ m.id) (hsame : ∀ id ≠ m.id, s.SameFor s' id)
    (hm : s'.AddsUp m)
    (hsent : s'.world.pipelineStats.sent + before.countP (·.status == .sent) =
      s.world.pipelineStats.sent + if m.status = .sent then 1 else 0)
    (hfailed : s'.world.pipelineStats.retriesScheduled + s'.world.pipelineStats.deadLettered +
        (before.map (·.retryCount.toNat)).sum =
      s.world.pipelineStats.retriesScheduled + s.world.pipelineStats.deadLettered +
        m.retryCount.toNat) : s'.Balanced := by
  constructor
  · intro n hn
    rcases List.mem_cons.mp (hafter.mem_iff.mp hn) with rfl | hn
    · exact hm
    · exact (h.rows n (hbefore.mem_iff.mpr (List.mem_append_right _ hn))).of_same
        (hsame n.id (hothers n hn))
  · intro id hunknown
    have hne : id ≠ m.id := fun heq =>
      hunknown ⟨m, hafter.mem_iff.mpr List.mem_cons_self, heq.symm⟩
    refine (h.strangers id ?_).of_same (hsame id hne)
    rintro ⟨n, hn, hid⟩
    rcases List.mem_append.mp (hbefore.mem_iff.mp hn) with hn | hn
    · exact hne (hid.symm.trans (hown n hn))
    · exact hunknown ⟨n, hafter.mem_iff.mpr (List.mem_cons_of_mem m hn), hid⟩
  · have hrows := hbefore.countP_eq (·.status == .sent)
    rw [List.countP_append, ← h.sent] at hrows
    rw [hafter.countP_eq, List.countP_cons]
    simp only [beq_iff_eq]
    omega
  · have hrows := (hbefore.map (·.retryCount.toNat)).sum_eq
    rw [List.map_append, List.sum_append, ← h.failed] at hrows
    rw [(hafter.map (·.retryCount.toNat)).sum_eq, List.map_cons, List.sum_cons]
    omega

/-- A recorded attempt replaces the row it was made at. -/
theorem replace (h : s.Balanced) (hs : s.world.books.Regular) (hn : n ∈ s.world.books.rows)
    (hid : m.id = n.id) (hopen : n.status ≠ .sent)
    (hrows : s'.world.books.rows = Store.putInto m s.world.books.rows)
    (hsame : ∀ id ≠ m.id, s.SameFor s' id) (hm : s'.AddsUp m)
    (hsent : s'.world.pipelineStats.sent =
      s.world.pipelineStats.sent + if m.status = .sent then 1 else 0)
    (hfailed : s'.world.pipelineStats.retriesScheduled + s'.world.pipelineStats.deadLettered +
        n.retryCount.toNat =
      s.world.pipelineStats.retriesScheduled + s.world.pipelineStats.deadLettered +
        m.retryCount.toNat) : s'.Balanced := by
  obtain ⟨others, hbefore, hafter⟩ := Store.exists_perm_putInto hs.rows_nodup hn hid
  have hothers : ∀ k ∈ others, k.id ≠ m.id := by
    have hnodup : ((n :: others).map (·.id)).Nodup :=
      (hbefore.map (·.id)).nodup_iff.mp hs.rows_nodup
    intro k hk heq
    exact (List.nodup_cons.mp hnodup).1 (List.mem_map.mpr ⟨k, hk, heq.trans hid⟩)
  refine h.write [n] others hbefore (hrows ▸ hafter) ?_ hothers hsame hm ?_ ?_
  · simpa using hid.symm
  · simpa [hopen] using hsent
  · simpa using hfailed

end Balanced
end Account

/-! ## Turns -/

namespace Account

variable {s : Account} {world : World} {n m : Notification} {history : List Answered}

private theorem filter_created {e : OutboxEvent} (topic : String) (he : e.notificationId = m.id) :
    ((⟨.saveWithOutbox m topic, .ok e⟩ :: history).filterMap Answered.created).filter
        (·.notificationId == m.id) =
      e :: (history.filterMap Answered.created).filter (·.notificationId == m.id) :=
  List.filter_cons_of_pos (beq_iff_eq.mpr he)

private theorem count_rows (status : Status) :
    ((m :: history.filterMap Answered.row).filter (·.id == m.id)).countP (·.status == status) =
      ((history.filterMap Answered.row).filter (·.id == m.id)).countP (·.status == status) +
        if m.status = status then 1 else 0 := by
  have hown : (m :: history.filterMap Answered.row).filter (·.id == m.id) =
      m :: (history.filterMap Answered.row).filter (·.id == m.id) :=
    List.filter_cons_of_pos (beq_self_eq_true m.id)
  rw [hown, List.countP_cons]
  simp

private theorem count_promises {e : OutboxEvent} {topic : Topic} (he : e.notificationId = m.id)
    (htopic : e.topic = topic.name) (other : Topic) :
    (((⟨.saveWithOutbox m topic.name, .ok e⟩ :: history).filterMap Answered.created).filter
        (·.notificationId == m.id)).countP (·.topic == other.name) =
      ((history.filterMap Answered.created).filter (·.notificationId == m.id)).countP
        (·.topic == other.name) + if some topic = some other then 1 else 0 := by
  rw [filter_created topic.name he, List.countP_cons, htopic]
  cases topic <;> cases other <;> rfl

theorem enters_accepted {e : OutboxEvent} (he : e.notificationId = m.id)
    (htopic : e.topic = Topic.send.name) :
    s.Enters ⟨world, ⟨.saveWithOutbox m Topic.send.name, .ok e⟩ :: s.history⟩ m 0 0
      (some .send) where
  failures := rfl
  deliveries := rfl
  events := congrArg List.length (filter_created Topic.send.name he)
  promises := count_promises he htopic
  transitions := count_rows
  others := fun id hne => by
    have hentries : ∀ x ∈ [Answered.mk (.saveWithOutbox m Topic.send.name) (.ok e)],
        x.Spares id := by
      simpa using Answered.spares_saveWithOutbox hne he
    exact .of_entries hentries

theorem enters_sent (place : Nat) (now : Instant) (hid : m.id = n.id) :
    s.Enters ⟨world, ⟨.tally .pipeline .sent, ()⟩ :: ⟨.save m, .ok ()⟩ :: ⟨.now, now⟩ ::
      ⟨.send place n, .ok ()⟩ :: s.history⟩ m 0 1 none where
  failures := rfl
  deliveries := by
    rw [hid]
    exact List.count_cons_self
  events := rfl
  promises := fun _ => rfl
  transitions := count_rows
  others := fun id hne => by
    have hentries : ∀ x ∈ [Answered.mk (.tally .pipeline .sent) (), ⟨.save m, .ok ()⟩, ⟨.now, now⟩,
        ⟨.send place n, .ok ()⟩], x.Spares id := by
      simp only [List.forall_mem_cons, List.not_mem_nil, false_imp_iff, implies_true, and_true]
      exact ⟨Answered.spares_of_none rfl rfl rfl rfl id, Answered.spares_save hne,
        Answered.spares_of_none rfl rfl rfl rfl id, Answered.spares_send (hid ▸ hne)⟩
    exact .of_entries hentries

theorem enters_failed {error : DeliveryError} {topic : Topic} {e : OutboxEvent} (place : Nat)
    (now : Instant) (jitter : Duration) (what : Tally) (hid : m.id = n.id)
    (hfailure : error.isDeliveryFailure = true) (he : e.notificationId = m.id)
    (htopic : e.topic = topic.name) :
    s.Enters ⟨world, ⟨.tally .pipeline what, ()⟩ :: ⟨.saveWithOutbox m topic.name, .ok e⟩ ::
      ⟨.jitter Backoff.jitterBound, jitter⟩ :: ⟨.now, now⟩ :: ⟨.send place n, .error error⟩ ::
        s.history⟩ m 1 0 (some topic) where
  failures := by
    have hcount : (Answered.mk (.send place n) (.error error)).undelivered = some m.id := by
      rw [hid]
      exact if_pos hfailure
    change ((Answered.mk (.send place n) (.error error) :: s.history).filterMap
      Answered.undelivered).count m.id = _
    rw [List.filterMap_cons_some hcount, List.count_cons_self]
    rfl
  deliveries := rfl
  events := congrArg List.length (filter_created topic.name he)
  promises := count_promises he htopic
  transitions := count_rows
  others := fun id hne => by
    have hentries : ∀ x ∈ [Answered.mk (.tally .pipeline what) (),
        ⟨.saveWithOutbox m topic.name, .ok e⟩, ⟨.jitter Backoff.jitterBound, jitter⟩, ⟨.now, now⟩,
        ⟨.send place n, .error error⟩], x.Spares id := by
      simp only [List.forall_mem_cons, List.not_mem_nil, false_imp_iff, implies_true, and_true]
      exact ⟨Answered.spares_of_none rfl rfl rfl rfl id, Answered.spares_saveWithOutbox hne he,
        Answered.spares_of_none rfl rfl rfl rfl id, Answered.spares_of_none rfl rfl rfl rfl id,
        Answered.spares_send (hid ▸ hne)⟩
    exact .of_entries hentries

end Account

theorem Ruling.entry {terms : Terms} {n m : Notification} {error : DeliveryError}
    {now : Instant} {jitter : Duration} {topic : Topic} {what : Tally}
    (h : Ruling terms n error now jitter m topic what) :
    topic = .retry ∧ m.status = .failed ∧ what = .retryScheduled ∨
      topic = .deadLetter ∧ m.status = .deadLettered ∧ what = .deadLettered := by
  cases h with
  | retry => exact Or.inl ⟨rfl, rfl, rfl⟩
  | giveUp => exact Or.inr ⟨rfl, rfl, rfl⟩

/-- A count that is not full went up by one. -/
theorem toNat_countUp_of_ne {n : UInt32} (h : countUp n ≠ 0xffffffff) :
    (countUp n).toNat = n.toNat + 1 := by
  have hne : (countUp n).toNat ≠ 0xffffffff := fun heq => h (UInt32.toNat_inj.mp heq)
  rw [toNat_countUp] at hne ⊢
  omega

/-- Nothing that a quiet call counts is an attempt that was recorded. -/
theorem World.recorded_of_quiet {w w' : World} {c : Call} {a : c.Answer}
    (h : w.answer c = (.done a, w')) (hquiet : c.IsQuiet a) :
    w'.pipelineStats.recorded = w.pipelineStats.recorded := by
  obtain rfl : (w.answer c).2 = w' := congrArg Prod.snd h
  cases c with
  | send => exact hquiet.elim
  | tally ledger what =>
      cases ledger with
      | loops => rfl
      | pipeline =>
          obtain ⟨hsent, hretry, hdead⟩ := hquiet rfl
          cases what with
          | sent => exact absurd rfl hsent
          | retryScheduled => exact absurd rfl hretry
          | deadLettered => exact absurd rfl hdead
          | _ => rfl
  | _ => rfl

namespace Turn

variable {backoffs : Backoff → Prop} {s s' : Account}

/-- Without faults every turn keeps the balance, unless a count is full. -/
theorem balanced (h : Turn ⟨backoffs, False⟩ s s') (hs : s.world.books.Regular)
    (hroom : ∀ n ∈ s'.world.books.rows, n.retryCount ≠ 0xffffffff) (hb : s.Balanced) :
    s'.Balanced := by
  cases h with
  | @quiet c a world h hquiet =>
      refine hb.frame ((World.effect_of_answer h).rows_eq hquiet)
        (World.recorded_of_quiet h hquiet) fun id => ?_
      have hspares : ∀ x ∈ [Answered.mk c a], x.Spares id := by simpa using hquiet.spares id
      exact .of_entries hspares
  | elapses hbooks hstats =>
      refine hb.frame (congrArg Books.rows hbooks) (congrArg Stats.recorded hstats) fun id => ?_
      exact .of_entries (List.forall_mem_nil _)
  | @attempts place n a world hn h hloose =>
      obtain ⟨error, rfl, hfatal⟩ := hloose.resolve_left id
      refine hb.frame (congrArg Books.rows (World.books_of_send h))
        (congrArg Stats.recorded (World.pipelineStats_of_send h)) fun id => ?_
      have hnone : (Answered.mk (.send place n) (.error error)).undelivered = none :=
        if_neg (Bool.eq_false_iff.mp hfatal)
      have hspares : ∀ x ∈ [Answered.mk (.send place n) (.error error)], x.Spares id := by
        simpa using Answered.spares_of_none hnone rfl rfl rfl id
      exact .of_entries hspares
  | @accepts n e world h hpending hcount _ _ hunknown =>
      obtain ⟨⟨now, he⟩, hbooks⟩ := (World.effect_of_answer h).of_saveWithOutbox
      have hstats : world.pipelineStats = s.world.pipelineStats :=
        (congrArg (fun o => o.2.pipelineStats) h).symm
      have hrows : world.books.rows = s.world.books.rows ++ [n] := by
        rw [hbooks]
        exact Store.putInto_of_not_mem fun m hm hid => hunknown ⟨m, hm, hid⟩
      have henters : s.Enters ⟨world, _⟩ n 0 0 (some .send) := Account.enters_accepted
        (congrArg OutboxEvent.notificationId he) (congrArg OutboxEvent.topic he)
      have hadds := henters.addsUp_accepted (hb.strangers n.id hunknown) hpending hcount
      have hafter : world.books.rows.Perm (n :: s.world.books.rows) :=
        hrows ▸ List.perm_append_singleton n _
      refine hb.write [] s.world.books.rows (.refl _) hafter ?_ ?_ henters.others hadds ?_ ?_
      · exact List.forall_mem_nil _
      · exact fun m hm hid => hunknown ⟨m, hm, hid⟩
      · simp [hstats, hpending]
      · simp [hstats, hcount]
  | @sends place n now world hn hopen heffect hstats =>
      have henters : s.Enters ⟨world, _⟩ (n.sent now) 0 1 none :=
        Account.enters_sent (n := n) place now rfl
      have hadds := henters.addsUp_sent (hb.rows n hn) rfl hopen rfl rfl
      obtain ⟨hsent, hstats⟩ := Prod.mk.inj hstats
      obtain ⟨hretries, hdead⟩ := Prod.mk.inj hstats
      have hrows := congrArg Books.rows heffect.of_save
      refine hb.replace (m := n.sent now) hs hn rfl hopen hrows henters.others hadds hsent ?_
      simp only [hretries, hdead]
      rfl
  | @fails place n error now jitter m topic what e world hn hopen hfailure hruling heffect hstats =>
      have hid := ((Notification.Becomes.failed hfailure hruling).advances hopen).id
      obtain ⟨⟨moment, he⟩, hbooks⟩ := heffect.of_saveWithOutbox
      have hrows := congrArg Books.rows hbooks
      have hcount : m.retryCount.toNat = n.retryCount.toNat + 1 := by
        have hfree := hroom m (hrows ▸ Store.mem_putInto_self m s.world.books.rows)
        rw [hruling.retryCount_eq] at hfree ⊢
        exact toNat_countUp_of_ne hfree
      have henters : s.Enters ⟨world, _⟩ m 1 0 (some topic) :=
        Account.enters_failed place now jitter what hid hfailure
          (congrArg OutboxEvent.notificationId he) (congrArg OutboxEvent.topic he)
      have hentry := hruling.entry
      have hadds := henters.addsUp_failed (hb.rows n hn) hid hopen
        (hentry.imp (fun h => ⟨h.1, h.2.1⟩) fun h => ⟨h.1, h.2.1⟩) hcount
      obtain ⟨hsent, hstats⟩ := Prod.mk.inj hstats
      obtain ⟨hretries, hdead⟩ := Prod.mk.inj hstats
      refine hb.replace hs hn hid hopen hrows henters.others hadds ?_ ?_
      all_goals
        simp only [hsent, hretries, hdead]
        rcases hentry with ⟨-, hstatus, rfl⟩ | ⟨-, hstatus, rfl⟩ <;>
          simp [hstatus, Stats.count] <;> omega

end Turn
/-- Without faults a run keeps the balance, unless a count is full at its end. -/
theorem Turns.balanced {backoffs : Backoff → Prop} {s s' : Account}
    (h : Turns ⟨backoffs, False⟩ s s') (hs : s.world.books.Regular)
    (hroom : ∀ n ∈ s'.world.books.rows, n.retryCount ≠ 0xffffffff) (hb : s.Balanced) :
    s'.Balanced := by
  induction h with
  | refl => exact hb
  | tail hturns hturn ih =>
      have hmiddle := Turns.regular hturns hs
      refine hturn.balanced hmiddle hroom (ih fun n hn hfull => ?_)
      obtain ⟨m, hm, hadvances⟩ := hturn.rewrites.advances hmiddle hn
      exact hroom m hm (hadvances.full hfull)

theorem World.IsBlank.balanced {w : World} (h : w.IsBlank)
    (hstats : w.pipelineStats.recorded = (0, 0, 0)) : (Account.opened w).Balanced := by
  have hrows : w.books.rows = [] := h.rows
  obtain ⟨hsent, hstats⟩ := Prod.mk.inj hstats
  obtain ⟨hretries, hdead⟩ := Prod.mk.inj hstats
  constructor
  · exact fun n hn => absurd hn (hrows ▸ List.not_mem_nil)
  · exact fun _ _ => ⟨rfl, rfl, rfl, fun _ => rfl⟩
  · change w.pipelineStats.sent = w.books.rows.countP _
    rw [hsent, hrows, List.countP_nil]
  · change w.pipelineStats.retriesScheduled + w.pipelineStats.deadLettered =
      (w.books.rows.map _).sum
    rw [hretries, hdead, hrows]
    rfl

/-- After every closed run in which no write is made to fail and every time of a next attempt can
be represented, the rows and the counters agree with what is on record, as long as no count is
full. -/
theorem Account.after_balanced {w : World} {commands : List Command} (hblank : w.IsBlank)
    (hfresh : w.store.saveError = none) (hstats : w.pipelineStats.recorded = (0, 0, 0))
    (hruns : ∀ op, Command.run op ∈ commands → op.task ≠ .delivery)
    (hsaves : ∀ message, Command.injectSaveError message ∉ commands)
    (hrange : (Account.opened w).inRange commands = true)
    (hroom : ∀ n ∈ (w.after commands).store.notifications, n.retryCount ≠ 0xffffffff)
    (hserial : (w.after commands).serial ≤ Books.serialLimit) :
    ((Account.opened w).after commands).Balanced := by
  have hfits : ∀ command ∈ commands, command.Fits ⟨fun _ => True, False⟩ :=
    Command.forall_fits hruns (fun _ _ _ _ => trivial) hsaves
  rw [← Account.world_opened_after] at hroom hserial
  have hturns := Account.turns_after hfits (Or.inr hrange) hblank.regular (Or.inr hfresh) hserial
  exact hturns.balanced hblank.regular hroom (hblank.balanced hstats)

/-- A notification that failed twice and was sent when it was published again by hand: two failures
and one delivery are on record, and three events. -/
theorem Account.after_balanced_revived :
    ∃ n : Notification, n.status = .sent ∧ n.retryCount = 2 ∧
      ((Account.opened (Sample.world (List.replicate 2 (.done (.error (.network "down")))))).after
        (Sample.firstAttempt (Sample.pipeline 2) ++ (Sample.secondAttempt (Sample.pipeline 2) ++
          Sample.revival (Sample.pipeline 2)))).AddsUp n := by
  let w := Sample.world (List.replicate 2 (.done (.error (.network "down"))))
  let p := Sample.pipeline 2
  let run := Sample.firstAttempt p ++ (Sample.secondAttempt p ++ Sample.revival p)
  have hsaves (message : String) : Command.injectSaveError message ∉ run := by
    simp [run, Sample.firstAttempt, Sample.arrival, Sample.secondAttempt, Sample.revival]
  have hrange : (Account.opened w).inRange run = true := by decide +kernel
  have hroom : (w.after run).serial ≤ Books.serialLimit ∧
      ∀ n ∈ (w.after run).store.notifications, n.retryCount ≠ 0xffffffff := by
    decide +kernel
  have hrow : ∃ n ∈ ((Account.opened w).after run).world.books.rows,
      n.status = .sent ∧ n.retryCount = 2 := by
    decide +kernel
  have hbalanced := Account.after_balanced (Sample.isBlank_world _) rfl rfl
    (fun op hop => (Sample.runs_pipeline hop).1) hsaves hrange hroom.2 hroom.1
  obtain ⟨n, hn, hsent, hcount⟩ := hrow
  exact ⟨n, hsent, hcount, hbalanced.rows n hn⟩

end Courier
