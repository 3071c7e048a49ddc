import Courier.Proofs.Alone.Programs

/-!
What the topics carry. An event names a notification, and what is published for it is the row as it
is then, which may be much later. Still no row is announced on a topic where it does not wait: its
earlier events are published before it can change, all but the one with which it was given up. That
one may meet a row that has changed since, but only if the dead letter was sent again by hand.
-/

namespace Courier

/-! ## What was published -/

/-- The topic and the payload of a publication that succeeded. -/
def Answered.appended : Answered → Option (String × Bytes)
  | ⟨.publish topic _ payload, .ok _⟩ => some (topic, payload)
  | _ => none

/-- All that was published, the latest first. -/
def appended (history : List Answered) : List (String × Bytes) :=
  history.filterMap Answered.appended

/-- A dead letter was published to be sent again. -/
def Resent (earlier : List (String × Bytes)) (id : Uuid) : Prop :=
  ∃ m now, (Topic.send.name, (Envelope.ofNotification m now).encode) ∈ earlier ∧ m.id = id ∧
    m.status = .deadLettered

/-- What a row has on record besides its status, whatever the policies are. -/
def Notification.Recorded (n : Notification) : Prop :=
  match n.status with
  | .pending => n.retryCount = 0
  | .sent => True
  | .failed => n.retryCount ≠ 0 ∧ n.nextRetryAt.isSome = true
  | .deadLettered => n.retryCount ≠ 0 ∧ n.retryable = some false ∧ n.nextRetryAt = none

theorem Notification.recorded_told {n : Notification} : n.told.Recorded ↔ n.Recorded := by
  have hstatus : n.told.status = n.status := rfl
  have hnext : n.told.nextRetryAt = n.nextRetryAt.map Instant.told := rfl
  rw [Recorded, Recorded, hstatus, hnext, Option.isSome_map, Option.map_eq_none_iff]
  exact Iff.rfl

namespace Status

variable {status : Status}

theorem topic_eq_send : status.topic = some .send ↔ status = .pending := by
  cases status <;> decide

theorem topic_eq_retry : status.topic = some .retry ↔ status = .failed := by
  cases status <;> decide

theorem topic_eq_deadLetter : status.topic = some .deadLetter ↔ status = .deadLettered := by
  cases status <;> decide

end Status

namespace Topic

/-- A notification waits on the topic, or was given up and then sent again. -/
def Suits (topic : Topic) (earlier : List (String × Bytes)) (n : Notification) : Prop :=
  n.status.topic = some topic ∨ topic = .deadLetter ∧ Resent earlier n.id

/-- A snapshot on a topic to deliver from. If it is not out of date, and its row failed, then it
says when to try again. -/
def Brings (topic : Topic) (b : Books) (earlier : List (String × Bytes)) (m : Notification) :
    Prop :=
  (topic = .send → m.retryCount = 0 ∨ Resent earlier m.id) ∧
    ∀ x ∈ b.rows, x.id = m.id → x.status = .failed → x.retryCount ≤ m.retryCount →
      topic = .retry ∧ m = x.told

end Topic

/-- An envelope suits the topic that it is published to, after what was published before. -/
def Heralds (earlier : List (String × Bytes)) (name : String) (payload : Bytes) : Prop :=
  ∀ (topic : Topic) n now, name = topic.name → payload = (Envelope.ofNotification n now).encode →
    topic = .send ∨ n.Recorded ∧ topic.Suits earlier n

/-- What is to be published is the row as it is, or a dead letter. -/
def Stand.Current (b : Books) : Stand → Prop
  | .lookedUp _ n _ => n ∈ b.rows
  | .republishing ns => ∀ n ∈ ns, n.status = .deadLettered
  | _ => True

/-- Pending events, records and all that was published suit their topics. -/
structure Announced (b : Books) (history : List Answered) (s : Stand) : Prop where
  rows : ∀ n ∈ b.rows, n.Recorded
  events : ∀ e ∈ b.events, e.status = .pending → ¬ s.Announces e.id → ∃ topic : Topic,
    e.topic = topic.name ∧
      ∀ n ∈ b.rows, n.id = e.notificationId → topic.Suits (appended history) n
  records : ∀ topic ≠ .deadLetter, ∀ r ∈ b.records topic, ∃ m, r.snapshot = some m ∧
    topic.Brings b (appended history) m
  heralds : ∀ later earlier name payload,
    appended history = later ++ (name, payload) :: earlier → Heralds earlier name payload
  stand : s.Current b

namespace Envelope

/-- Reports are no envelopes: already the names of their first fields differ. -/
theorem encode_ne_report (e : Envelope) (report : UnreadableReport) :
    e.encode ≠ report.encode := by
  intro heq
  have henvelope : e.encode[2]? = some 101 := rfl
  have hreport : report.encode[2]? = some 114 := rfl
  rw [heq, hreport] at henvelope
  exact absurd henvelope (by decide)

/-- Envelopes that are written alike tell the same of their notifications. -/
theorem told_eq_of_encode {n m : Notification} {now later : Instant}
    (h : (ofNotification n now).encode = (ofNotification m later).encode) : n.told = m.told := by
  have hdecode := decode_ofNotification n now
  rw [h, decode_ofNotification m later] at hdecode
  exact (congrArg notification (Except.ok.inj hdecode)).symm

end Envelope

namespace Stand

variable {P : Stand → Prop} {s : Stand}

theorem of_anyone_only (hover : ¬ P .over) (h : Anyone P s.only) : P s := by
  obtain ⟨i, hi⟩ := h
  by_cases hzero : i = 0
  · rwa [hzero, only_zero] at hi
  · rw [only, Function.update_of_ne hzero] at hi
    exact absurd hi hover

end Stand

theorem Resent.mono {earlier : List (String × Bytes)} {id : Uuid} {x : Answered}
    {history : List Answered} (h : Resent (appended history) id) (heq : earlier = appended
      (x :: history)) : Resent earlier id := by
  obtain ⟨m, now, hmem, hid, hdead⟩ := h
  refine ⟨m, now, ?_, hid, hdead⟩
  rw [heq, appended, List.filterMap_cons]
  split
  · exact hmem
  · exact List.mem_cons_of_mem _ hmem

theorem Topic.Suits.mono {topic : Topic} {n : Notification} {x : Answered}
    {history : List Answered} (h : topic.Suits (appended history) n) :
    topic.Suits (appended (x :: history)) n :=
  h.imp_right fun ⟨htopic, hresent⟩ => ⟨htopic, hresent.mono rfl⟩

namespace Answered

theorem appended_of_passes {c : Call} {a : c.Answer} (h : c.Passes) :
    (⟨c, a⟩ : Answered).appended = none := by
  cases c with
  | publish _ _ _ => exact h.elim
  | _ => rfl

theorem appended_of_fails {c : Call} {a : c.Answer} (h : c.Fails a) :
    (⟨c, a⟩ : Answered).appended = none := by
  cases c with
  | publish topic key payload =>
      obtain ⟨error, rfl⟩ := h
      rfl
  | _ => rfl

end Answered

theorem countUp_ne_zero (n : UInt32) : countUp n ≠ 0 := by
  intro hzero
  have hnat := toNat_countUp n
  rw [hzero, UInt32.toNat_zero] at hnat
  omega

/-! ## Moves that write no row -/

namespace Announced

variable {b b' : Books} {history : List Answered} {s s' : Stand} {x : Answered}
  {stands : Nat → Stand} {n : Notification} {ns : List Notification} {e : OutboxEvent}
  {due : List OutboxEvent}

theorem heralds_cons (h : Announced b history s)
    (hheralds : ∀ name payload, x.appended = some (name, payload) →
      Heralds (appended history) name payload) :
    ∀ later earlier name payload, appended (x :: history) = later ++ (name, payload) :: earlier →
      Heralds earlier name payload := by
  intro later earlier name payload heq
  rw [appended, List.filterMap_cons] at heq
  split at heq
  · exact h.heralds later earlier name payload heq
  · next entry hentry =>
    cases later with
    | nil =>
        obtain ⟨rfl, rfl⟩ := List.cons.inj heq
        exact hheralds name payload hentry
    | cons _ later => exact h.heralds later earlier name payload (List.cons.inj heq).2

/-- A move that writes no row. Events it leaves pending were there before, records are old or
suit their topic, and so does what it publishes. -/
theorem frame (h : Announced b history s) (hrows : b'.rows = b.rows)
    (hevents : ∀ e' ∈ b'.events, e'.status = .pending → ¬ s'.Announces e'.id →
      ∃ e ∈ b.events, e.status = .pending ∧ ¬ s.Announces e.id ∧
        e.notificationId = e'.notificationId ∧ e.topic = e'.topic)
    (hrecords : ∀ topic ≠ .deadLetter, ∀ r ∈ b'.records topic, r ∈ b.records topic ∨
      ∃ m, r.snapshot = some m ∧ topic.Brings b (appended (x :: history)) m)
    (hheralds : ∀ name payload, x.appended = some (name, payload) →
      Heralds (appended history) name payload)
    (hs : s'.Current b) : Announced b' (x :: history) s' where
  rows := by
    rw [hrows]
    exact h.rows
  events := by
    intro e' he' hpending' hfree'
    obtain ⟨e, he, hpending, hfree, habout, hto⟩ := hevents e' he' hpending' hfree'
    obtain ⟨topic, htopic, hsuits⟩ := h.events e he hpending hfree
    refine ⟨topic, hto ▸ htopic, fun n hn hid => ?_⟩
    rw [hrows] at hn
    exact (hsuits n hn (hid.trans habout.symm)).mono
  records := by
    intro topic htopic r hr
    have hbrings {m : Notification} (hm : topic.Brings b (appended (x :: history)) m) :
        topic.Brings b' (appended (x :: history)) m := by
      refine ⟨hm.1, ?_⟩
      rw [hrows]
      exact hm.2
    rcases hrecords topic htopic r hr with hr | ⟨m, hm, hsuits⟩
    · obtain ⟨m, hm, hfresh, hcurrent⟩ := h.records topic htopic r hr
      exact ⟨m, hm, hbrings ⟨fun hsend => (hfresh hsend).imp_right (·.mono rfl), hcurrent⟩⟩
    · exact ⟨m, hm, hbrings hsuits⟩
  heralds := h.heralds_cons hheralds
  stand := by
    cases s' with
    | lookedUp e n due => exact (congrArg (n ∈ ·) hrows).mpr hs
    | _ => exact hs

/-- A move that changes no table at all. -/
theorem idle (h : Announced b history s) {serial : Nat} (hrests : s.Rests)
    (hnone : x.appended = none) (hs : s'.Current b) :
    Announced { b with serial } (x :: history) s' :=
  h.frame rfl (fun e he hpending _ => ⟨e, he, hpending, hrests e.id, rfl, rfl⟩)
    (fun _ _ _ hr => Or.inl hr) (fun _ _ heq => nomatch hnone.symm.trans heq) hs

/-- A change of one event, after which it is published, or is about the same as before. -/
theorem change (h : Announced b history s) (hb : b.Sound) {id : Uuid}
    {change : OutboxEvent → OutboxEvent} {events : List OutboxEvent}
    (hchange : Store.changeEvent id change b.events = some events)
    (hsame : ∀ e, (change e).status = .published ∨ (change e).status = e.status ∧
      (change e).notificationId = e.notificationId ∧ (change e).topic = e.topic ∧ s.Rests)
    (hannounces : ∀ other, s.Announces other → other = id) (hnone : x.appended = none)
    (hs : s'.Current b) : Announced { b with events } (x :: history) s' := by
  refine h.frame rfl ?_ (fun _ _ _ hr => Or.inl hr)
    (fun _ _ heq => nomatch hnone.symm.trans heq) hs
  intro e' he' hpending' _
  rcases (Store.mem_changeEvent hb.events_nodup hchange).mp he' with ⟨e, he, -, rfl⟩ | ⟨he, hne⟩
  · rcases hsame e with hpublished | ⟨hstatus, habout, hto, hrests⟩
    · exact nomatch hpublished.symm.trans hpending'
    · exact ⟨e, he, hstatus ▸ hpending', hrests e.id, habout.symm, hto.symm⟩
  · exact ⟨e', he, hpending', fun hold => hne (hannounces e'.id hold), rfl, rfl⟩

/-- The row that was looked up is published on the topic that its event names. -/
theorem announce (h : Announced b history (.lookedUp e n due)) (hb : b.Consistent stands)
    (ho : b.Publishes (e :: due)) (hid : n.id = e.notificationId) {key : Option String}
    {now : Instant}
    (heffect : b.Effect (.publish e.topic key (Envelope.ofNotification n now).encode) (.ok ()) b') :
    Announced b' (⟨.publish e.topic key (Envelope.ofNotification n now).encode, .ok ()⟩ :: history)
      (.announced e due) := by
  obtain ⟨he, hpending⟩ := ho.2 e List.mem_cons_self
  obtain ⟨later, rfl⟩ := heffect.of_publish
  have hn : n ∈ b.rows := h.stand
  obtain ⟨topic, htopic, hsuits⟩ := h.events e he hpending id
  have hsuits := hsuits n hn hid
  refine h.frame rfl (fun e' he' hpending' _ => ⟨e', he', hpending', id, rfl, rfl⟩) ?_ ?_ trivial
  · intro other hother r hr
    refine (Books.mem_records_append.mp hr).imp_right ?_
    rintro ⟨hname, rfl⟩
    obtain rfl : other = topic := Topic.name_inj (hname.trans htopic)
    have hwaits : n.status.topic = some other := hsuits.resolve_right fun hdead => hother hdead.1
    refine ⟨n.told, Stand.snapshot_ofNotification rfl, fun hsend => Or.inl ?_, ?_⟩
    · have hrecorded := h.rows n hn
      cases hstatus : n.status <;> rw [hstatus] at hwaits <;> subst hsend
      · rwa [Notification.Recorded, hstatus] at hrecorded
      all_goals exact nomatch hwaits
    · intro y hy hyid hfailed _
      obtain rfl := Store.eq_of_id_eq hb.books.rows_nodup hy hn hyid
      rw [hfailed] at hwaits
      exact ⟨(Option.some.inj hwaits).symm, rfl⟩
  · intro name payload heq
    obtain ⟨rfl, rfl⟩ := Prod.mk.inj (Option.some.inj heq)
    intro other m at' hname hpayload
    obtain rfl := Topic.name_inj (htopic.symm.trans hname)
    have htold := Envelope.told_eq_of_encode hpayload
    have hrecorded := Notification.recorded_told.mpr (h.rows n hn)
    have hsuits : topic.Suits (appended history) n.told := hsuits
    rw [htold] at hrecorded hsuits
    exact Or.inr ⟨Notification.recorded_told.mp hrecorded, hsuits⟩

/-- A dead letter is published to be sent again. -/
theorem republish (h : Announced b history (.republishing (n :: ns)))
    (ho : (Stand.republishing (n :: ns)).Orderly True b) {key : Option String} {now : Instant}
    (heffect : b.Effect (.publish Topic.send.name key (Envelope.ofNotification n now).encode)
      (.ok ()) b') :
    Announced b' (⟨.publish Topic.send.name key (Envelope.ofNotification n now).encode, .ok ()⟩ ::
      history) (.republishing ns) := by
  obtain ⟨later, rfl⟩ := heffect.of_publish
  have hdead : n.status = .deadLettered := h.stand n List.mem_cons_self
  refine h.frame rfl (fun e he hpending _ => ⟨e, he, hpending, id, rfl, rfl⟩) ?_ ?_
    fun m hm => h.stand m (List.mem_cons_of_mem n hm)
  · intro topic _ r hr
    refine (Books.mem_records_append.mp hr).imp_right ?_
    rintro ⟨-, rfl⟩
    refine ⟨n.told, Stand.snapshot_ofNotification rfl, fun _ => Or.inr ?_, ?_⟩
    · exact ⟨n, now, List.mem_cons_self, rfl, hdead⟩
    · intro y hy hid hfailed hle
      have hlt := (ho.2 n List.mem_cons_self y hy hid).2 (Or.inr hfailed)
      exact absurd hlt (UInt32.not_lt.mpr hle)
  · intro name payload heq topic _ _ hname _
    obtain ⟨rfl, -⟩ := Prod.mk.inj (Option.some.inj heq)
    exact Or.inl (Topic.name_inj hname).symm

/-! ## Written rows -/

/-- A row is written of which nothing is announced, unless it was given up and sent again. -/
theorem write (h : Announced b history s) (hb : b.Sound) {y : Notification}
    (promised : Option OutboxEvent) {serial : Nat}
    (hbooks : b' = { b with
      rows := Store.putInto y b.rows, events := b.events ++ promised.toList, serial })
    (hrests : s.Rests) (hnone : x.appended = none) (hrecorded : y.Recorded)
    (hpromised : ∀ e ∈ promised, e.notificationId = y.id ∧
      ∃ topic : Topic, e.topic = topic.name ∧ y.status.topic = some topic)
    (hevents : ∀ e ∈ b.events, e.status = .pending → e.notificationId = y.id →
      e.topic = Topic.deadLetter.name ∧ Resent (appended history) y.id)
    (hrecords : y.status = .failed → ∀ topic ≠ .deadLetter, ∀ r ∈ b.records topic, ∀ m,
      r.snapshot = some m → m.id = y.id → m.retryCount < y.retryCount)
    (hs : s'.Current b') : Announced b' (x :: history) s' where
  rows := by
    subst hbooks
    intro n hn
    rcases (Store.mem_putInto hb.rows_nodup).mp hn with rfl | ⟨hn, -⟩
    · exact hrecorded
    · exact h.rows n hn
  events := by
    subst hbooks
    intro e he hpending _
    rcases List.mem_append.mp he with hold | hnew
    · obtain ⟨topic, htopic, hsuits⟩ := h.events e hold hpending (hrests e.id)
      refine ⟨topic, htopic, fun n hn hid => ?_⟩
      rcases (Store.mem_putInto hb.rows_nodup).mp hn with rfl | ⟨hn, -⟩
      · obtain ⟨hdead, hresent⟩ := hevents e hold hpending hid.symm
        exact Or.inr ⟨Topic.name_inj (htopic.symm.trans hdead), hresent.mono rfl⟩
      · exact (hsuits n hn hid).mono
    · obtain ⟨habout, topic, htopic, hwaits⟩ := hpromised e (Option.mem_toList.mp hnew)
      refine ⟨topic, htopic, fun n hn hid => ?_⟩
      rcases (Store.mem_putInto hb.rows_nodup).mp hn with rfl | ⟨-, hne⟩
      · exact Or.inl hwaits
      · exact absurd (hid.trans habout) hne
  records := by
    subst hbooks
    intro topic htopic r hr
    obtain ⟨m, hm, hfresh, hcurrent⟩ := h.records topic htopic r hr
    refine ⟨m, hm, fun hsend => (hfresh hsend).imp_right (·.mono rfl), ?_⟩
    intro n hn hid hfailed hle
    rcases (Store.mem_putInto hb.rows_nodup).mp hn with rfl | ⟨hn, -⟩
    · exact absurd (hrecords hfailed topic htopic r hr m hm hid.symm) (UInt32.not_lt.mpr hle)
    · exact hcurrent n hn hid hfailed hle
  heralds := h.heralds_cons fun _ _ heq => nomatch hnone.symm.trans heq
  stand := hs

/-- While a notification is being delivered no event announces it any more, but the one with which
it was given up before it was sent again. -/
theorem events_of_attempt (h : Announced b history s) (hb : b.Consistent s.only)
    (ho : b.Orderly True s.only) (hn : s.Attempts n) (he : e ∈ b.events)
    (hpending : e.status = .pending) (habout : e.notificationId = n.id) :
    e.topic = Topic.deadLetter.name ∧ Resent (appended history) n.id := by
  have hattempts : (s.only 0).Attempts n := s.only_zero.symm ▸ hn
  obtain ⟨topic, offset, htask, hlive, hrow, hstatus⟩ := ho.live_attempt hb hattempts
  rw [Stand.only_zero] at htask
  have hrests : s.Rests := Stand.rests_of_task (by rw [htask]; exact nofun)
  obtain ⟨other, hother, hsuits⟩ := h.events e he hpending (hrests e.id)
  by_cases hdead : other = .deadLetter
  · subst hdead
    refine ⟨hother, ?_⟩
    rcases hsuits n hrow habout.symm with hwaits | ⟨-, hresent⟩
    · have hburied : n.status = .deadLettered := Status.topic_eq_deadLetter.mp hwaits
      obtain ⟨-, place, heq⟩ := ho.buried n hrow hburied _ hlive
      obtain ⟨rfl, -⟩ := Token.message.inj heq
      obtain ⟨htopic, r, hr, -, -, m, hm, hmid, hle⟩ := hlive
      obtain ⟨m', hm', hfresh, -⟩ := h.records .send htopic r hr
      obtain rfl := Option.some.inj (hm.symm.trans hm')
      have hrecorded := h.rows n hrow
      rw [Notification.Recorded, hburied] at hrecorded
      have hcount : m.retryCount ≠ 0 := fun hzero =>
        hrecorded.1 (UInt32.le_antisymm (hzero ▸ hle) UInt32.zero_le)
      exact hmid ▸ (hfresh rfl).resolve_left hcount
    · exact hresent
  · have hpromise : b.Live s.only n (.promise e.id) :=
      ⟨e, he, rfl, hpending, habout, fun heq => hdead (Topic.name_inj (hother.symm.trans heq)),
        fun hannounced => hrests e.id (Stand.of_anyone_only id hannounced)⟩
    rcases hstatus with hwaits | hburied
    · exact nomatch ho.single n hrow hwaits _ _ hlive hpromise
    · obtain ⟨-, place, heq⟩ := ho.buried n hrow hburied _ hpromise
      exact nomatch heq

/-- How an attempt ends is written. -/
theorem conclude (h : Announced b history s) (hb : b.Consistent s.only)
    (ho : b.Orderly True s.only) (hn : s.Attempts n) {y : Notification}
    (promised : Option OutboxEvent) {serial : Nat}
    (hbooks : b' = { b with
      rows := Store.putInto y b.rows, events := b.events ++ promised.toList, serial })
    (hid : y.id = n.id) (hnone : x.appended = none) (hrecorded : y.Recorded)
    (hpromised : ∀ e ∈ promised, e.notificationId = y.id ∧
      ∃ topic : Topic, e.topic = topic.name ∧ y.status.topic = some topic)
    (hmore : y.status = .failed → n.retryCount < y.retryCount) (hs : s'.Current b') :
    Announced b' (x :: history) s' := by
  have hattempts : (s.only 0).Attempts n := s.only_zero.symm ▸ hn
  obtain ⟨topic, offset, htask, -, hrow, -⟩ := ho.live_attempt hb hattempts
  rw [Stand.only_zero] at htask
  refine h.write hb.books promised hbooks (Stand.rests_of_task (by rw [htask]; exact nofun)) hnone
    hrecorded hpromised ?_ ?_ hs
  · intro e he hpending habout
    rw [hid] at habout ⊢
    exact h.events_of_attempt hb ho hn he hpending habout
  · intro hfailed other hother r hr m hm hmid
    have hle := ho.counts other hother r hr m hm n hrow (hid.symm.trans hmid.symm)
    exact UInt32.lt_of_le_of_lt hle (hmore hfailed)

end Announced

/-! ## All moves -/

namespace Stand

private theorem current_settled (origin : Origin) (b : Books) : origin.settled.Current b := by
  cases origin <;> exact trivial

private theorem current_unreadable (origin : Origin) (b : Books) :
    origin.unreadable.Current b := by
  cases origin <;> exact trivial

private theorem current_facing (topic : Topic) (rs : List Record) (b : Books) :
    (facing topic rs).Current b := by
  cases rs with
  | nil => exact trivial
  | cons r rest =>
      rcases facing_cons topic r rest with ⟨-, h⟩ | ⟨n, -, h⟩ | ⟨-, h⟩ <;> rw [h] <;> exact trivial

end Stand

theorem Announced.kept : Alone.Kept Announced := by
  intro b b' history s s' c a hb ho h hmove hmakes hremembers heffect hserial
  have hstand := ho.stands 0
  have hsound := hb.stands 0
  rw [Stand.only_zero] at hstand hsound
  have hidle {s' : Stand} (hbooks : ∃ serial, b' = { b with serial }) (hrests : s.Rests)
      (hnone : (⟨c, a⟩ : Answered).appended = none) (hs : s'.Current b) :
      Announced b' (⟨c, a⟩ :: history) s' := by
    obtain ⟨serial, rfl⟩ := hbooks
    exact h.idle hrests hnone hs
  cases hmove with
  | passes hc =>
      obtain ⟨serial, -, rfl⟩ := heffect.of_idle (Or.inl hc)
      exact h.frame rfl (fun e he hpending hfree => ⟨e, he, hpending, hfree, rfl, rfl⟩)
        (fun _ _ _ hr => Or.inl hr)
        (fun _ _ heq => nomatch (Answered.appended_of_passes hc).symm.trans heq) h.stand
  | fails hc hrests =>
      obtain ⟨serial, -, hbooks⟩ := heffect.of_idle (Or.inr (Or.inl hc))
      exact hidle ⟨serial, hbooks⟩ hrests (Answered.appended_of_fails hc) trivial
  | draws => exact hidle ⟨_, heffect.of_newId.2⟩ nofun rfl trivial
  | @promises n e hpending hcount =>
      obtain ⟨⟨now, rfl⟩, hbooks⟩ := heffect.of_saveWithOutbox
      refine h.write hb.books (y := n) (some _) hbooks nofun rfl ?_ ?_ ?_ ?_ trivial
      · rwa [Notification.Recorded, hpending]
      · rintro e he
        obtain rfl := Option.some.inj he
        exact ⟨rfl, .send, rfl, by rw [hpending]; rfl⟩
      · rintro e he - habout
        exact absurd (habout ▸ hb.books.events_known e he) hstand
      · exact fun hfailed => nomatch hpending.symm.trans hfailed
  | fetches => exact hidle ⟨_, heffect.of_dueEvents.2.2⟩ nofun rfl trivial
  | looksUp =>
      obtain ⟨hfound, hbooks⟩ := heffect.of_findById
      exact hidle ⟨_, hbooks⟩ nofun rfl (Store.find?_some hfound.symm).1
  | misses => exact hidle ⟨_, heffect.of_findById.2⟩ nofun rfl trivial
  | announces => exact h.announce hb hstand.1 hsound.1 heffect
  | misfires =>
      obtain ⟨serial, -, hbooks⟩ := heffect.of_idle (Or.inr (Or.inl ⟨_, rfl⟩))
      exact hidle ⟨serial, hbooks⟩ nofun rfl trivial
  | marks =>
      obtain ⟨now, events, hchange, rfl⟩ := heffect.of_markPublished
      exact h.change hb.books hchange (fun _ => Or.inl rfl) (fun _ heq => heq.symm) rfl trivial
  | forgets => exact nomatch hremembers
  | postpones =>
      obtain ⟨now, events, hchange, rfl⟩ := heffect.of_markFailed
      exact h.change hb.books hchange (fun _ => Or.inr ⟨rfl, rfl, rfl, nofun⟩)
        (fun _ heq => heq.elim) rfl trivial
  | polls => exact hidle ⟨_, heffect.of_poll.2⟩ nofun rfl (Stand.current_facing _ _ _)
  | skips => exact hidle ⟨_, heffect.of_findById.2⟩ nofun rfl (Stand.current_settled _ _)
  | begins | trusts => exact hidle ⟨_, heffect.of_findById.2⟩ nofun rfl trivial
  | delivers | rejects =>
      obtain ⟨serial, -, hbooks⟩ := heffect.of_idle (Or.inr (Or.inr ⟨_, _, rfl⟩))
      exact hidle ⟨serial, hbooks⟩ nofun rfl trivial
  | garbles =>
      obtain ⟨serial, -, hbooks⟩ := heffect.of_idle (Or.inr (Or.inr ⟨_, _, rfl⟩))
      exact hidle ⟨serial, hbooks⟩ nofun rfl (Stand.current_unreadable _ _)
  | @records origin n now =>
      have hbooks : b' = { b with
          rows := Store.putInto (n.sent now) b.rows
          events := b.events ++ []
          serial := b.serial } := by
        rw [heffect.of_save, List.append_nil]
      exact h.conclude hb ho (n := n) rfl (y := n.sent now) none hbooks rfl rfl trivial
        (fun e he => absurd he (Option.not_mem_none e)) nofun (Stand.current_settled _ _)
  | @reschedules origin n failure next now e hroom =>
      obtain ⟨⟨later, rfl⟩, hbooks⟩ := heffect.of_saveWithOutbox
      have hlt := lt_countUp (n := n.retryCount) (by rw [toNat_countUp] at hroom; omega)
      refine h.conclude hb ho (n := n) rfl (y := n.retryScheduled failure next now) (some _) hbooks
        rfl rfl ⟨countUp_ne_zero _, rfl⟩ ?_ (fun _ => hlt) (Stand.current_settled _ _)
      rintro e he
      obtain rfl := Option.some.inj he
      exact ⟨rfl, .retry, rfl, rfl⟩
  | @buries origin n failure now e =>
      obtain ⟨⟨later, rfl⟩, hbooks⟩ := heffect.of_saveWithOutbox
      refine h.conclude hb ho (n := n) rfl (y := n.deadLettered failure now) (some _) hbooks
        rfl rfl ⟨countUp_ne_zero _, rfl, rfl⟩ ?_ nofun (Stand.current_settled _ _)
      rintro e he
      obtain rfl := Option.some.inj he
      exact ⟨rfl, .deadLetter, rfl, rfl⟩
  | numbers => exact hidle ⟨_, heffect.of_newId.2⟩ nofun rfl trivial
  | @reports topic r rest key payload =>
      obtain ⟨report, rfl⟩ := hmakes (.batch topic) rfl
      obtain ⟨now, rfl⟩ := heffect.of_publish
      refine h.frame rfl (fun e he hpending hfree => ⟨e, he, hpending, hfree, rfl, rfl⟩) ?_ ?_
        trivial
      · intro other hother r' hr'
        refine Or.inl ((Books.mem_records_append.mp hr').resolve_right ?_)
        exact fun hnew => hother (Topic.name_inj hnew.1)
      · intro name payload heq _ n at' _ hpayload
        obtain ⟨rfl, rfl⟩ := Prod.mk.inj (Option.some.inj heq)
        exact absurd hpayload.symm (Envelope.encode_ne_report _ _)
  | commits =>
      obtain rfl := heffect.of_commit
      exact h.frame rfl (fun e he hpending _ => ⟨e, he, hpending, nofun, rfl, rfl⟩)
        (fun _ _ _ hr => Or.inl hr) nofun (Stand.current_facing _ _ _)
  | lists =>
      obtain ⟨hmem, hbooks⟩ := heffect.of_findByStatus
      exact hidle ⟨_, hbooks⟩ nofun rfl fun n hn => (hmem n hn).2
  | republishes => exact h.republish hstand heffect
  | deletes =>
      obtain rfl := heffect.of_deletePublished
      exact h.frame rfl
        (fun e he hpending _ => ⟨e, (List.mem_filter.mp he).1, hpending, nofun, rfl, rfl⟩)
        (fun _ _ _ hr => Or.inl hr) nofun trivial
  | prunes =>
      obtain rfl := heffect.of_prune
      exact h.frame rfl (fun e he hpending _ => ⟨e, he, hpending, nofun, rfl, rfl⟩)
        (fun topic _ _ hr => Or.inl ((Bus.mem_records_prune b.bus _ topic.name).1 hr)) nofun trivial

theorem Announced.lasts : Alone.Lasts Announced where
  starts := by
    intro b history op _ h
    refine { h with events := fun e he hpending _ => h.events e he hpending id, stand := ?_ }
    cases op <;> exact trivial
  moves := Announced.kept
  leaves := fun h hrests =>
    { h with
      events := fun e he hpending _ => h.events e he hpending (hrests e.id)
      stand := trivial }

theorem World.IsBlank.announced {w : World} (h : w.IsBlank) : Announced w.books [] .over where
  rows := by
    have hrows : w.books.rows = [] := h.rows
    simp [hrows]
  events := by
    have hevents : w.books.events = [] := h.events
    simp [hevents]
  records := fun topic _ r hr => by simp [h.records_eq] at hr
  heralds := by
    intro later earlier name payload heq
    simp [Courier.appended] at heq
  stand := trivial

/-- After a closed run all is announced as it should be. -/
theorem World.IsBlank.announced_after {w : World} {commands : List Command} (h : w.IsBlank)
    (hruns : ∀ op, Command.run op ∈ commands → op.task ≠ .delivery)
    (hserial : (w.after commands).serial ≤ Books.serialLimit) :
    ∃ history, Account.At Announced ⟨w.after commands, history⟩ .over := by
  have hworld := Account.world_opened_after w commands
  rw [← hworld] at hserial ⊢
  exact ⟨_, Account.at_after Announced.lasts hruns (h.at_over h.announced) hserial⟩

/-- In a closed run, every envelope published on the retry topic carries a notification that failed
and says when it is tried again. Every one published on the topic of dead letters carries one that
was given up for good, unless it had been sent again by hand before. -/
theorem Account.after_announces {w : World} {commands : List Command} (hblank : w.IsBlank)
    (hruns : ∀ op, Command.run op ∈ commands → op.task ≠ .delivery)
    (hserial : (w.after commands).serial ≤ Books.serialLimit)
    {later earlier : List (String × Bytes)} {topic : Topic} {n : Notification} {now : Instant}
    (happended : appended ((opened w).after commands).history =
      later ++ (topic.name, (Envelope.ofNotification n now).encode) :: earlier) :
    (topic = .retry → n.status = .failed ∧ n.nextRetryAt.isSome = true) ∧
      (topic = .deadLetter →
        n.status = .deadLettered ∧ n.retryable = some false ∨ Resent earlier n.id) := by
  rw [← world_opened_after] at hserial
  have hat := at_after Announced.lasts hruns (hblank.at_over hblank.announced) hserial
  have hheralds := hat.holds.heralds later earlier _ _ happended topic n now rfl rfl
  constructor
  · rintro rfl
    obtain ⟨hrecorded, hsuits⟩ := hheralds.resolve_left nofun
    have hfailed := Status.topic_eq_retry.mp (hsuits.resolve_right fun hdead => nomatch hdead.1)
    rw [Notification.Recorded, hfailed] at hrecorded
    exact ⟨hfailed, hrecorded.2⟩
  · rintro rfl
    obtain ⟨hrecorded, hsuits⟩ := hheralds.resolve_left nofun
    refine hsuits.imp (fun hwaits => ?_) And.right
    have hdead := Status.topic_eq_deadLetter.mp hwaits
    rw [Notification.Recorded, hdead] at hrecorded
    exact ⟨hdead, hrecorded.2.1⟩

/-- A notification fails once and is announced on the retry topic. -/
theorem Account.after_announces_failed :
    ∃ n earlier, appended ((opened (Sample.world [.done (.error (.network "down"))])).after
        (Sample.firstAttempt (Sample.pipeline 5) ++
          [.run (.publishDue (Sample.pipeline 5).publication 100)])).history =
      (Topic.retry.name, (Envelope.ofNotification n (Clock.mk 0).now).encode) :: earlier ∧
      n.status = .failed ∧ n.nextRetryAt.isSome = true := by
  let p := Sample.pipeline 5
  let w := Sample.world [.done (.error (.network "down"))]
  let commands := Sample.firstAttempt p ++ [.run (.publishDue p.publication 100)]
  have hruns : ∀ op, Command.run op ∈ commands → op.task ≠ .delivery := by
    intro op hop
    simp [commands, Sample.firstAttempt, Sample.arrival] at hop
    rcases hop with rfl | rfl | rfl | rfl <;> decide
  have hlast : ∃ n ∈ (w.after commands).store.notifications,
      (appended ((opened w).after commands).history).head? =
        some (Topic.retry.name, (Envelope.ofNotification n (Clock.mk 0).now).encode) := by
    decide +kernel
  obtain ⟨n, -, hlast⟩ := hlast
  obtain ⟨earlier, hearlier⟩ := List.head?_eq_some_iff.mp hlast
  have hfailed := (after_announces (Sample.isBlank_world _) hruns (by decide +kernel)
    (show _ = [] ++ _ from hearlier)).1 rfl
  exact ⟨n, earlier, hearlier, hfailed⟩

/-- A notification is given up before it is sent again by hand and delivered. Only then its event is
due to be published: on the topic of dead letters it is announced as sent. -/
theorem Account.dead_letter_announced_sent :
    ∃ commands : List Command, (Sample.world [.done (.error (.network "down"))]).IsBlank ∧
      (∀ op, Command.run op ∈ commands → op.task ≠ .delivery) ∧
      ∃ n, (Topic.deadLetter.name, (Envelope.ofNotification n (Clock.mk 0).now).encode) ∈
          appended ((opened (Sample.world [.done (.error (.network "down"))])).after
            commands).history ∧
        n.status = .sent ∧ n.retryable = none := by
  let p := Sample.pipeline 1
  let w := Sample.world [.done (.error (.network "down"))]
  let commands := Sample.firstAttempt p ++ Sample.revival p ++
    [.run (.publishDue p.publication 100)]
  refine ⟨commands, Sample.isBlank_world _, fun op hop => ?_, ?_⟩
  · simp [commands, Sample.firstAttempt, Sample.arrival, Sample.revival] at hop
    rcases hop with rfl | rfl | rfl | rfl | rfl | rfl <;> decide
  · have hannounced : ∃ n ∈ (w.after commands).store.notifications,
        (Topic.deadLetter.name, (Envelope.ofNotification n (Clock.mk 0).now).encode) ∈
          appended ((opened w).after commands).history ∧
        n.status = .sent ∧ n.retryable = none := by
      decide +kernel
    obtain ⟨n, -, hn⟩ := hannounced
    exact ⟨n, hn⟩

end Courier
