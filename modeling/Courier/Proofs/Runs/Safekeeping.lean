import Courier.Proofs.Runs.Consistency

/-!
No accepted notification is lost. Whatever runs at the same time, fails or is abandoned half way,
a row that still has to be dealt with is promised by a pending event or carried by a record that
its group has not passed. The event is the one created with the row as it is now: every write to
the row that is not its delivery comes with an event of its own, and only the publication of that
event, which carries the row unchanged, lets it be marked.
-/

namespace Courier

/-! ## What keeps a notification -/

/-- The topic on which a notification waits, unless it is delivered. -/
def Status.topic : Status → Option Topic
  | .pending => some .send
  | .failed => some .retry
  | .deadLettered => some .deadLetter
  | .sent => none

/-- The row that an answered call wrote, and the event that it created with it. -/
def Answered.written : Answered → Option (Uuid × Option Uuid)
  | ⟨.saveWithOutbox n _, .ok e⟩ => some (n.id, some e.id)
  | ⟨.save n, .ok _⟩ => some (n.id, none)
  | _ => none

/-- The event created when the row with an identifier was last written, if there was one. -/
def latestEvent (id : Uuid) : List Answered → Option Uuid
  | [] => none
  | answered :: history =>
    match answered.written with
    | some (row, event) => if row = id then event else latestEvent id history
    | none => latestEvent id history

/-- A record for the notification was appended to the topic of dead letters. -/
def DeadLetterSent (history : List Answered) (id : Uuid) : Prop :=
  ∃ key payload envelope, ⟨.publish Topic.deadLetter.name key payload, .ok ()⟩ ∈ history ∧
    Envelope.decode payload = .ok envelope ∧ envelope.notification.id = id

namespace Stand

/-- The record at this offset is dealt with and about to be committed. -/
def Settles (topic : Topic) (offset : Int) : Stand → Prop
  | .settled other r _ => other = topic ∧ r.offset = offset
  | _ => False

/-- What was looked up is still the row, unless the row got another event since. A record that is
to be reported carries nothing. -/
def Kept (b : Books) (history : List Answered) : Stand → Prop
  | .lookedUp e n _ => latestEvent n.id history = some e.id → n ∈ b.rows
  | .unreadable _ r _ => r.snapshot = none
  | _ => True

end Stand

namespace Books

/-- An event that is still to be published promises the notification to a topic. -/
def Promises (b : Books) (stands : Nat → Stand) (topic : Topic) (n : Notification) (id : Uuid) :
    Prop :=
  ∃ e ∈ b.events, e.id = id ∧ e.status = .pending ∧ e.notificationId = n.id ∧
    e.topic = topic.name ∧ ¬ Stand.Anyone (Stand.Announces id) stands

/-- A record that is still to be dealt with carries the notification. -/
def Carries (b : Books) (stands : Nat → Stand) (topic : Topic) (n : Notification) : Prop :=
  ∃ r ∈ b.records topic, b.cursor topic ≤ r.offset ∧ r.Covers n ∧
    ¬ Stand.Anyone (Stand.Settles topic r.offset) stands

/-- A row is kept on a topic by the event with an identifier, or by what was published for it. -/
def Secures (b : Books) (history : List Answered) (stands : Nat → Stand) (topic : Topic)
    (n : Notification) (id : Uuid) : Prop :=
  b.Promises stands topic n id ∨
    if topic = .deadLetter then DeadLetterSent history n.id else b.Carries stands topic n

/-- Every row that is not delivered is kept by the event created with it. -/
structure Kept (b : Books) (history : List Answered) (stands : Nat → Stand) : Prop where
  rows : ∀ n ∈ b.rows, ∀ topic, n.status.topic = some topic →
    ∃ id, latestEvent n.id history = some id ∧ b.Secures history stands topic n id
  stands : ∀ i, (stands i).Kept b history

end Books

/-! ## Moves that keep everything -/

namespace Answered

theorem written_of_passes {c : Call} {a : c.Answer} (h : c.Passes) :
    (⟨c, a⟩ : Answered).written = none := by
  cases c with
  | save _ | saveWithOutbox _ _ => exact h.elim
  | _ => rfl

theorem written_of_fails {c : Call} {a : c.Answer} (h : c.Fails a) :
    (⟨c, a⟩ : Answered).written = none := by
  cases c with
  | save n =>
      obtain ⟨error, rfl⟩ := h
      rfl
  | saveWithOutbox n topic =>
      obtain ⟨error, rfl⟩ := h
      rfl
  | _ => rfl

end Answered

theorem latestEvent_cons_none {answered : Answered} (h : answered.written = none) (id : Uuid)
    (history : List Answered) :
    latestEvent id (answered :: history) = latestEvent id history := by
  rw [latestEvent, h]

theorem DeadLetterSent.mono {history : List Answered} {id : Uuid} (h : DeadLetterSent history id)
    (answered : Answered) : DeadLetterSent (answered :: history) id := by
  obtain ⟨key, payload, envelope, hmem, henvelope⟩ := h
  exact ⟨key, payload, envelope, List.mem_cons_of_mem answered hmem, henvelope⟩

/-- A stand is kept by any call that writes no row. -/
private theorem Stand.Kept.move {s : Stand} {b b' : Books} {history : List Answered}
    {answered : Answered} (h : s.Kept b history) (hwritten : answered.written = none)
    (hrows : b'.rows = b.rows) : s.Kept b' (answered :: history) := by
  cases s with
  | lookedUp e n due =>
      intro hlatest
      rw [hrows]
      exact h ((latestEvent_cons_none hwritten _ _).symm.trans hlatest)
  | unreadable topic r rest => exact h
  | _ => exact trivial

namespace Books

variable {b b' : Books} {history : List Answered} {stands : Nat → Stand} {i : Nat} {s : Stand}

private theorem Secures.step {stands' : Nat → Stand} {answered : Answered} {topic : Topic}
    {n : Notification} {id : Uuid} (h : b.Secures history stands topic n id)
    (hpromises : b.Promises stands topic n id →
      b'.Secures (answered :: history) stands' topic n id)
    (hcarries : topic ≠ .deadLetter → b.Carries stands topic n → b'.Carries stands' topic n) :
    b'.Secures (answered :: history) stands' topic n id := by
  rcases h with hpromised | hsent
  · exact hpromises hpromised
  · apply Or.inr
    by_cases hdead : topic = .deadLetter
    · rw [if_pos hdead] at hsent ⊢
      exact hsent.mono answered
    · rw [if_neg hdead] at hsent ⊢
      exact hcarries hdead hsent

/-- A move that writes no row: it has to leave every row secure. -/
private theorem Kept.move (h : b.Kept history stands) {answered : Answered}
    (hwritten : answered.written = none) (hrows : b'.rows = b.rows)
    (hs : s.Kept b' (answered :: history))
    (hsecures : ∀ n ∈ b.rows, ∀ topic id, n.status.topic = some topic →
      latestEvent n.id history = some id → b.Secures history stands topic n id →
      b'.Secures (answered :: history) (Function.update stands i s) topic n id) :
    b'.Kept (answered :: history) (Function.update stands i s) where
  rows := by
    intro n hn topic htopic
    rw [hrows] at hn
    obtain ⟨id, hlatest, hsecure⟩ := h.rows n hn topic htopic
    exact ⟨id, (latestEvent_cons_none hwritten _ _).trans hlatest,
      hsecures n hn topic id htopic hlatest hsecure⟩
  stands := Stand.forall_update (fun j => (h.stands j).move hwritten hrows) hs

/-- A move that writes no row, takes no pending event and no record away, and leaves a stand that
announces nothing and settles no record that covers a waiting row. -/
private theorem Kept.frame (h : b.Kept history stands) {answered : Answered}
    (hwritten : answered.written = none) (hrows : b'.rows = b.rows)
    (hs : s.Kept b' (answered :: history))
    (hevents : ∀ e ∈ b.events, e.status = .pending → ∃ e' ∈ b'.events, e'.id = e.id ∧
      e'.status = .pending ∧ e'.notificationId = e.notificationId ∧ e'.topic = e.topic)
    (hrecords : ∀ topic, ∀ r ∈ b.records topic, b.cursor topic ≤ r.offset →
      ¬ Stand.Anyone (Stand.Settles topic r.offset) stands →
      r ∈ b'.records topic ∧ b'.cursor topic ≤ r.offset)
    (hannounces : ∀ id, s.Announces id → (stands i).Announces id)
    (hsettles : ∀ topic ≠ .deadLetter, ∀ r ∈ b.records topic, s.Settles topic r.offset →
      (stands i).Settles topic r.offset ∨
        ∀ n ∈ b.rows, n.status.topic = some topic → ¬ r.Covers n) :
    b'.Kept (answered :: history) (Function.update stands i s) := by
  refine h.move hwritten hrows hs fun n hn topic id htopic _ hsecures => hsecures.step ?_ ?_
  · rintro ⟨e, he, hid, hpending, habout, hto, hfree⟩
    obtain ⟨e', he', hid', hpending', habout', hto'⟩ := hevents e he hpending
    exact Or.inl ⟨e', he', hid'.trans hid, hpending', habout'.trans habout, hto'.trans hto,
      Stand.not_anyone_update hfree fun hnew => hfree ⟨i, hannounces id hnew⟩⟩
  · rintro hdead ⟨r, hr, hcursor, hcovers, hfree⟩
    obtain ⟨hr', hcursor'⟩ := hrecords topic r hr hcursor hfree
    refine ⟨r, hr', hcursor', hcovers, Stand.not_anyone_update hfree fun hnew => ?_⟩
    rcases hsettles topic hdead r hr hnew with hold | huncovered
    · exact hfree ⟨i, hold⟩
    · exact huncovered n hn htopic hcovers

/-- A move that changes neither rows nor events nor records, to a stand that announces nothing new
and settles no record that covers a waiting row. -/
private theorem Kept.idle (h : b.Kept history stands) {answered : Answered} {serial : Nat}
    (hwritten : answered.written = none)
    (hs : s.Kept { b with serial } (answered :: history))
    (hannounces : ∀ id, s.Announces id → (stands i).Announces id)
    (hsettles : ∀ topic ≠ .deadLetter, ∀ r ∈ b.records topic, s.Settles topic r.offset →
      (stands i).Settles topic r.offset ∨
        ∀ n ∈ b.rows, n.status.topic = some topic → ¬ r.Covers n) :
    Kept { b with serial } (answered :: history) (Function.update stands i s) :=
  h.frame hwritten rfl hs (fun e he hpending => ⟨e, he, rfl, hpending, rfl, rfl⟩)
    (fun _ _ hr hcursor _ => ⟨hr, hcursor⟩) hannounces hsettles

/-! ## Writing a row -/

/-- Nobody announces an event whose identifier is not drawn yet. -/
private theorem Consistent.not_announces (hb : b.Consistent stands) {id : Uuid}
    (hid : ¬ b.Drawn id) : ¬ Stand.Anyone (Stand.Announces id) stands := by
  rintro ⟨j, hannounces⟩
  have hstand := hb.stands j
  cases hj : stands j with
  | announced e due =>
      rw [hj] at hstand hannounces
      obtain rfl : e.id = id := hannounces
      exact hid (hstand e List.mem_cons_self).1
  | _ =>
      rw [hj] at hannounces
      exact hannounces

/-- The record that a delivery settles is the one in hand. -/
private theorem brings_of_settles {origin : Origin} (horigin : origin.Sound b) {topic : Topic}
    {r : Record} (hr : r ∈ b.records topic) (hsettles : origin.settled.Settles topic r.offset)
    {n : Notification} (hbrings : origin.Brings n) : r.snapshot = some n := by
  cases origin with
  | request => exact hsettles.elim
  | record other r' rest =>
      obtain ⟨rfl, hoffset⟩ := hsettles
      obtain rfl := horigin.2.unique r' List.mem_cons_self r hr hoffset.symm
      exact hbrings

/-- It carries no row but that of the notification delivered. -/
private theorem covers_of_settles {origin : Origin} (horigin : origin.Sound b) {id : Uuid}
    (hcarries : origin.Carries id) {topic : Topic} {r : Record} (hr : r ∈ b.records topic)
    (hsettles : origin.settled.Settles topic r.offset) {x : Notification} (hcovers : r.Covers x) :
    x.id = id := by
  obtain ⟨n, hbrings, rfl⟩ := hcarries
  obtain ⟨m, hm, hid, -⟩ := hcovers
  obtain rfl := Option.some.inj ((brings_of_settles horigin hr hsettles hbrings).symm.trans hm)
  exact hid.symm

private theorem not_announces_settled (origin : Origin) (id : Uuid) :
    ¬ origin.settled.Announces id := by
  cases origin <;> exact nofun

private theorem kept_settled (origin : Origin) (b : Books) (history : List Answered) :
    origin.settled.Kept b history := by
  cases origin <;> exact trivial

private theorem not_announces_facing (topic : Topic) (rs : List Record) (id : Uuid) :
    ¬ (Stand.facing topic rs).Announces id := by
  cases rs with
  | nil => exact nofun
  | cons r rest =>
      rcases Stand.facing_cons topic r rest with ⟨-, heq⟩ | ⟨n, -, heq⟩ | ⟨-, heq⟩ <;> rw [heq] <;>
        exact nofun

private theorem kept_facing (topic : Topic) (rs : List Record) (b : Books)
    (history : List Answered) : (Stand.facing topic rs).Kept b history := by
  cases rs with
  | nil => exact trivial
  | cons r rest =>
      rcases Stand.facing_cons topic r rest with ⟨-, heq⟩ | ⟨n, -, heq⟩ | ⟨hnone, heq⟩
      · rw [heq]
        exact trivial
      · rw [heq]
        exact trivial
      · rw [heq]
        exact hnone

/-- Only dead letters are settled as soon as they are in hand. -/
private theorem dead_of_settles_facing {topic other : Topic} {rs : List Record} {offset : Int}
    (h : (Stand.facing topic rs).Settles other offset) : other = .deadLetter := by
  cases rs with
  | nil => exact h.elim
  | cons r rest =>
      rcases Stand.facing_cons topic r rest with ⟨hdead, heq⟩ | ⟨n, -, heq⟩ | ⟨-, heq⟩
      · rw [heq] at h
        exact h.1.symm.trans hdead
      · rw [heq] at h
        exact h.elim
      · rw [heq] at h
        exact h.elim

/-- A row is written, alone or with an event that keeps it. The other rows are kept as before,
since a record that is settled with the write is about the row written. -/
private theorem Kept.write (h : b.Kept history stands) (hb : b.Consistent stands)
    {n : Notification} {event : Option Uuid} {answered : Answered}
    (hwritten : answered.written = some (n.id, event))
    (hrows : b'.rows = Store.putInto n b.rows) (hevents : ∀ e ∈ b.events, e ∈ b'.events)
    (hbus : b'.bus = b.bus) (hfresh : ∀ id, event = some id → ¬ b.Drawn id)
    (hnew : ∀ topic, n.status.topic = some topic → ∃ id, event = some id ∧
      ∃ e ∈ b'.events, e.id = id ∧ e.status = .pending ∧ e.notificationId = n.id ∧
        e.topic = topic.name)
    (hs : s.Kept b' (answered :: history)) (hannounces : ∀ id, ¬ s.Announces id)
    (hsettles : ∀ topic, ∀ r ∈ b.records topic, s.Settles topic r.offset → ∀ x, r.Covers x →
      x.id = n.id) :
    b'.Kept (answered :: history) (Function.update stands i s) where
  rows := by
    intro x hx topic htopic
    rw [hrows] at hx
    rcases (Store.mem_putInto hb.books.rows_nodup).mp hx with rfl | ⟨hx, hne⟩
    · obtain ⟨id, rfl, e, he, hid, hpending, habout, hto⟩ := hnew topic htopic
      refine ⟨id, ?_, Or.inl ⟨e, he, hid, hpending, habout, hto,
        Stand.not_anyone_update (hb.not_announces (hfresh id rfl)) (hannounces id)⟩⟩
      rw [latestEvent, hwritten]
      exact if_pos rfl
    · obtain ⟨id, hlatest, hsecures⟩ := h.rows x hx topic htopic
      refine ⟨id, ?_, hsecures.step ?_ ?_⟩
      · rw [latestEvent, hwritten]
        exact (if_neg (Ne.symm hne)).trans hlatest
      · rintro ⟨e, he, hid, hpending, habout, hto, hfree⟩
        exact Or.inl ⟨e, hevents e he, hid, hpending, habout, hto,
          Stand.not_anyone_update hfree (hannounces id)⟩
      · rintro - ⟨r, hr, hcursor, hcovers, hfree⟩
        refine ⟨r, ?_, ?_, hcovers, Stand.not_anyone_update hfree fun hsettled =>
          hne (hsettles topic r hr hsettled x hcovers)⟩
        · rwa [records, hbus]
        · rwa [cursor, hbus]
  stands := by
    refine Stand.forall_update (fun j => ?_) hs
    have hstand := h.stands j
    cases hstands : stands j with
    | lookedUp e m due =>
        rw [hstands] at hstand
        have hsound := hb.stands j
        rw [hstands] at hsound
        intro hlatest
        rw [latestEvent, hwritten] at hlatest
        dsimp only at hlatest
        -- A lookup for this row is out of date now: the row's event is a new one.
        by_cases hid : n.id = m.id
        · rw [if_pos hid] at hlatest
          exact absurd (hsound.2 e List.mem_cons_self).1 (hfresh e.id hlatest)
        · rw [if_neg hid] at hlatest
          rw [hrows]
          exact (Store.mem_putInto hb.books.rows_nodup).mpr
            (Or.inr ⟨hstand hlatest, Ne.symm hid⟩)
    | unreadable topic r rest =>
        rw [hstands] at hstand
        exact hstand
    | _ => exact trivial

/-- A row written with an event that promises it to the topic on which it waits. -/
private theorem Kept.promise (h : b.Kept history stands) (hb : b.Consistent stands)
    {n : Notification} {topic : Topic} {e : OutboxEvent} (htopic : n.status.topic = some topic)
    (heffect : b.Effect (.saveWithOutbox n topic.name) (.ok e) b')
    (hserial : b'.serial ≤ serialLimit) (hs : ∀ b history, s.Kept b history)
    (hannounces : ∀ id, ¬ s.Announces id)
    (hsettles : ∀ topic, ∀ r ∈ b.records topic, s.Settles topic r.offset → ∀ x, r.Covers x →
      x.id = n.id) :
    b'.Kept (⟨.saveWithOutbox n topic.name, .ok e⟩ :: history)
      (Function.update stands i s) := by
  obtain ⟨⟨now, rfl⟩, rfl⟩ := heffect.of_saveWithOutbox
  refine h.write hb rfl rfl (fun e he => List.mem_append_left _ he) rfl ?_ ?_ (hs _ _)
    hannounces hsettles
  · rintro id hid
    obtain rfl := Option.some.inj hid
    exact not_drawn_next (Nat.lt_of_succ_le hserial)
  · intro other hother
    obtain rfl := Option.some.inj (htopic.symm.trans hother)
    exact ⟨_, rfl, _, List.mem_append_right _ (List.mem_singleton_self _), rfl, rfl, rfl, rfl⟩

/-! ## Publishing, marking and committing -/

/-- Nobody has settled a record at the head of a topic. -/
private theorem Consistent.not_settles_head (hb : b.Consistent stands) (topic : Topic) :
    ¬ Stand.Anyone (Stand.Settles topic (b.head topic)) stands := by
  rintro ⟨j, hsettles⟩
  have hstand := hb.stands j
  cases hj : stands j with
  | settled other r rest =>
      rw [hj] at hstand hsettles
      obtain ⟨rfl, hoffset⟩ := hsettles
      have hlt := hstand.below r List.mem_cons_self
      omega
  | _ =>
      rw [hj] at hsettles
      exact hsettles

/-- Once the event of a row is published, what was published carries the row. -/
private theorem Kept.announce (h : b.Kept history stands) (hb : b.Consistent stands)
    {e : OutboxEvent} {n : Notification} {due : List OutboxEvent} {key : Option String}
    {now : Instant} (hi : stands i = .lookedUp e n due)
    (heffect : b.Effect (.publish e.topic key (Envelope.ofNotification n now).encode) (.ok ()) b') :
    b'.Kept (⟨.publish e.topic key (Envelope.ofNotification n now).encode, .ok ()⟩ :: history)
      (Function.update stands i (.announced e due)) := by
  have hsound := hb.stands i
  rw [hi] at hsound
  obtain ⟨hid, hfetched⟩ := hsound
  obtain ⟨-, -, habout⟩ := hfetched e List.mem_cons_self
  have hknown := h.stands i
  rw [hi] at hknown
  obtain ⟨later, rfl⟩ := heffect.of_publish
  refine h.move rfl rfl trivial fun x hx topic id _ hlatest hsecures => hsecures.step ?_ ?_
  · rintro ⟨e', he', hid', hpending, hx', hto, hfree⟩
    by_cases hsame : e.id = id
    · -- The event just published is the one created with the row, so the row is unchanged.
      obtain ⟨hnotification, htopic⟩ := habout e' he' (hid'.trans hsame.symm)
      have hxn : x.id = n.id := by rw [← hx', hnotification, hid]
      rw [← hsame, hxn] at hlatest
      obtain rfl := Store.eq_of_id_eq hb.books.rows_nodup hx (hknown hlatest) hxn
      have hname : topic.name = e.topic := hto.symm.trans htopic
      apply Or.inr
      by_cases hdead : topic = .deadLetter
      · rw [if_pos hdead]
        subst hdead
        refine ⟨key, _, _, ?_, Envelope.decode_ofNotification x now, rfl⟩
        rw [hname]
        exact List.mem_cons_self
      · rw [if_neg hdead]
        refine ⟨⟨e.topic, 0, b.head topic, key, _⟩, mem_records_append.mpr (Or.inr ⟨hname, rfl⟩),
          hb.books.cursor_le_head topic, ⟨x.told, ?_, rfl, UInt32.le_refl _⟩,
          Stand.not_anyone_update (hb.not_settles_head topic) fun h => h⟩
        exact Stand.snapshot_ofNotification rfl
    · exact Or.inl ⟨e', he', hid', hpending, hx', hto, Stand.not_anyone_update hfree hsame⟩
  · rintro - ⟨r, hr, hcursor, hcovers, hfree⟩
    exact ⟨r, mem_records_append.mpr (Or.inl hr), hcursor, hcovers,
      Stand.not_anyone_update hfree fun h => h⟩

/-- An event that is marked promises nothing: it has been announced. -/
private theorem Kept.mark (h : b.Kept history stands) (hb : b.Consistent stands)
    {e : OutboxEvent} {due : List OutboxEvent} (hi : stands i = .announced e due)
    (heffect : b.Effect (.markPublished e.id) (.ok ()) b') :
    b'.Kept (⟨.markPublished e.id, .ok ()⟩ :: history)
      (Function.update stands i (.publishing due)) := by
  obtain ⟨now, events, hchange, rfl⟩ := heffect.of_markPublished
  refine h.move rfl rfl trivial fun x hx topic id _ _ hsecures => hsecures.step ?_ ?_
  · rintro ⟨e', he', hid', hpending, hx', hto, hfree⟩
    have hne : e.id ≠ id := by
      intro heq
      refine hfree ⟨i, ?_⟩
      rw [hi]
      exact heq
    have hkept : e' ∈ events :=
      (Store.mem_changeEvent hb.books.events_nodup hchange).mpr
        (Or.inr ⟨he', fun heq => hne (heq.symm.trans hid')⟩)
    exact Or.inl ⟨e', hkept, hid', hpending, hx', hto, Stand.not_anyone_update hfree fun h => h⟩
  · rintro - ⟨r, hr, hcursor, hcovers, hfree⟩
    exact ⟨r, hr, hcursor, hcovers, Stand.not_anyone_update hfree fun h => h⟩

/-- The record in hand is dealt with and lies before everything that still has to be. -/
private theorem Kept.commit (h : b.Kept history stands) (hb : b.Consistent stands) {topic : Topic}
    {r : Record} {rest : List Record} (hi : stands i = .settled topic r rest)
    (heffect : b.Effect (.commit topic.subscription r.offset) (.ok ()) b') :
    b'.Kept (⟨.commit topic.subscription r.offset, .ok ()⟩ :: history)
      (Function.update stands i (.facing topic rest)) := by
  have hreads := hb.stands i
  rw [hi] at hreads
  obtain rfl := heffect.of_commit
  refine h.frame rfl rfl (kept_facing topic rest _ _)
    (fun e he hpending => ⟨e, he, rfl, hpending, rfl, rfl⟩) ?_
    (fun id hannounces => absurd hannounces (not_announces_facing topic rest id))
    fun other hother r' _ hsettles => absurd (dead_of_settles_facing hsettles) hother
  intro other r' hr' hcursor hfree
  refine ⟨hr', ?_⟩
  rw [cursor_commit]
  split
  · next heq =>
    subst heq
    have hne : r ≠ r' := by
      rintro rfl
      refine hfree ⟨i, ?_⟩
      rw [hi]
      exact ⟨rfl, rfl⟩
    have hbehind : Bus.behind r.offset ≤ r'.offset := by
      unfold Bus.behind
      rcases hreads.complete r' hr' hcursor with hmem | hbeyond | hlast
      · have hmem := (List.mem_cons.mp hmem).resolve_left (Ne.symm hne)
        have hlt := List.rel_of_pairwise_cons hreads.ordered hmem
        omega
      · have hlt := hbeyond r List.mem_cons_self
        omega
      · omega
    exact max_le hcursor hbehind
  · exact hcursor

/-- A message that is skipped is out of date, so it carries no row that waits on its topic. -/
private theorem Kept.skip (h : b.Kept history stands) (hb : b.Consistent stands) {origin : Origin}
    {n stored : Notification} (hi : stands i = .handling origin n) (houtdates : stored.Outdates n)
    (heffect : b.Effect (.findById n.id) (.ok (some stored)) b') :
    b'.Kept (⟨.findById n.id, .ok (some stored)⟩ :: history)
      (Function.update stands i origin.settled) := by
  have hsound := hb.stands i
  rw [hi] at hsound
  obtain ⟨horigin, hbrings⟩ := hsound
  obtain ⟨hfound, rfl⟩ := heffect.of_findById
  obtain ⟨hstored, hid⟩ := Store.find?_some hfound.symm
  refine h.idle rfl (kept_settled origin _ _)
    (fun id hannounces => absurd hannounces (not_announces_settled origin id)) ?_
  intro topic _ r hr hsettles
  refine Or.inr fun x hx htopic ⟨m, hm, hmx, hcount⟩ => ?_
  obtain rfl := Option.some.inj ((brings_of_settles horigin hr hsettles hbrings).symm.trans hm)
  obtain rfl := Store.eq_of_id_eq hb.books.rows_nodup hx hstored (hmx.symm.trans hid.symm)
  rcases houtdates with hsent | hless
  · rw [hsent] at htopic
    exact absurd htopic nofun
  · exact absurd hless (UInt32.not_lt.mpr hcount)

/-- A record that cannot be read carries no row, so it may be reported and passed. -/
private theorem Kept.report (h : b.Kept history stands) (hb : b.Consistent stands) {topic : Topic}
    {r : Record} {rest : List Record} {key : Option String} {payload : Bytes}
    (hi : stands i = .unreadable topic r rest)
    (heffect : b.Effect (.publish Topic.deadLetter.name key payload) (.ok ()) b') :
    b'.Kept (⟨.publish Topic.deadLetter.name key payload, .ok ()⟩ :: history)
      (Function.update stands i (.settled topic r rest)) := by
  have hreads := hb.stands i
  rw [hi] at hreads
  have hunreadable := h.stands i
  rw [hi] at hunreadable
  obtain ⟨now, rfl⟩ := heffect.of_publish
  refine h.frame rfl rfl trivial (fun e he hpending => ⟨e, he, rfl, hpending, rfl, rfl⟩)
    (fun _ _ hr hcursor _ => ⟨mem_records_append.mpr (Or.inl hr), hcursor⟩)
    (fun _ hannounces => hannounces.elim) ?_
  rintro other - r' hr' ⟨rfl, hoffset⟩
  refine Or.inr fun x _ _ ⟨m, hm, _⟩ => ?_
  rw [hreads.unique r List.mem_cons_self r' hr' hoffset.symm, hunreadable] at hm
  exact nomatch hm

/-- A change of one event that leaves it pending and about what it was. -/
private theorem Kept.postpone (h : b.Kept history stands) (hb : b.Consistent stands) {id : Uuid}
    {error : String} {next : Instant} {due : List OutboxEvent}
    (heffect : b.Effect (.markFailed id error next) (.ok ()) b') :
    b'.Kept (⟨.markFailed id error next, .ok ()⟩ :: history)
      (Function.update stands i (.publishing due)) := by
  obtain ⟨now, events, hchange, rfl⟩ := heffect.of_markFailed
  refine h.frame rfl rfl trivial ?_ (fun _ _ hr hcursor _ => ⟨hr, hcursor⟩)
    (fun _ hannounces => hannounces.elim) fun _ _ _ _ hsettles => hsettles.elim
  intro e he hpending
  by_cases hid : e.id = id
  · exact ⟨_, (Store.mem_changeEvent hb.books.events_nodup hchange).mpr
      (Or.inl ⟨e, he, hid, rfl⟩), rfl, hpending, rfl, rfl⟩
  · exact ⟨e, (Store.mem_changeEvent hb.books.events_nodup hchange).mpr (Or.inr ⟨he, hid⟩), rfl,
      hpending, rfl, rfl⟩

/-! ## Runs with any faults -/

/-- A thread comes to another stand without a call. -/
private theorem Kept.replace (h : b.Kept history stands) (hs : s.Kept b history)
    (hannounces : ∀ id, ¬ s.Announces id) (hsettles : ∀ topic offset, ¬ s.Settles topic offset) :
    b.Kept history (Function.update stands i s) where
  rows := by
    intro n hn topic htopic
    obtain ⟨id, hlatest, hsecures⟩ := h.rows n hn topic htopic
    refine ⟨id, hlatest, ?_⟩
    rcases hsecures with ⟨e, he, hid, hpending, habout, hto, hfree⟩ | hcarries
    · exact Or.inl ⟨e, he, hid, hpending, habout, hto,
        Stand.not_anyone_update hfree (hannounces id)⟩
    · apply Or.inr
      split
      · next hdead => rwa [if_pos hdead] at hcarries
      · next hdead =>
        rw [if_neg hdead] at hcarries
        obtain ⟨r, hr, hcursor, hcovers, hfree⟩ := hcarries
        exact ⟨r, hr, hcursor, hcovers,
          Stand.not_anyone_update hfree (hsettles topic r.offset)⟩
  stands := Stand.forall_update h.stands hs

end Books

/-- A channel claims that what it was given cannot be read. -/
def Answered.garbles : Answered → Bool
  | ⟨.send _ _, .error (.deserialization _)⟩ => true
  | _ => false

/-- Anything may run, overlap, fail or be abandoned, but no channel claims that what it was given
cannot be read. -/
def Rules.faulty : Rules where
  runs op := op.task ≠ .delivery
  single _ := False
  abandons _ := True
  answers c a := Answered.garbles ⟨c, a⟩ = false

open Books in
theorem Rules.preserves_kept : Rules.faulty.Preserves Books.Kept where
  starts := by
    intro b history stands i op _ h _ _ _
    refine h.replace ?_ ?_ ?_ <;> cases op <;> first | exact trivial | exact nofun
  moves := by
    intro b b' history stands i c a s hb h hmove heffect hanswer hserial
    have hkept := h.stands i
    have hsound := hb.stands i
    generalize hi : stands i = s₀ at hmove hkept hsound
    have hidle {s : Stand} (hs : s.Kept b (⟨c, a⟩ :: history))
        (hwritten : (⟨c, a⟩ : Answered).written = none)
        (hbooks : ∃ serial, b' = { b with serial }) (hannounces : ∀ id, ¬ s.Announces id)
        (hsettles : ∀ topic ≠ .deadLetter, ∀ offset, ¬ s.Settles topic offset) :
        b'.Kept (⟨c, a⟩ :: history) (Function.update stands i s) := by
      obtain ⟨serial, rfl⟩ := hbooks
      exact h.idle hwritten hs (fun id hid => absurd hid (hannounces id))
        fun topic hother r _ hsettled => absurd hsettled (hsettles topic hother r.offset)
    cases hmove with
    | passes hc =>
        obtain ⟨serial, -, rfl⟩ := heffect.of_idle (Or.inl hc)
        have hwritten := Answered.written_of_passes (a := a) hc
        refine h.idle hwritten (hkept.move hwritten rfl) (fun id hid => ?_)
          fun topic _ r _ hsettled => Or.inl ?_
        · rwa [hi]
        · rwa [hi]
    | fails hc =>
        obtain ⟨serial, -, hbooks⟩ := heffect.of_idle (Or.inr (Or.inl hc))
        exact hidle trivial (Answered.written_of_fails hc) ⟨serial, hbooks⟩ nofun nofun
    | draws => exact hidle trivial rfl ⟨_, heffect.of_newId.2⟩ nofun nofun
    | promises hpending =>
        refine h.promise hb (by rw [hpending]; rfl) heffect hserial (fun _ _ => trivial) nofun nofun
    | fetches => exact hidle trivial rfl ⟨_, heffect.of_dueEvents.2.2⟩ nofun nofun
    | looksUp =>
        obtain ⟨hfound, rfl⟩ := heffect.of_findById
        exact hidle (fun _ => (Store.find?_some hfound.symm).1) rfl ⟨_, rfl⟩ nofun nofun
    | misses => exact hidle trivial rfl ⟨_, heffect.of_findById.2⟩ nofun nofun
    | announces => exact h.announce hb hi heffect
    | misfires =>
        obtain ⟨serial, -, hbooks⟩ := heffect.of_idle (Or.inr (Or.inl ⟨_, rfl⟩))
        exact hidle trivial rfl ⟨serial, hbooks⟩ nofun nofun
    | marks => exact h.mark hb hi heffect
    | forgets =>
        obtain ⟨serial, -, hbooks⟩ := heffect.of_idle (Or.inr (Or.inl ⟨_, rfl⟩))
        exact hidle trivial rfl ⟨serial, hbooks⟩ nofun nofun
    | postpones => exact h.postpone hb heffect
    | polls =>
        exact hidle (kept_facing _ _ _ _) rfl ⟨_, heffect.of_poll.2⟩ (not_announces_facing _ _)
          fun _ hother _ hsettles => hother (dead_of_settles_facing hsettles)
    | skips houtdates => exact h.skip hb hi houtdates heffect
    | begins | trusts => exact hidle trivial rfl ⟨_, heffect.of_findById.2⟩ nofun nofun
    | delivers | rejects =>
        obtain ⟨serial, -, hbooks⟩ := heffect.of_idle (Or.inr (Or.inr ⟨_, _, rfl⟩))
        exact hidle trivial rfl ⟨serial, hbooks⟩ nofun nofun
    | garbles => exact nomatch hanswer
    | @records origin n now =>
        obtain ⟨horigin, hcarries⟩ := hsound
        obtain rfl := heffect.of_save
        exact h.write hb rfl rfl (fun _ he => he) rfl nofun nofun (kept_settled origin _ _)
          (not_announces_settled origin)
          fun topic r hr hsettles x => covers_of_settles horigin hcarries hr hsettles
    | @reschedules origin =>
        obtain ⟨horigin, hcarries⟩ := hsound
        exact h.promise hb rfl heffect hserial (kept_settled origin) (not_announces_settled origin)
          fun topic r hr hsettles x => covers_of_settles horigin hcarries hr hsettles
    | @buries origin =>
        obtain ⟨horigin, hcarries⟩ := hsound
        exact h.promise hb rfl heffect hserial (kept_settled origin) (not_announces_settled origin)
          fun topic r hr hsettles x => covers_of_settles horigin hcarries hr hsettles
    | numbers => exact hidle hkept rfl ⟨_, heffect.of_newId.2⟩ nofun nofun
    | reports => exact h.report hb hi heffect
    | commits => exact h.commit hb hi heffect
    | lists => exact hidle trivial rfl ⟨_, heffect.of_findByStatus.2⟩ nofun nofun
    | republishes =>
        obtain ⟨now, rfl⟩ := heffect.of_publish
        exact h.frame rfl rfl trivial (fun e he hpending => ⟨e, he, rfl, hpending, rfl, rfl⟩)
          (fun _ _ hr hcursor _ => ⟨mem_records_append.mpr (Or.inl hr), hcursor⟩) nofun nofun
    | deletes =>
        obtain rfl := heffect.of_deletePublished
        refine h.frame rfl rfl trivial (fun e he hpending => ⟨e, ?_, rfl, hpending, rfl, rfl⟩)
          (fun _ _ hr hcursor _ => ⟨hr, hcursor⟩) nofun nofun
        exact List.mem_filter.mpr ⟨he, by rw [hpending]; rfl⟩
    | prunes =>
        obtain rfl := heffect.of_prune
        exact h.frame rfl rfl trivial (fun e he hpending => ⟨e, he, rfl, hpending, rfl, rfl⟩)
          (fun _ _ hr hcursor _ => ⟨hb.books.mem_records_prune hr hcursor, by rwa [cursor_prune]⟩)
          nofun nofun
  leaves := by
    intro b history stands i _ h _
    exact h.replace trivial nofun nofun

namespace World

/-- A pending event promises the notification to the topic. -/
def Promises (w : World) (topic : Topic) (n : Notification) : Prop :=
  ∃ e ∈ w.store.outbox, e.status = .pending ∧ e.notificationId = n.id ∧ e.topic = topic.name

/-- A record that the group of the topic has not passed carries the notification, and knows no
fewer failures of it than the store. -/
def Carries (w : World) (topic : Topic) (n : Notification) : Prop :=
  ∃ r ∈ w.bus.records topic.name, w.bus.cursor topic.subscription ≤ r.offset ∧ r.Covers n

end World

theorem World.IsBlank.kept {w : World} (h : w.IsBlank) : w.books.Kept [] fun _ => .over := by
  refine ⟨?_, fun _ => trivial⟩
  rw [show w.books.rows = [] from h.rows]
  exact List.forall_mem_nil _

/-- As long as no identifier is drawn twice, no accepted notification is lost, whatever overlaps,
fails or is abandoned: the pending and the failed ones are promised or carried to be sent or to be
tried again, and the dead letters are promised as such or have been published. -/
theorem System.Steps.nothing_lost {w : World} {s : System} (hblank : w.IsBlank)
    (hsteps : Steps .faulty (.idle w) s) (hserial : s.world.serial ≤ Books.serialLimit) :
    ∀ n ∈ s.world.store.notifications,
      (n.status = .pending → s.world.Promises .send n ∨ s.world.Carries .send n) ∧
      (n.status = .failed → s.world.Promises .retry n ∨ s.world.Carries .retry n) ∧
      (n.status = .deadLettered →
        s.world.Promises .deadLetter n ∨ DeadLetterSent s.history n.id) := by
  obtain ⟨stands, -, -, hkept⟩ :=
    hsteps.retains Rules.preserves_kept (fun _ hruns => hruns) hblank hblank.kept hserial
  intro n hn
  have hsecured (topic : Topic) (htopic : n.status.topic = some topic) :
      s.world.Promises topic n ∨
        if topic = .deadLetter then DeadLetterSent s.history n.id
        else s.world.Carries topic n := by
    obtain ⟨id, -, hsecures⟩ := hkept.rows n hn topic htopic
    rcases hsecures with ⟨e, he, -, hpending, habout, hto, -⟩ | hcarries
    · exact Or.inl ⟨e, he, hpending, habout, hto⟩
    · apply Or.inr
      split
      · next hdead => rwa [if_pos hdead] at hcarries
      · next hdead =>
        rw [if_neg hdead] at hcarries
        obtain ⟨r, hr, hcursor, hcovers, -⟩ := hcarries
        exact ⟨r, hr, hcursor, hcovers⟩
  refine ⟨fun hstatus => ?_, fun hstatus => ?_, fun hstatus => ?_⟩
  · exact hsecured .send (by rw [hstatus]; rfl)
  · exact hsecured .retry (by rw [hstatus]; rfl)
  · exact hsecured .deadLetter (by rw [hstatus]; rfl)

/-- A notification that was just taken in is promised to be sent. -/
theorem System.Steps.nothing_lost_submit :
    ∃ s : System, Steps .faulty (.idle (Sample.world [])) s ∧
      ∃ n ∈ s.world.store.notifications, n.status = .pending ∧
        (s.world.Promises .send n ∨ s.world.Carries .send n) := by
  let s := (System.idle (Sample.world [])).perform 0 (.submit Sample.request) 10
  have hsteps : Steps .faulty (.idle (Sample.world [])) s := by
    refine steps_perform _ 0 rfl (show Task.intake ≠ .delivery by decide) nofun ?_
      (by decide +kernel)
    change ∀ x ∈ s.history, Answered.garbles x = false
    decide +kernel
  have hn : Notification.ofRequest Sample.request (.ofSerial 0) (Sample.world []).now ∈
      s.world.store.notifications := by decide +kernel
  have hlost := hsteps.nothing_lost (Sample.isBlank_world []) (by decide +kernel) _ hn
  exact ⟨s, hsteps, _, hn, rfl, hlost.1 rfl⟩

end Courier
