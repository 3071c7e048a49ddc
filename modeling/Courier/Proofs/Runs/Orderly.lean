import Courier.Proofs.Runs.Consistency

/-!
Runs in which one thread at a time publishes the outbox, one takes batches of each topic, and no
published event stays unmarked. There a notification that waits is kept by at most one thing, a
pending event or a record still to be passed, and one that is buried by none, unless dead letters
are sent again. What moves such a token is always the thread that has it in hand, so a row does
not change under a delivery.
-/

namespace Courier

/-! ## Tokens -/

/-- The notification is still to be delivered by the pipeline itself. -/
def Status.Waits (status : Status) : Prop := status = .pending ∨ status = .failed

instance (status : Status) : Decidable status.Waits := inferInstanceAs (Decidable (_ ∨ _))

/-- What can keep a notification on the topics to deliver from. -/
inductive Token where
  | promise (event : Uuid)
  | message (topic : Topic) (offset : Int)
  deriving DecidableEq

/-- A token that keeps a notification: an event not yet published, or a record not yet passed. -/
def Books.Live (b : Books) (stands : Nat → Stand) (n : Notification) : Token → Prop
  | .promise id => ∃ e ∈ b.events, e.id = id ∧ e.status = .pending ∧ e.notificationId = n.id ∧
      e.topic ≠ Topic.deadLetter.name ∧ ¬ Stand.Anyone (Stand.Announces id) stands
  | .message topic offset => topic ≠ .deadLetter ∧ ∃ r ∈ b.records topic, r.offset = offset ∧
      b.cursor topic ≤ offset ∧ r.Covers n

/-! ## Order -/

/-- The work that only one thread does at a time. -/
def Task.Exclusive : Task → Prop
  | .outbox | .batch _ => True
  | _ => False

namespace Books

variable (b : Books)

/-- Events to publish, each of them once. -/
def Publishes (due : List OutboxEvent) : Prop :=
  (due.map (·.id)).Nodup ∧ ∀ e ∈ due, e ∈ b.events ∧ e.status = .pending

/-- Records in hand that are still to be passed. -/
def Holds (topic : Topic) (rs : List Record) : Prop :=
  ∀ r ∈ rs, r ∈ b.records topic ∧ b.cursor topic ≤ r.offset

/-- A notification knows no more failures than its row. -/
def Counts (n : Notification) : Prop := ∀ x ∈ b.rows, x.id = n.id → n.retryCount ≤ x.retryCount

end Books

/-- The record in hand, and those behind it, are still to be passed. -/
def Origin.Held (b : Books) : Origin → Prop
  | .request => True
  | .record topic r rest => b.Holds topic (r :: rest)

/-- The record in hand covers a row. -/
def Origin.Covers (n : Notification) : Origin → Prop
  | .request => False
  | .record _ r _ => r.Covers n

namespace Stand

/-- The row that a delivery has in hand. -/
def Attempts (n : Notification) : Stand → Prop
  | .attempting _ m | .delivered _ m | .rejected _ m => m = n
  | _ => False

/-- What a stand keeps is as in the books. Dead letters are sent `again` or not. -/
def Orderly (again : Prop) (b : Books) : Stand → Prop
  | .drew id => ¬ b.Known id
  | .publishing due => b.Publishes due
  | .lookedUp e n due => b.Publishes (e :: due) ∧ b.Counts n
  | .announced e due | .putOff e due => b.Publishes (e :: due)
  | .handling origin _ => origin.Held b
  | .attempting origin n | .delivered origin n | .rejected origin n =>
    origin.Held b ∧ origin.Covers n ∧ n ∈ b.rows ∧ n.status ≠ .sent
  | .unreadable topic r rest | .settled topic r rest => b.Holds topic (r :: rest)
  | .listing => again
  | .republishing ns => again ∧ ∀ n ∈ ns, ∀ x ∈ b.rows, x.id = n.id →
      n.retryCount ≤ x.retryCount ∧ (x.status.Waits → n.retryCount < x.retryCount)
  | _ => True

end Stand

/-- One thread for each exclusive task, at most one token for each row that waits, and none for
one that is buried but what is sent again. -/
structure Books.Orderly (again : Prop) (b : Books) (stands : Nat → Stand) : Prop where
  alone : ∀ i j task, task.Exclusive → (stands i).task = some task → (stands j).task = some task →
    i = j
  draws : ∀ i j id, stands i = .drew id → stands j = .drew id → i = j
  single : ∀ n ∈ b.rows, n.status.Waits → ∀ t t', b.Live stands n t → b.Live stands n t' → t = t'
  room : ∀ n ∈ b.rows, n.status.Waits → n.retryCount.toNat < 0xffff_ffff
  buried : ∀ n ∈ b.rows, n.status = .deadLettered → ∀ t, b.Live stands n t →
    again ∧ ∃ offset, t = .message .send offset
  counts : ∀ topic ≠ .deadLetter, ∀ r ∈ b.records topic, ∀ n, r.snapshot = some n → b.Counts n
  stands : ∀ i, (stands i).Orderly again b

/-! ## Counting -/

theorem le_countUp (n : UInt32) : n ≤ countUp n := by
  have hlt := n.toNat_lt
  rw [UInt32.le_iff_toNat_le, toNat_countUp]
  omega

theorem lt_countUp {n : UInt32} (h : n.toNat < 0xffff_ffff) : n < countUp n := by
  rw [UInt32.lt_iff_toNat_lt, toNat_countUp]
  omega

/-! ## Moves that write no row -/

private theorem facing_ne_drew (topic : Topic) (rs : List Record) (id : Uuid) :
    Stand.facing topic rs ≠ .drew id := by
  intro heq
  have htask := Stand.task_facing topic rs
  rw [heq] at htask
  exact absurd htask nofun

private theorem settled_ne_drew (origin : Origin) (id : Uuid) : origin.settled ≠ .drew id := by
  cases origin <;> exact nofun

private theorem unreadable_ne_drew (origin : Origin) (id : Uuid) :
    origin.unreadable ≠ .drew id := by
  cases origin <;> exact nofun

variable {again : Prop} {b b' : Books} {stands stands' : Nat → Stand} {i : Nat} {s : Stand}

/-- Tokens of a row were there before if its pending events and records were, and if no pending
event stopped being announced. -/
theorem Books.Live.mono {n : Notification} {t : Token} (h : b'.Live stands' n t)
    (hevents : ∀ e' ∈ b'.events, e'.status = .pending → ∃ e ∈ b.events, e.id = e'.id ∧
      e.status = .pending ∧ e.notificationId = e'.notificationId ∧ e.topic = e'.topic)
    (hrecords : ∀ topic ≠ .deadLetter, ∀ r ∈ b'.records topic, r ∈ b.records topic)
    (hcursor : ∀ topic, b.cursor topic ≤ b'.cursor topic)
    (hannounced : ∀ e' ∈ b'.events, e'.status = .pending →
      Stand.Anyone (Stand.Announces e'.id) stands → Stand.Anyone (Stand.Announces e'.id) stands') :
    b.Live stands n t := by
  cases t with
  | promise id =>
      obtain ⟨e', he', rfl, hpending', habout', hto', hfree⟩ := h
      obtain ⟨e, he, hid, hpending, habout, hto⟩ := hevents e' he' hpending'
      exact ⟨e, he, hid, hpending, habout.trans habout', hto ▸ hto', fun hannounces =>
        hfree (hannounced e' he' hpending' hannounces)⟩
  | message topic offset =>
      obtain ⟨htopic, r, hr, hoffset, hbehind, hcovers⟩ := h
      exact ⟨htopic, r, hrecords topic htopic r hr, hoffset, (hcursor topic).trans hbehind,
        hcovers⟩

/-- A stand is as orderly as before if no row is written and what its task has in hand is kept. -/
theorem Stand.Orderly.mono (h : s.Orderly again b) (hrows : b'.rows = b.rows)
    (hevents : s.task = some .outbox → ∀ e ∈ b.events, e.status = .pending → e ∈ b'.events)
    (hrecords : ∀ topic, s.task = some (.batch topic) → ∀ r ∈ b.records topic,
      b.cursor topic ≤ r.offset → r ∈ b'.records topic ∧ b'.cursor topic ≤ r.offset) :
    s.Orderly again b' := by
  have hpublishes {due : List OutboxEvent} (htask : s.task = some .outbox)
      (h : b.Publishes due) : b'.Publishes due :=
    ⟨h.1, fun e he => ⟨hevents htask e (h.2 e he).1 (h.2 e he).2, (h.2 e he).2⟩⟩
  have hholds {topic : Topic} {rs : List Record} (htask : s.task = some (.batch topic))
      (h : b.Holds topic rs) : b'.Holds topic rs :=
    fun r hr => hrecords topic htask r (h r hr).1 (h r hr).2
  have hheld {origin : Origin} (htask : s.task = some origin.task) (h : origin.Held b) :
      origin.Held b' := by
    cases origin with
    | request => exact trivial
    | record topic r rest => exact hholds htask h
  cases s with
  | drew id =>
      rintro ⟨n, hn, hid⟩
      rw [hrows] at hn
      exact h ⟨n, hn, hid⟩
  | publishing due => exact hpublishes rfl h
  | lookedUp e n due =>
      refine ⟨hpublishes rfl h.1, ?_⟩
      intro x hx
      rw [hrows] at hx
      exact h.2 x hx
  | announced e due => exact hpublishes rfl h
  | putOff e due => exact hpublishes rfl h
  | handling origin n => exact hheld rfl h
  | attempting origin n => exact ⟨hheld rfl h.1, h.2.1, hrows ▸ h.2.2.1, h.2.2.2⟩
  | delivered origin n => exact ⟨hheld rfl h.1, h.2.1, hrows ▸ h.2.2.1, h.2.2.2⟩
  | rejected origin n => exact ⟨hheld rfl h.1, h.2.1, hrows ▸ h.2.2.1, h.2.2.2⟩
  | unreadable topic r rest => exact hholds rfl h
  | settled topic r rest => exact hholds rfl h
  | republishing ns =>
      refine ⟨h.1, ?_⟩
      rw [hrows]
      exact h.2
  | listing => exact h
  | _ => exact trivial

namespace Books.Orderly

/-- What no two threads share is not shared when one goes on, if no other thread has what that one
then has. -/
private theorem unshared_update {P : Stand → Prop}
    (h : ∀ j k, P (stands j) → P (stands k) → j = k) (hs : P s → ∀ j ≠ i, ¬ P (stands j))
    (j k : Nat) (hj : P (Function.update stands i s j)) (hk : P (Function.update stands i s k)) :
    j = k := by
  by_cases hji : j = i <;> by_cases hki : k = i
  · rw [hji, hki]
  · subst hji
    rw [Function.update_self] at hj
    rw [Function.update_of_ne hki] at hk
    exact absurd hk (hs hj k hki)
  · subst hki
    rw [Function.update_self] at hk
    rw [Function.update_of_ne hji] at hj
    exact absurd hj (hs hk j hji)
  · rw [Function.update_of_ne hji] at hj
    rw [Function.update_of_ne hki] at hk
    exact h j k hj hk

/-- Two threads never do the same exclusive work. -/
theorem task_ne (h : b.Orderly again stands) {task : Task}
    (hi : (stands i).task = some task) (hexclusive : task.Exclusive) {j : Nat} (hj : j ≠ i) :
    (stands j).task ≠ some task :=
  fun htask => hj (h.alone j i task hexclusive htask hi)

/-- A thread that goes on with its task or ends it has no other one beside it. -/
private theorem alone_of_task (h : b.Orderly again stands)
    (htask : s.task = none ∨ s.task = (stands i).task) :
    ∀ task, task.Exclusive → s.task = some task → ∀ j ≠ i, (stands j).task ≠ some task := by
  intro task hexclusive hs j hj
  rcases htask with hnone | hsame
  · exact nomatch hnone.symm.trans hs
  · exact h.task_ne (hsame.symm.trans hs) hexclusive hj

private theorem apart (h : b.Orderly again stands)
    (halone : ∀ task, task.Exclusive → s.task = some task → ∀ j ≠ i, (stands j).task ≠ some task)
    (j k : Nat) (task : Task) (hexclusive : task.Exclusive) :
    (Function.update stands i s j).task = some task →
      (Function.update stands i s k).task = some task → j = k :=
  unshared_update (P := fun s => s.task = some task)
    (fun j k => h.alone j k task hexclusive) (halone task hexclusive) j k

private theorem distinct (h : b.Orderly again stands)
    (hnew : ∀ id, s = .drew id → ∀ j ≠ i, stands j ≠ .drew id) (j k : Nat) (id : Uuid) :
    Function.update stands i s j = .drew id → Function.update stands i s k = .drew id → j = k :=
  unshared_update (P := fun s => s = .drew id) (fun j k => h.draws j k id) (hnew id) j k

/-- A move that writes no row and makes no token. -/
private theorem frame (h : b.Orderly again stands) (hrows : b'.rows = b.rows)
    (halone : ∀ task, task.Exclusive → s.task = some task → ∀ j ≠ i, (stands j).task ≠ some task)
    (hnew : ∀ id, s = .drew id → ∀ j ≠ i, stands j ≠ .drew id)
    (hevents : ∀ e' ∈ b'.events, e'.status = .pending → ∃ e ∈ b.events, e.id = e'.id ∧
      e.status = .pending ∧ e.notificationId = e'.notificationId ∧ e.topic = e'.topic)
    (hrecords : ∀ topic ≠ .deadLetter, ∀ r ∈ b'.records topic, r ∈ b.records topic)
    (hcursor : ∀ topic, b.cursor topic ≤ b'.cursor topic)
    (hannounced : ∀ e' ∈ b'.events, e'.status = .pending → (stands i).Announces e'.id →
      s.Announces e'.id)
    (hs : s.Orderly again b') (hothers : ∀ j ≠ i, (stands j).Orderly again b') :
    b'.Orderly again (Function.update stands i s) := by
  have hlive {n : Notification} {t : Token} (ht : b'.Live (Function.update stands i s) n t) :
      b.Live stands n t := by
    exact ht.mono hevents hrecords hcursor fun e' he' hpending hannounces =>
      Stand.anyone_update hannounces (hannounced e' he' hpending)
  exact {
    alone := h.apart halone
    draws := h.distinct hnew
    single := by
      rw [hrows]
      exact fun n hn hwaits t t' ht ht' => h.single n hn hwaits t t' (hlive ht) (hlive ht')
    room := by
      rw [hrows]
      exact h.room
    buried := by
      rw [hrows]
      exact fun n hn hdead t ht => h.buried n hn hdead t (hlive ht)
    counts := by
      intro topic htopic r hr n hn x hx
      rw [hrows] at hx
      exact h.counts topic htopic r (hrecords topic htopic r hr) n hn x hx
    stands := by
      intro j
      by_cases hj : j = i
      · subst hj
        rwa [Function.update_self]
      · rw [Function.update_of_ne hj]
        exact hothers j hj }

/-- An operation starts on a thread that is free, and alone if its work is exclusive. -/
private theorem start (h : b.Orderly again stands) {op : Operation} (hover : stands i = .over)
    (hagain : op.task = .reprocessing → again)
    (hsingle : op.task.Exclusive → ∀ j, (stands j).task ≠ some op.task) :
    b.Orderly again (Function.update stands i op.start) := by
  refine h.frame rfl ?_ ?_ (fun e he hpending => ⟨e, he, rfl, hpending, rfl, rfl⟩)
    (fun _ _ _ hr => hr) (fun _ => Int.le_refl _) ?_ ?_ fun j _ => h.stands j
  · intro task hexclusive htask j _
    obtain rfl := Option.some.inj (op.task_start.symm.trans htask)
    exact hsingle hexclusive j
  · intro id heq
    cases op <;> exact nomatch heq
  · intro e _ _ hannounces
    rw [hover] at hannounces
    exact hannounces.elim
  · cases op with
    | reprocess limit => exact hagain rfl
    | _ => exact trivial

/-! ## Moves that leave the books as they are -/

private theorem orderly_facing {topic : Topic} {rs : List Record} (h : b.Holds topic rs) :
    (Stand.facing topic rs).Orderly again b := by
  cases rs with
  | nil => exact trivial
  | cons r rest =>
      rcases Stand.facing_cons topic r rest with ⟨-, heq⟩ | ⟨n, -, heq⟩ | ⟨-, heq⟩ <;> rw [heq] <;>
        exact h

private theorem orderly_settled {origin : Origin} (h : origin.Held b) :
    origin.settled.Orderly again b := by
  cases origin with
  | request => exact trivial
  | record topic r rest => exact h

private theorem orderly_unreadable {origin : Origin} (h : origin.Held b) :
    origin.unreadable.Orderly again b := by
  cases origin with
  | request => exact trivial
  | record topic r rest => exact h

private theorem covers_of_brings {origin : Origin} {n x : Notification} (h : origin.Brings n)
    (hid : n.id = x.id) (hcount : x.retryCount ≤ n.retryCount) : origin.Covers x := by
  cases origin with
  | request => exact h
  | record topic r rest => exact ⟨n, h, hid, hcount⟩

/-- Only identifiers may be drawn. -/
private theorem pass (h : b.Orderly again stands) (hbooks : ∃ serial, b' = { b with serial }) :
    b'.Orderly again stands := by
  obtain ⟨serial, rfl⟩ := hbooks
  exact ⟨h.alone, h.draws, h.single, h.room, h.buried, h.counts, fun j =>
    (h.stands j).mono rfl (fun _ _ he _ => he) fun _ _ _ hr hcursor => ⟨hr, hcursor⟩⟩

private theorem idle (h : b.Orderly again stands) (hbooks : ∃ serial, b' = { b with serial })
    (htask : s.task = none ∨ s.task = (stands i).task)
    (hnew : ∀ id, s = .drew id → ∀ j ≠ i, stands j ≠ .drew id) (hrests : (stands i).Rests)
    (hs : s.Orderly again b) : b'.Orderly again (Function.update stands i s) := by
  obtain ⟨serial, rfl⟩ := hbooks
  have hsame {s : Stand} (h : s.Orderly again b) : s.Orderly again { b with serial } :=
    h.mono rfl (fun _ _ he _ => he) fun _ _ _ hr hcursor => ⟨hr, hcursor⟩
  exact h.frame rfl (h.alone_of_task htask) hnew
    (fun e he hpending => ⟨e, he, rfl, hpending, rfl, rfl⟩) (fun _ _ _ hr => hr)
    (fun _ => Int.le_refl _) (fun e _ _ hannounces => absurd hannounces (hrests e.id)) (hsame hs)
    fun j _ => hsame (h.stands j)

/-- What a thread draws nobody has, neither the books nor another thread. -/
private theorem draw (h : b.Orderly again stands) (hb : b.Consistent stands) {id : Uuid}
    (hi : stands i = .fresh) (heffect : b.Effect .newId id b')
    (hserial : b'.serial ≤ Books.serialLimit) :
    b'.Orderly again (Function.update stands i (.drew id)) := by
  obtain ⟨rfl, hbooks⟩ := heffect.of_newId
  have hnew : ¬ b.Drawn (b.ids.draw b.serial) := by
    rw [hbooks] at hserial
    exact not_drawn_next (Nat.lt_of_succ_le hserial)
  refine h.idle ⟨_, hbooks⟩ (Or.inr (by rw [hi]; rfl)) ?_ (by rw [hi]; exact nofun) ?_
  · rintro id heq j - hj
    obtain rfl := Stand.drew.inj heq
    have hdrawn := hb.stands j
    rw [hj] at hdrawn
    exact hnew hdrawn
  · rintro ⟨n, hn, hid⟩
    exact hnew (hid ▸ hb.books.rows_drawn n hn)

private theorem look (h : b.Orderly again stands) (hb : b.Sound) {e : OutboxEvent}
    {due : List OutboxEvent} {n : Notification} (hi : stands i = .publishing (e :: due))
    (heffect : b.Effect (.findById e.notificationId) (.ok (some n)) b') :
    b'.Orderly again (Function.update stands i (.lookedUp e n due)) := by
  have hpublishes := h.stands i
  rw [hi] at hpublishes
  obtain ⟨hfound, rfl⟩ := heffect.of_findById
  obtain ⟨hn, -⟩ := Store.find?_some hfound.symm
  refine h.idle ⟨_, rfl⟩ (Or.inr (by rw [hi]; rfl)) nofun (by rw [hi]; exact nofun)
    ⟨hpublishes, fun x hx hxid => ?_⟩
  rw [Store.eq_of_id_eq hb.rows_nodup hx hn hxid]
  exact UInt32.le_refl _

/-- A row is found that the message in hand brings, and it is not beyond that message. -/
private theorem take (h : b.Orderly again stands) {origin : Origin} {n x : Notification}
    (hi : stands i = .handling origin n) (hbrings : origin.Brings n) (hcurrent : ¬ x.Outdates n)
    (heffect : b.Effect (.findById n.id) (.ok (some x)) b') :
    b'.Orderly again (Function.update stands i (.attempting origin x)) := by
  have hheld := h.stands i
  rw [hi] at hheld
  obtain ⟨hfound, rfl⟩ := heffect.of_findById
  obtain ⟨hx, hid⟩ := Store.find?_some hfound.symm
  obtain ⟨hsent, hcount⟩ := not_or.mp hcurrent
  exact h.idle ⟨_, rfl⟩ (Or.inr (by rw [hi]; rfl)) nofun (by rw [hi]; exact nofun)
    ⟨hheld, covers_of_brings hbrings hid.symm (UInt32.not_lt.mp hcount), hx, hsent⟩

private theorem poll (h : b.Orderly again stands) {topic : Topic} {max : Nat} {rs : List Record}
    (hi : stands i = .polling topic)
    (heffect : b.Effect (.poll topic.subscription max) (.ok rs) b') :
    b'.Orderly again (Function.update stands i (.facing topic rs)) := by
  obtain ⟨rfl, rfl⟩ := heffect.of_poll
  refine h.idle ⟨_, rfl⟩ (by rw [hi]; exact Stand.task_facing topic _)
    (fun id heq => absurd heq (facing_ne_drew topic _ id)) (by rw [hi]; exact nofun)
    (orderly_facing fun r hr => ?_)
  have hmem := List.mem_filter.mp (List.mem_of_mem_take hr)
  exact ⟨hmem.1, of_decide_eq_true hmem.2⟩

private theorem list (h : b.Orderly again stands) (hb : b.Sound) {limit : Nat}
    {ns : List Notification} (hi : stands i = .listing)
    (heffect : b.Effect (.findByStatus .deadLettered limit) (.ok ns) b') :
    b'.Orderly again (Function.update stands i (.republishing ns)) := by
  have hagain := h.stands i
  rw [hi] at hagain
  obtain ⟨hmem, hbooks⟩ := heffect.of_findByStatus
  refine h.idle ⟨_, hbooks⟩ (Or.inr (by rw [hi]; rfl)) nofun (by rw [hi]; exact nofun)
    ⟨hagain, fun n hn x hx hid => ?_⟩
  obtain ⟨hrow, hdead⟩ := hmem n hn
  obtain rfl := Store.eq_of_id_eq hb.rows_nodup hx hrow hid
  refine ⟨UInt32.le_refl _, ?_⟩
  rw [hdead]
  exact fun hwaits => absurd hwaits (by decide)

/-! ## Events and records in hand -/

/-- With the first of the events in hand changed, the others are still to be published. -/
private theorem publishes_change (hb : b.Sound) {e : OutboxEvent} {due events : List OutboxEvent}
    {change : OutboxEvent → OutboxEvent} (h : b.Publishes (e :: due))
    (hchange : Store.changeEvent e.id change b.events = some events) :
    Publishes { b with events } due := by
  obtain ⟨hnodup, hdue⟩ := h
  rw [List.map_cons, List.nodup_cons] at hnodup
  refine ⟨hnodup.2, fun e' he' => ?_⟩
  obtain ⟨hmem, hpending⟩ := hdue e' (List.mem_cons_of_mem e he')
  have hne : e'.id ≠ e.id := fun heq => hnodup.1 (List.mem_map.mpr ⟨e', he', heq⟩)
  exact ⟨(Store.mem_changeEvent hb.events_nodup hchange).mpr (Or.inr ⟨hmem, hne⟩), hpending⟩

private theorem mark (h : b.Orderly again stands) (hb : b.Sound) {e : OutboxEvent}
    {due : List OutboxEvent} (hi : stands i = .announced e due)
    (heffect : b.Effect (.markPublished e.id) (.ok ()) b') :
    b'.Orderly again (Function.update stands i (.publishing due)) := by
  have hstand := h.stands i
  have htask : (stands i).task = some .outbox := by rw [hi]; rfl
  rw [hi] at hstand
  obtain ⟨now, events, hchange, rfl⟩ := heffect.of_markPublished
  have hold {e' : OutboxEvent} (he' : e' ∈ events) (hpending : e'.status = .pending) :
      e' ∈ b.events ∧ e'.id ≠ e.id := by
    rcases (Store.mem_changeEvent hb.events_nodup hchange).mp he' with ⟨e₀, -, -, rfl⟩ | hkept
    · exact nomatch hpending
    · exact hkept
  refine h.frame rfl (h.alone_of_task (Or.inr htask.symm)) nofun
    (fun e' he' hpending => ⟨e', (hold he' hpending).1, rfl, hpending, rfl, rfl⟩)
    (fun _ _ _ hr => hr) (fun _ => Int.le_refl _) ?_ (publishes_change hb hstand hchange)
    fun j hj => (h.stands j).mono rfl (fun houtbox => absurd houtbox (h.task_ne htask trivial hj))
      fun _ _ _ hr hcursor => ⟨hr, hcursor⟩
  intro e' he' hpending hannounces
  rw [hi] at hannounces
  exact absurd hannounces.symm (hold he' hpending).2

private theorem postpone (h : b.Orderly again stands) (hb : b.Sound) {e : OutboxEvent}
    {due : List OutboxEvent} {error : String} {next : Instant} (hi : stands i = .putOff e due)
    (heffect : b.Effect (.markFailed e.id error next) (.ok ()) b') :
    b'.Orderly again (Function.update stands i (.publishing due)) := by
  have hstand := h.stands i
  have htask : (stands i).task = some .outbox := by rw [hi]; rfl
  rw [hi] at hstand
  obtain ⟨now, events, hchange, rfl⟩ := heffect.of_markFailed
  refine h.frame rfl (h.alone_of_task (Or.inr htask.symm)) nofun ?_ (fun _ _ _ hr => hr)
    (fun _ => Int.le_refl _) (fun e' _ _ hannounces => ?_) (publishes_change hb hstand hchange)
    fun j hj => (h.stands j).mono rfl (fun houtbox => absurd houtbox (h.task_ne htask trivial hj))
      fun _ _ _ hr hcursor => ⟨hr, hcursor⟩
  · intro e' he' hpending
    rcases (Store.mem_changeEvent hb.events_nodup hchange).mp he' with ⟨e₀, he₀, -, rfl⟩ | hkept
    · exact ⟨e₀, he₀, rfl, hpending, rfl, rfl⟩
    · exact ⟨e', hkept.1, rfl, hpending, rfl, rfl⟩
  · rw [hi] at hannounces
    exact hannounces.elim

private theorem commit (h : b.Orderly again stands) {topic : Topic} {r : Record}
    {rest : List Record} (hi : stands i = .settled topic r rest)
    (hreads : topic.Reads b (r :: rest))
    (heffect : b.Effect (.commit topic.subscription r.offset) (.ok ()) b') :
    b'.Orderly again (Function.update stands i (.facing topic rest)) := by
  have hholds := h.stands i
  have htask : (stands i).task = some (.batch topic) := by rw [hi]; rfl
  rw [hi] at hholds
  obtain rfl := heffect.of_commit
  refine h.frame rfl (h.alone_of_task ?_) ?_
    (fun e he hpending => ⟨e, he, rfl, hpending, rfl, rfl⟩) (fun _ _ _ hr => hr) ?_ ?_
    (orderly_facing ?_) ?_
  · rw [htask]
    exact Stand.task_facing topic rest
  · exact fun id heq => absurd heq (facing_ne_drew topic rest id)
  · intro other
    rw [cursor_commit]
    split
    · next heq =>
      subst heq
      exact le_max_left _ _
    · exact Int.le_refl _
  · intro e _ _ hannounces
    rw [hi] at hannounces
    exact hannounces.elim
  · intro r' hr'
    obtain ⟨hmem, hcursor⟩ := hholds r' (List.mem_cons_of_mem r hr')
    have hlt := List.rel_of_pairwise_cons hreads.ordered hr'
    refine ⟨hmem, ?_⟩
    rw [cursor_commit, if_pos rfl]
    apply max_le hcursor
    unfold Bus.behind
    omega
  · intro j hj
    refine (h.stands j).mono rfl (fun _ _ he _ => he) fun other hother r' hr' hcursor =>
      ⟨hr', ?_⟩
    have hne : other ≠ topic := by
      rintro rfl
      exact h.task_ne htask trivial hj hother
    rwa [cursor_commit, if_neg hne]

private theorem report (h : b.Orderly again stands) {topic : Topic} {r : Record}
    {rest : List Record} {key : Option String} {payload : Bytes}
    (hi : stands i = .unreadable topic r rest)
    (heffect : b.Effect (.publish Topic.deadLetter.name key payload) (.ok ()) b') :
    b'.Orderly again (Function.update stands i (.settled topic r rest)) := by
  have hholds := h.stands i
  rw [hi] at hholds
  obtain ⟨now, rfl⟩ := heffect.of_publish
  refine h.frame rfl (h.alone_of_task (Or.inr (by rw [hi]; rfl))) nofun
    (fun e he hpending => ⟨e, he, rfl, hpending, rfl, rfl⟩) ?_ (fun _ => Int.le_refl _) ?_
    (fun r' hr' => ⟨mem_records_append.mpr (Or.inl (hholds r' hr').1), (hholds r' hr').2⟩)
    fun j _ => (h.stands j).mono rfl (fun _ _ he _ => he) fun _ _ _ hr hcursor =>
      ⟨mem_records_append.mpr (Or.inl hr), hcursor⟩
  · intro other hother r' hr'
    rcases mem_records_append.mp hr' with hr' | ⟨hname, -⟩
    · exact hr'
    · exact absurd (Topic.name_inj hname) hother
  · intro e _ _ hannounces
    rw [hi] at hannounces
    exact hannounces.elim

/-- What is deleted was published already. -/
private theorem delete (h : b.Orderly again stands) {cutoff : Instant} {count : Nat}
    (hi : stands i = .sweeping) (heffect : b.Effect (.deletePublished cutoff) (.ok count) b') :
    b'.Orderly again (Function.update stands i .sweeping) := by
  obtain rfl := heffect.of_deletePublished
  refine h.frame rfl (h.alone_of_task (Or.inr (by rw [hi]))) nofun
    (fun e he hpending => ⟨e, (List.mem_filter.mp he).1, rfl, hpending, rfl, rfl⟩)
    (fun _ _ _ hr => hr) (fun _ => Int.le_refl _) (fun e _ _ hannounces => ?_) trivial
    fun j _ => (h.stands j).mono rfl (fun _ e he hpending => ?_)
      fun _ _ _ hr hcursor => ⟨hr, hcursor⟩
  · rw [hi] at hannounces
    exact hannounces.elim
  · exact List.mem_filter.mpr ⟨he, by rw [hpending]; rfl⟩

/-- What is pruned was passed already. -/
private theorem prune (h : b.Orderly again stands) (hb : b.Sound) {topic : String}
    {cutoff : Instant} {count : Nat} (hi : stands i = .sweeping)
    (heffect : b.Effect (.prune topic cutoff) (.ok count) b') :
    b'.Orderly again (Function.update stands i .sweeping) := by
  obtain rfl := heffect.of_prune
  refine h.frame rfl (h.alone_of_task (Or.inr (by rw [hi]))) nofun
    (fun e he hpending => ⟨e, he, rfl, hpending, rfl, rfl⟩)
    (fun other _ _ hr => (Bus.mem_records_prune b.bus _ other.name).1 hr)
    (fun _ => by rw [cursor_prune]) (fun e _ _ hannounces => ?_) trivial
    fun j _ => (h.stands j).mono rfl (fun _ _ he _ => he) fun _ _ _ hr hcursor =>
      ⟨hb.mem_records_prune hr hcursor, by rwa [cursor_prune]⟩
  rw [hi] at hannounces
  exact hannounces.elim

/-! ## New records -/

/-- A record that was appended is a token of the row it carries, unless it is out of date. -/
private theorem live_append {name : String} {key : Option String} {n x : Notification}
    {sentAt now : Instant} {t : Token}
    (h : Live { b with bus := b.bus.append name key (Envelope.ofNotification n sentAt).encode now }
      stands x t) :
    b.Live stands x t ∨ ∃ topic : Topic, t = .message topic (b.head topic) ∧ topic.name = name ∧
      topic ≠ .deadLetter ∧ n.id = x.id ∧ x.retryCount ≤ n.retryCount := by
  cases t with
  | promise id => exact Or.inl h
  | message topic offset =>
      obtain ⟨htopic, r, hr, rfl, hcursor, hcovers⟩ := h
      rcases mem_records_append.mp hr with hr | ⟨hname, rfl⟩
      · exact Or.inl ⟨htopic, r, hr, rfl, hcursor, hcovers⟩
      · obtain ⟨m, hm, hid, hcount⟩ := hcovers
        rw [Stand.snapshot_ofNotification rfl] at hm
        obtain rfl := Option.some.inj hm
        exact Or.inr ⟨topic, rfl, hname, htopic, hid, hcount⟩

/-- A notification is published that knows no more failures than its row. What tokens that makes
is to be shown. -/
private theorem send (h : b.Orderly again stands) {name : String} {key : Option String}
    {n : Notification} {sentAt now : Instant}
    (htask : s.task = none ∨ s.task = (stands i).task)
    (hnew : ∀ id, s = .drew id → ∀ j ≠ i, stands j ≠ .drew id)
    (hbooks : b' = { b with
      bus := b.bus.append name key (Envelope.ofNotification n sentAt).encode now })
    (hcounts : b.Counts n) (hs : s.Orderly again b)
    (hsingle : ∀ x ∈ b.rows, x.status.Waits → ∀ t t',
      b'.Live (Function.update stands i s) x t → b'.Live (Function.update stands i s) x t' → t = t')
    (hburied : ∀ x ∈ b.rows, x.status = .deadLettered → ∀ t,
      b'.Live (Function.update stands i s) x t → again ∧ ∃ offset, t = .message .send offset) :
    b'.Orderly again (Function.update stands i s) := by
  subst hbooks
  have hkept {s : Stand} (h : s.Orderly again b) : s.Orderly again { b with
      bus := b.bus.append name key (Envelope.ofNotification n sentAt).encode now } :=
    h.mono rfl (fun _ _ he _ => he) fun _ _ _ hr hcursor =>
      ⟨mem_records_append.mpr (Or.inl hr), hcursor⟩
  exact {
    alone := h.apart (h.alone_of_task htask)
    draws := h.distinct hnew
    single := hsingle
    room := h.room
    buried := hburied
    counts := by
      intro topic htopic r hr m hm
      rcases mem_records_append.mp hr with hr | ⟨-, rfl⟩
      · exact h.counts topic htopic r hr m hm
      · rw [Stand.snapshot_ofNotification rfl] at hm
        obtain rfl := Option.some.inj hm
        exact hcounts
    stands := Stand.forall_update (fun j => hkept (h.stands j)) (hkept hs) }

/-- The record of an event that is published takes the place of the event. -/
private theorem announce (h : b.Orderly again stands) {e : OutboxEvent} {n : Notification}
    {due : List OutboxEvent} {key : Option String} {now : Instant}
    (hi : stands i = .lookedUp e n due) (hid : n.id = e.notificationId)
    (heffect : b.Effect (.publish e.topic key (Envelope.ofNotification n now).encode) (.ok ()) b') :
    b'.Orderly again (Function.update stands i (.announced e due)) := by
  have htask : (stands i).task = some .outbox := by rw [hi]; rfl
  have hstand := h.stands i
  rw [hi] at hstand
  obtain ⟨hpublishes, hcounts⟩ := hstand
  obtain ⟨he, hpending⟩ := hpublishes.2 e List.mem_cons_self
  obtain ⟨later, rfl⟩ := heffect.of_publish
  have hfree : ¬ Stand.Anyone (Stand.Announces e.id) stands := by
    rintro ⟨j, hannounces⟩
    have hjtask : (stands j).task = some .outbox := by
      cases hj : stands j with
      | announced e' due' => rfl
      | _ =>
          rw [hj] at hannounces
          exact hannounces.elim
    rw [h.alone j i .outbox trivial hjtask htask, hi] at hannounces
    exact hannounces
  have hlive {x : Notification} {t : Token}
      (ht : Live
        { b with bus := b.bus.append e.topic key (Envelope.ofNotification n now).encode later }
        (Function.update stands i (.announced e due)) x t) :
      b.Live stands x t ∧ t ≠ .promise e.id ∨
        b.Live stands x (.promise e.id) ∧
          ∃ topic : Topic, t = .message topic (b.head topic) ∧ topic.name = e.topic := by
    rcases live_append ht with hold | ⟨topic, rfl, hname, htopic, hx, -⟩
    · refine Or.inl ⟨hold.mono (fun e' he' hpending' => ⟨e', he', rfl, hpending', rfl, rfl⟩)
        (fun _ _ _ hr => hr) (fun _ => Int.le_refl _) fun e' _ _ hannounces =>
          Stand.anyone_update hannounces fun hold => by rw [hi] at hold; exact hold.elim, ?_⟩
      rintro rfl
      obtain ⟨-, -, -, -, -, -, hunannounced⟩ := hold
      exact hunannounced ⟨i, by rw [Function.update_self]; exact rfl⟩
    · exact Or.inr ⟨⟨e, he, rfl, hpending, hid ▸ hx, hname ▸ fun heq =>
        htopic (Topic.name_inj heq), hfree⟩, topic, rfl, hname⟩
  refine h.send (Or.inr htask.symm) nofun rfl hcounts hpublishes ?_ ?_
  · intro x hx hwaits t t' ht ht'
    rcases hlive ht with ⟨ht, hne⟩ | ⟨hpromise, topic, rfl, hname⟩ <;>
      rcases hlive ht' with ⟨ht', hne'⟩ | ⟨hpromise', topic', rfl, hname'⟩
    · exact h.single x hx hwaits t t' ht ht'
    · exact absurd (h.single x hx hwaits t _ ht hpromise') hne
    · exact absurd (h.single x hx hwaits t' _ ht' hpromise) hne'
    · rw [Topic.name_inj (hname.trans hname'.symm)]
  · intro x hx hdead t ht
    rcases hlive ht with ⟨ht, -⟩ | ⟨hpromise, -⟩
    · exact h.buried x hx hdead t ht
    · obtain ⟨-, offset, heq⟩ := h.buried x hx hdead _ hpromise
      exact nomatch heq

/-- A dead letter sent again is a token only for its own row, and that only while it is buried. -/
private theorem republish (h : b.Orderly again stands) {n : Notification}
    {ns : List Notification} {key : Option String} {now : Instant}
    (hi : stands i = .republishing (n :: ns))
    (heffect : b.Effect (.publish Topic.send.name key (Envelope.ofNotification n now).encode)
      (.ok ()) b') :
    b'.Orderly again (Function.update stands i (.republishing ns)) := by
  have hstand := h.stands i
  rw [hi] at hstand
  obtain ⟨hagain, hbehind⟩ := hstand
  obtain ⟨later, rfl⟩ := heffect.of_publish
  have hlive {x : Notification} {t : Token}
      (ht : Live { b with
        bus := b.bus.append Topic.send.name key (Envelope.ofNotification n now).encode later }
        (Function.update stands i (.republishing ns)) x t) :
      b.Live stands x t ∨
        t = .message .send (b.head .send) ∧ n.id = x.id ∧ x.retryCount ≤ n.retryCount := by
    rcases live_append ht with hold | ⟨topic, rfl, hname, -, hx, hcount⟩
    · exact Or.inl (hold.mono (fun e' he' hpending' => ⟨e', he', rfl, hpending', rfl, rfl⟩)
        (fun _ _ _ hr => hr) (fun _ => Int.le_refl _) fun e' _ _ hannounces =>
          Stand.anyone_update hannounces fun hold => by rw [hi] at hold; exact hold.elim)
    · obtain rfl := Topic.name_inj hname
      exact Or.inr ⟨rfl, hx, hcount⟩
  have hold {x : Notification} (hx : x ∈ b.rows) (hwaits : x.status.Waits) {t : Token}
      (ht : Live { b with
        bus := b.bus.append Topic.send.name key (Envelope.ofNotification n now).encode later }
        (Function.update stands i (.republishing ns)) x t) : b.Live stands x t := by
    rcases hlive ht with hold | ⟨-, hid, hcount⟩
    · exact hold
    · exact absurd ((hbehind n List.mem_cons_self x hx hid.symm).2 hwaits)
        (UInt32.not_lt.mpr hcount)
  refine h.send (Or.inr (by rw [hi]; rfl)) nofun rfl
    (fun x hx hid => (hbehind n List.mem_cons_self x hx hid).1)
    ⟨hagain, fun m hm => hbehind m (List.mem_cons_of_mem n hm)⟩ ?_ ?_
  · exact fun x hx hwaits t t' ht ht' =>
      h.single x hx hwaits t t' (hold hx hwaits ht) (hold hx hwaits ht')
  · intro x hx hdead t ht
    rcases hlive ht with ht | ⟨rfl, -⟩
    · exact h.buried x hx hdead t ht
    · exact ⟨hagain, _, rfl⟩

/-! ## Written rows -/

/-- A row is written that knows no fewer failures, and more if it waits. -/
private theorem counts_putInto (hb : b.Sound) {y n : Notification}
    (hraises : ∀ x ∈ b.rows, x.id = y.id → x.retryCount ≤ y.retryCount) (hknown : b.Known n.id)
    (h : b.Counts n) {x : Notification} (hx : x ∈ Store.putInto y b.rows) (hid : x.id = n.id) :
    n.retryCount ≤ x.retryCount := by
  rcases (Store.mem_putInto hb.rows_nodup).mp hx with rfl | ⟨hx, -⟩
  · obtain ⟨x₀, hx₀, hid₀⟩ := hknown
    exact UInt32.le_trans (h x₀ hx₀ hid₀) (hraises x₀ hx₀ (hid₀.trans hid.symm))
  · exact h x hx hid

/-- A stand stays orderly when a row is written that it has not in hand. -/
private theorem stand_write {events : List OutboxEvent} {serial : Nat} {y : Notification}
    (h : s.Orderly again b) (hsound : s.Sound b) (hb : b.Sound)
    (hevents : ∀ e ∈ b.events, e ∈ events)
    (hraises : ∀ x ∈ b.rows, x.id = y.id → x.retryCount ≤ y.retryCount ∧
      (y.status.Waits → x.retryCount < y.retryCount))
    (hattempts : ∀ n, s.Attempts n → n.id ≠ y.id) (hdrew : s ≠ .drew y.id) :
    s.Orderly again { b with rows := Store.putInto y b.rows, events, serial } := by
  have hraises' : ∀ x ∈ b.rows, x.id = y.id → x.retryCount ≤ y.retryCount :=
    fun x hx hid => (hraises x hx hid).1
  have hpublishes {due : List OutboxEvent} (h : b.Publishes due) :
      Publishes { b with rows := Store.putInto y b.rows, events, serial } due :=
    ⟨h.1, fun e he => ⟨hevents e (h.2 e he).1, (h.2 e he).2⟩⟩
  have hheld {origin : Origin} (h : origin.Held b) :
      origin.Held { b with rows := Store.putInto y b.rows, events, serial } := by
    cases origin <;> exact h
  have hrow {n : Notification} (hn : n ∈ b.rows) (hne : n.id ≠ y.id) :
      n ∈ Store.putInto y b.rows := (Store.mem_putInto hb.rows_nodup).mpr (Or.inr ⟨hn, hne⟩)
  cases s with
  | drew id =>
      rintro ⟨x, hx, rfl⟩
      rcases (Store.mem_putInto hb.rows_nodup).mp hx with rfl | ⟨hx, -⟩
      · exact hdrew rfl
      · exact h ⟨x, hx, rfl⟩
  | publishing due => exact hpublishes h
  | lookedUp e n due =>
      refine ⟨hpublishes h.1, fun x hx hid => counts_putInto hb hraises' ?_ h.2 hx hid⟩
      rw [hsound.1]
      exact (hsound.2 e List.mem_cons_self).2.1
  | announced e due => exact hpublishes h
  | putOff e due => exact hpublishes h
  | handling origin n => exact hheld h
  | attempting origin n =>
      exact ⟨hheld h.1, h.2.1, hrow h.2.2.1 (hattempts n rfl), h.2.2.2⟩
  | delivered origin n =>
      exact ⟨hheld h.1, h.2.1, hrow h.2.2.1 (hattempts n rfl), h.2.2.2⟩
  | rejected origin n =>
      exact ⟨hheld h.1, h.2.1, hrow h.2.2.1 (hattempts n rfl), h.2.2.2⟩
  | unreadable topic r rest => exact h
  | settled topic r rest => exact h
  | listing => exact h
  | republishing ns =>
      refine ⟨h.1, fun n hn x hx hid => ?_⟩
      rcases (Store.mem_putInto hb.rows_nodup).mp hx with rfl | ⟨hx, -⟩
      · obtain ⟨x₀, hx₀, hid₀⟩ := hsound n hn
        have hold := (h.2 n hn x₀ hx₀ hid₀).1
        have hnew := hraises x₀ hx₀ (hid₀.trans hid.symm)
        exact ⟨UInt32.le_trans hold hnew.1,
          fun hwaits => UInt32.lt_of_le_of_lt hold (hnew.2 hwaits)⟩
      · exact h.2 n hn x hx hid
  | _ => exact trivial

/-- A row is written for which there was no event to publish, and none of its records is a token
unless it is buried and sent again. -/
private theorem write (h : b.Orderly again stands) (hb : b.Consistent stands) {y : Notification}
    (promised : Option OutboxEvent) {serial : Nat}
    (hbooks : b' = { b with
      rows := Store.putInto y b.rows, events := b.events ++ promised.toList, serial })
    (htask : s.task = none ∨ s.task = (stands i).task) (hnew : ∀ id, s ≠ .drew id)
    (hrests : (stands i).Rests)
    (hraises : ∀ x ∈ b.rows, x.id = y.id → x.retryCount ≤ y.retryCount ∧
      (y.status.Waits → x.retryCount < y.retryCount))
    (hroom : y.status.Waits → y.retryCount.toNat < 0xffff_ffff)
    (hattempts : ∀ j ≠ i, ∀ n, (stands j).Attempts n → n.id ≠ y.id)
    (hdrew : ∀ j ≠ i, stands j ≠ .drew y.id)
    (habout : ∀ e ∈ promised, e.notificationId = y.id)
    (hnone : ∀ id, ¬ b.Live stands y (.promise id))
    (hburied : y.status = .deadLettered → (∀ e ∈ promised, e.topic = Topic.deadLetter.name) ∧
      ∀ topic offset, b.Live stands y (.message topic offset) → again ∧ topic = .send)
    (hs : s.Orderly again b') : b'.Orderly again (Function.update stands i s) := by
  have hknown {topic : Topic} (htopic : topic ≠ .deadLetter) {r : Record}
      (hr : r ∈ b.records topic) {n : Notification} (hn : r.snapshot = some n) : b.Known n.id :=
    hb.books.records_known topic htopic r hr n hn
  have hraises' : ∀ x ∈ b.rows, x.id = y.id → x.retryCount ≤ y.retryCount :=
    fun x hx hid => (hraises x hx hid).1
  have hannounced {id : Uuid} (hannounces : Stand.Anyone (Stand.Announces id) stands) :
      Stand.Anyone (Stand.Announces id) (Function.update stands i s) :=
    Stand.anyone_update hannounces fun hold => absurd hold (hrests id)
  -- The other rows have no tokens that they did not have before.
  have hother {x : Notification} (hne : x.id ≠ y.id) {t : Token}
      (ht : b'.Live (Function.update stands i s) x t) : b.Live stands x t := by
    subst hbooks
    cases t with
    | promise id =>
        obtain ⟨e, he, hid, hpending, hx, hto, hfree⟩ := ht
        rcases List.mem_append.mp he with he | he
        · exact ⟨e, he, hid, hpending, hx, hto, fun hold => hfree (hannounced hold)⟩
        · exact absurd (hx.symm.trans (habout e (Option.mem_toList.mp he))) hne
    | message topic offset => exact ht
  have hself {t : Token} (ht : b'.Live (Function.update stands i s) y t) :
      (∃ e ∈ promised, t = .promise e.id ∧ e.topic ≠ Topic.deadLetter.name) ∨
        ∃ topic offset, t = .message topic offset ∧ b.Live stands y (.message topic offset) := by
    subst hbooks
    cases t with
    | promise id =>
        obtain ⟨e, he, rfl, hpending, hy, hto, hfree⟩ := ht
        rcases List.mem_append.mp he with he | he
        · exact absurd ⟨e, he, rfl, hpending, hy, hto, fun hold => hfree (hannounced hold)⟩
            (hnone e.id)
        · exact Or.inl ⟨e, Option.mem_toList.mp he, rfl, hto⟩
    | message topic offset => exact Or.inr ⟨topic, offset, rfl, ht⟩
  have hstale (hwaits : y.status.Waits) (topic : Topic) (offset : Int) :
      ¬ b.Live stands y (.message topic offset) := by
    rintro ⟨htopic, r, hr, -, -, m, hm, hid, hcount⟩
    obtain ⟨x, hx, hxid⟩ := hknown htopic hr hm
    have hle := h.counts topic htopic r hr m hm x hx hxid
    exact absurd ((hraises x hx (hxid.trans hid)).2 hwaits)
      (UInt32.not_lt.mpr (UInt32.le_trans hcount hle))
  have hrows : b'.rows = Store.putInto y b.rows := by rw [hbooks]
  exact {
    alone := h.apart (h.alone_of_task htask)
    draws := h.distinct fun id heq => absurd heq (hnew id)
    single := by
      intro x hx hwaits t t' ht ht'
      rw [hrows] at hx
      rcases (Store.mem_putInto hb.books.rows_nodup).mp hx with rfl | ⟨hx, hne⟩
      · rcases hself ht with ⟨e, he, rfl, -⟩ | ⟨topic, offset, -, hlive⟩
        · rcases hself ht' with ⟨e', he', rfl, -⟩ | ⟨topic, offset, -, hlive⟩
          · rw [Option.mem_unique he he']
          · exact absurd hlive (hstale hwaits topic offset)
        · exact absurd hlive (hstale hwaits topic offset)
      · exact h.single x hx hwaits t t' (hother hne ht) (hother hne ht')
    room := by
      intro x hx hwaits
      rw [hrows] at hx
      rcases (Store.mem_putInto hb.books.rows_nodup).mp hx with rfl | ⟨hx, -⟩
      · exact hroom hwaits
      · exact h.room x hx hwaits
    buried := by
      intro x hx hdead t ht
      rw [hrows] at hx
      rcases (Store.mem_putInto hb.books.rows_nodup).mp hx with rfl | ⟨hx, hne⟩
      · obtain ⟨hdlq, hsend⟩ := hburied hdead
        rcases hself ht with ⟨e, he, -, hto⟩ | ⟨topic, offset, rfl, hlive⟩
        · exact absurd (hdlq e he) hto
        · obtain ⟨hagain, rfl⟩ := hsend topic offset hlive
          exact ⟨hagain, offset, rfl⟩
      · exact h.buried x hx hdead t (hother hne ht)
    counts := by
      subst hbooks
      intro topic htopic r hr n hn x hx hid
      exact counts_putInto hb.books hraises' (hknown htopic hr hn)
        (h.counts topic htopic r hr n hn) hx hid
    stands := by
      intro j
      by_cases hj : j = i
      · subst hj
        rwa [Function.update_self]
      · rw [Function.update_of_ne hj, hbooks]
        exact stand_write (h.stands j) (hb.stands j) hb.books
          (fun e he => List.mem_append_left _ he) hraises (hattempts j hj) (hdrew j hj) }

/-- A notification that is new is promised once and has no other token. -/
private theorem accept (h : b.Orderly again stands) (hb : b.Consistent stands) {n : Notification}
    {e : OutboxEvent} (hi : stands i = .drew n.id) (hpending : n.status = .pending)
    (hcount : n.retryCount = 0)
    (heffect : b.Effect (.saveWithOutbox n Topic.send.name) (.ok e) b') :
    b'.Orderly again (Function.update stands i .over) := by
  have hunknown : ¬ b.Known n.id := by
    have hstand := h.stands i
    rwa [hi] at hstand
  obtain ⟨⟨now, rfl⟩, hbooks⟩ := heffect.of_saveWithOutbox
  refine h.write hb (some (.pending _ n.id Topic.send.name now)) hbooks (Or.inl rfl)
    nofun ?_ ?_ ?_ ?_ ?_ ?_ ?_ ?_ trivial
  · rw [hi]
    exact nofun
  · exact fun x hx hid => absurd ⟨x, hx, hid⟩ hunknown
  · intro _
    rw [hcount]
    decide
  · rintro j - m hattempts hid
    refine hunknown ⟨m, ?_, hid⟩
    have hstand := h.stands j
    cases hj : stands j with
    | attempting origin x | delivered origin x | rejected origin x =>
        rw [hj] at hstand hattempts
        obtain rfl : x = m := hattempts
        exact hstand.2.2.1
    | _ =>
        rw [hj] at hattempts
        exact hattempts.elim
  · exact fun j hj hdrew => hj (h.draws j i n.id hdrew hi)
  · rintro e he
    obtain rfl := Option.some.inj he
    rfl
  · rintro id ⟨e, he, -, -, habout, -⟩
    exact hunknown (habout ▸ hb.books.events_known e he)
  · rw [hpending]
    exact nofun

/-- The row that a delivery has in hand is kept by the record in hand, and by nothing else that it
could not be sent again by. -/
theorem live_attempt (h : b.Orderly again stands) (hb : b.Consistent stands)
    {n : Notification} (hi : (stands i).Attempts n) :
    ∃ topic offset, (stands i).task = some (.batch topic) ∧
      b.Live stands n (.message topic offset) ∧ n ∈ b.rows ∧
      (n.status.Waits ∨ n.status = .deadLettered) := by
  have hattempt {origin : Origin} (hsound : origin.Sound b) (hheld : origin.Held b)
      (hcovers : origin.Covers n) (hn : n ∈ b.rows) (hsent : n.status ≠ .sent) :
      ∃ topic offset, origin.task = .batch topic ∧ b.Live stands n (.message topic offset) ∧
        n ∈ b.rows ∧ (n.status.Waits ∨ n.status = .deadLettered) := by
    cases origin with
    | request => exact hcovers.elim
    | record topic r rest =>
        obtain ⟨hr, hcursor⟩ := hheld r List.mem_cons_self
        refine ⟨topic, r.offset, rfl, ⟨hsound.1, r, hr, rfl, hcursor, hcovers⟩, hn, ?_⟩
        cases hstatus : n.status with
        | pending => exact Or.inl (Or.inl rfl)
        | failed => exact Or.inl (Or.inr rfl)
        | sent => exact absurd hstatus hsent
        | deadLettered => exact Or.inr rfl
  have hstand := h.stands i
  have hsound := hb.stands i
  cases hstands : stands i with
  | attempting origin m | delivered origin m | rejected origin m =>
      rw [hstands] at hi hstand hsound
      obtain rfl : m = n := hi
      obtain ⟨hheld, hcovers, hn, hsent⟩ := hstand
      obtain ⟨topic, offset, htask, hlive⟩ := hattempt hsound.1 hheld hcovers hn hsent
      exact ⟨topic, offset, congrArg some htask, hlive⟩
  | _ =>
      rw [hstands] at hi
      exact hi.elim

/-- Two deliveries never have the same notification in hand. -/
theorem attempts_apart (h : b.Orderly again stands) (hb : b.Consistent stands)
    {n m : Notification} (hi : (stands i).Attempts n) {j : Nat} (hj : (stands j).Attempts m)
    (hid : m.id = n.id) : j = i := by
  obtain ⟨topic, offset, htask, hlive, hn, hstatus⟩ := h.live_attempt hb hi
  obtain ⟨topic', offset', htask', hlive', hm, -⟩ := h.live_attempt hb hj
  obtain rfl := Store.eq_of_id_eq hb.books.rows_nodup hm hn hid
  have htopic : topic' = topic := by
    rcases hstatus with hwaits | hdead
    · exact (Token.message.inj (h.single m hn hwaits _ _ hlive' hlive)).1
    · obtain ⟨-, place, heq⟩ := h.buried m hn hdead _ hlive
      obtain ⟨-, place', heq'⟩ := h.buried m hn hdead _ hlive'
      rw [(Token.message.inj heq).1, (Token.message.inj heq').1]
  rw [htopic] at htask'
  exact h.alone j i (.batch topic) trivial htask' htask

/-- The end of a delivery is written. Unless it succeeded, the row now knows one failure more than
the records that carry it. -/
private theorem conclude (h : b.Orderly again stands) (hb : b.Consistent stands)
    {n : Notification} (y : Notification) (promised : Option OutboxEvent) {serial : Nat}
    {origin : Origin}
    (hi : (stands i).Attempts n) (htask : (stands i).task = some origin.task)
    (hheld : origin.Held b) (hid : y.id = n.id) (hcount : n.retryCount ≤ y.retryCount)
    (hmore : y.status ≠ .sent → n.retryCount.toNat < 0xffff_ffff → n.retryCount < y.retryCount)
    (hroom : y.status.Waits → y.retryCount.toNat < 0xffff_ffff)
    (hbooks : b' = { b with
      rows := Store.putInto y b.rows, events := b.events ++ promised.toList, serial })
    (habout : ∀ e ∈ promised, e.notificationId = y.id)
    (hdlq : y.status = .deadLettered → ∀ e ∈ promised, e.topic = Topic.deadLetter.name) :
    b'.Orderly again (Function.update stands i origin.settled) := by
  obtain ⟨topic, offset, -, hlive, hn, hstatus⟩ := h.live_attempt hb hi
  have hself {x : Notification} (hx : x ∈ b.rows) (hxid : x.id = y.id) : x = n :=
    Store.eq_of_id_eq hb.books.rows_nodup hx hn (hxid.trans hid)
  refine h.write hb promised hbooks ?_ ?_ ?_ ?_ hroom ?_ ?_ habout ?_ ?_ ?_
  · rw [htask]
    cases origin with
    | request => exact Or.inl rfl
    | record topic r rest => exact Or.inr rfl
  · exact settled_ne_drew origin
  · apply Stand.rests_of_task
    rw [htask]
    cases origin <;> exact nofun
  · intro x hx hxid
    obtain rfl := hself hx hxid
    refine ⟨hcount, fun hwaits => hmore ?_ ?_⟩
    · rintro hsent
      rw [hsent] at hwaits
      exact absurd hwaits (by decide)
    · exact lt_of_le_of_lt (UInt32.le_iff_toNat_le.mp hcount) (hroom hwaits)
  · exact fun j hj m hattempts hm => hj (h.attempts_apart hb hi hattempts (hm.trans hid))
  · intro j _ hdrew
    have hunknown := h.stands j
    rw [hdrew] at hunknown
    exact hunknown ⟨n, hn, hid.symm⟩
  · rintro id ⟨e, he, hevent, hpending, habout', hto, hfree⟩
    have hpromise : b.Live stands n (.promise id) :=
      ⟨e, he, hevent, hpending, habout'.trans hid, hto, hfree⟩
    rcases hstatus with hwaits | hdead
    · exact nomatch h.single n hn hwaits _ _ hlive hpromise
    · obtain ⟨-, place, heq⟩ := h.buried n hn hdead _ hpromise
      exact nomatch heq
  · intro hdead
    refine ⟨hdlq hdead, ?_⟩
    rintro other place ⟨hother, r, hr, hoffset, hcursor, m, hm, hmid, hle⟩
    have hback := h.counts other hother r hr m hm n hn (hid.symm.trans hmid.symm)
    rcases hstatus with hwaits | hburied
    · have hlt := hmore (by rw [hdead]; exact nofun) (h.room n hn hwaits)
      exact absurd hlt (UInt32.not_lt.mpr (UInt32.le_trans hle hback))
    · obtain ⟨hagain, place', heq⟩ := h.buried n hn hburied (.message other place)
        ⟨hother, r, hr, hoffset, hcursor, m, hm, hmid.trans hid, UInt32.le_trans hcount hle⟩
      exact ⟨hagain, (Token.message.inj heq).1⟩
  · rw [hbooks]
    cases origin with
    | request => exact trivial
    | record topic r rest => exact hheld

private theorem record (h : b.Orderly again stands) (hb : b.Consistent stands) {origin : Origin}
    {n : Notification} {now : Instant} (hi : stands i = .delivered origin n)
    (heffect : b.Effect (.save (n.sent now)) (.ok ()) b') :
    b'.Orderly again (Function.update stands i origin.settled) := by
  have hstand := h.stands i
  rw [hi] at hstand
  have hbooks : b' = { b with
      rows := Store.putInto (n.sent now) b.rows
      events := b.events ++ Option.toList none
      serial := b.serial } := by
    rw [heffect.of_save, Option.toList_none, List.append_nil]
  exact h.conclude hb (n := n) (n.sent now) none (by rw [hi]; exact rfl) (by rw [hi]; rfl)
    hstand.1 rfl (UInt32.le_refl _) (fun hsent => absurd rfl hsent)
    (fun hwaits => absurd hwaits (show ¬ Status.sent.Waits by decide)) hbooks
    (fun e he => absurd he (Option.not_mem_none e)) fun _ e he => absurd he (Option.not_mem_none e)

private theorem reschedule (h : b.Orderly again stands) (hb : b.Consistent stands)
    {origin : Origin} {n : Notification} {failure : Failure} {next now : Instant} {e : OutboxEvent}
    (hi : stands i = .rejected origin n) (hroom : (countUp n.retryCount).toNat < 0xffff_ffff)
    (heffect : b.Effect (.saveWithOutbox (n.retryScheduled failure next now) Topic.retry.name)
      (.ok e) b') : b'.Orderly again (Function.update stands i origin.settled) := by
  have hstand := h.stands i
  rw [hi] at hstand
  obtain ⟨⟨later, rfl⟩, hbooks⟩ := heffect.of_saveWithOutbox
  refine h.conclude hb (n := n) (n.retryScheduled failure next now) (some _)
    (by rw [hi]; exact rfl) (by rw [hi]; rfl) hstand.1 rfl (le_countUp _) (fun _ => lt_countUp)
    (fun _ => hroom) hbooks ?_ nofun
  rintro e he
  obtain rfl := Option.some.inj he
  rfl

private theorem bury (h : b.Orderly again stands) (hb : b.Consistent stands) {origin : Origin}
    {n : Notification} {failure : Failure} {now : Instant} {e : OutboxEvent}
    (hi : stands i = .rejected origin n)
    (heffect : b.Effect (.saveWithOutbox (n.deadLettered failure now) Topic.deadLetter.name)
      (.ok e) b') : b'.Orderly again (Function.update stands i origin.settled) := by
  have hstand := h.stands i
  rw [hi] at hstand
  obtain ⟨⟨later, rfl⟩, hbooks⟩ := heffect.of_saveWithOutbox
  refine h.conclude hb (n := n) (n.deadLettered failure now) (some _) (by rw [hi]; exact rfl)
    (by rw [hi]; rfl) hstand.1 rfl (le_countUp _) (fun _ => lt_countUp)
    (fun hwaits => absurd hwaits (show ¬ Status.deadLettered.Waits by decide)) hbooks ?_ ?_
  · rintro e he
    obtain rfl := Option.some.inj he
    rfl
  · rintro - e he
    obtain rfl := Option.some.inj he
    rfl

end Books.Orderly

/-- An event that was published could not be marked. -/
def Answered.forgets : Answered → Bool
  | ⟨.markPublished _, .error _⟩ => true
  | _ => false

/-- One thread publishes, one takes batches of each topic, and neither publishing is abandoned nor
does an event stay unmarked that was published. Dead letters are sent `again` or not. -/
def Rules.orderly (again : Prop) : Rules where
  runs op := op.task ≠ .delivery ∧ (op.task = .reprocessing → again)
  single := Task.Exclusive
  abandons task := task ≠ .outbox
  answers c a := Answered.forgets ⟨c, a⟩ = false

theorem Rules.preserves_orderly (again : Prop) :
    (Rules.orderly again).Preserves fun b _ stands => b.Orderly again stands where
  starts := fun _ h hover hruns hsingle => h.start hover hruns.2 hsingle
  moves := by
    intro b b' history stands i c a s hb h hmove heffect hanswer hserial
    have hstand := h.stands i
    have hsound := hb.stands i
    have hmoved := hmove.task_eq
    generalize hi : stands i = s₀ at hmove hstand hsound hmoved
    have hidle {s : Stand} (hbooks : ∃ serial, b' = { b with serial })
        (htask : s.task = none ∨ s.task = s₀.task)
        (hnew : ∀ id, s = .drew id → ∀ j ≠ i, stands j ≠ .drew id) (hrests : s₀.Rests)
        (hs : s.Orderly again b) : b'.Orderly again (Function.update stands i s) := by
      rw [← hi] at htask hrests
      exact h.idle hbooks htask hnew hrests hs
    -- calls that pass, that fail, and calls to channels leave all but the serial as it is
    have hsame (hc : c.Passes ∨ c.Fails a ∨ ∃ place n, c = .send place n) :
        ∃ serial, b' = { b with serial } := by
      obtain ⟨serial, -, hbooks⟩ := heffect.of_idle hc
      exact ⟨serial, hbooks⟩
    cases hmove with
    | passes hc =>
        rw [← hi, Function.update_eq_self]
        exact h.pass (hsame (Or.inl hc))
    | fails hc hrests => exact hidle (hsame (Or.inr (Or.inl hc))) hmoved nofun hrests trivial
    | draws => exact h.draw hb hi heffect hserial
    | promises hpending hcount => exact h.accept hb hi hpending hcount heffect
    | fetches =>
        obtain ⟨hmem, hnodup, hbooks⟩ := heffect.of_dueEvents
        exact hidle ⟨_, hbooks⟩ hmoved nofun nofun ⟨hnodup hb.books.events_nodup, hmem⟩
    | looksUp => exact h.look hb.books hi heffect
    | misses => exact hidle ⟨_, heffect.of_findById.2⟩ hmoved nofun nofun trivial
    | announces => exact h.announce hi hsound.1 heffect
    | misfires => exact hidle (hsame (Or.inr (Or.inl ⟨_, rfl⟩))) hmoved nofun nofun hstand.1
    | marks => exact h.mark hb.books hi heffect
    | forgets => exact nomatch hanswer
    | postpones => exact h.postpone hb.books hi heffect
    | polls => exact h.poll hi heffect
    | @skips origin =>
        exact hidle ⟨_, heffect.of_findById.2⟩ hmoved
          (fun id heq => absurd heq (settled_ne_drew origin id)) nofun
          (Books.Orderly.orderly_settled hstand)
    | begins hcurrent => exact h.take hi hsound.2 hcurrent heffect
    | @trusts origin n =>
        obtain ⟨hfound, -⟩ := heffect.of_findById
        obtain ⟨x, hx, hid⟩ := Stand.known_of_carries hsound.1 ⟨n, hsound.2, rfl⟩
        exact absurd hid (Store.find?_none hfound.symm x hx)
    | delivers | rejects =>
        exact hidle (hsame (Or.inr (Or.inr ⟨_, _, rfl⟩))) hmoved nofun nofun hstand
    | @garbles origin =>
        exact hidle (hsame (Or.inr (Or.inr ⟨_, _, rfl⟩))) hmoved
          (fun id heq => absurd heq (unreadable_ne_drew origin id)) nofun
          (Books.Orderly.orderly_unreadable hstand.1)
    | records => exact h.record hb hi heffect
    | reschedules hroom => exact h.reschedule hb hi hroom heffect
    | buries => exact h.bury hb hi heffect
    | numbers => exact hidle ⟨_, heffect.of_newId.2⟩ hmoved nofun nofun hstand
    | reports => exact h.report hi heffect
    | commits => exact h.commit hi hsound heffect
    | lists => exact h.list hb.books hi heffect
    | republishes => exact h.republish hi heffect
    | deletes => exact h.delete hi heffect
    | prunes => exact h.prune hb.books hi heffect
  leaves := by
    intro b history stands i _ h hleaves
    refine h.idle (s := .over) ⟨b.serial, rfl⟩ (Or.inl rfl) nofun ?_ trivial
    rcases hleaves with hrests | ⟨task, hother, htask⟩
    · exact hrests
    · apply Stand.rests_of_task
      rw [htask]
      exact fun heq => hother (Option.some.inj heq)

theorem World.IsBlank.orderly {w : World} (h : w.IsBlank) (again : Prop) :
    w.books.Orderly again fun _ => .over := by
  have hrows : w.books.rows = [] := h.rows
  exact {
    alone := fun _ _ _ _ htask => nomatch htask
    draws := nofun
    single := by rw [hrows]; exact List.forall_mem_nil _
    room := by rw [hrows]; exact List.forall_mem_nil _
    buried := by rw [hrows]; exact List.forall_mem_nil _
    counts := fun topic _ => by rw [h.records_eq]; exact List.forall_mem_nil _
    stands := fun _ => trivial }

end Courier
