import Courier.Proofs.Runs.Books
import Courier.Proofs.Uuid

/-!
The books stay sound whatever is called, as long as the calls are fit: identifiers are unique,
records stand in order below the head of their topic, and every event and every record of a topic
to deliver from is about a row that exists. Beyond that the books only grow: serial, heads and
cursors never go back, no row is lost, and what an event is about never changes.
-/

namespace Courier

/-- As long as no more identifiers are drawn than there are, none is drawn twice. -/
def Books.serialLimit : Nat := Uuid.count

theorem Topic.name_inj {topic other : Topic} (h : topic.name = other.name) : topic = other := by
  cases topic <;> cases other <;> first | rfl | exact absurd h (by decide)

namespace Books

section Views

variable (b : Books) (topic : Topic)

def records : List Record := b.bus.records topic.name

def head : Int := (b.bus.log topic.name).head

def cursor : Int := b.bus.cursor topic.subscription

def Drawn (id : Uuid) : Prop := ∃ serial < b.serial, id = b.ids.draw serial

def Known (id : Uuid) : Prop := ∃ n ∈ b.rows, n.id = id

end Views

/-- What is true of the books at any time. -/
structure Sound (b : Books) : Prop where
  rows_nodup : (b.rows.map (·.id)).Nodup
  rows_drawn : ∀ n ∈ b.rows, b.Drawn n.id
  events_nodup : (b.events.map (·.id)).Nodup
  events_drawn : ∀ e ∈ b.events, b.Drawn e.id
  events_known : ∀ e ∈ b.events, b.Known e.notificationId
  records_ordered : ∀ topic, (b.records topic).Pairwise (·.offset < ·.offset)
  records_below : ∀ topic, ∀ r ∈ b.records topic, r.offset < b.head topic
  records_known : ∀ topic ≠ .deadLetter, ∀ r ∈ b.records topic, ∀ n, r.snapshot = some n →
    b.Known n.id
  cursor_le_head : ∀ topic, b.cursor topic ≤ b.head topic
  cursor_le_last : ∀ topic, b.cursor topic ≤ 0x7fff_ffff_ffff_ffff
  cursors_own : ∀ entry ∈ b.bus.cursors, ∀ topic : Topic, entry.1.topic = topic.name →
    entry.1 = topic.subscription

/-- What a call must be like in order to keep the books sound. -/
def Admits (b : Books) : Call → Prop
  | .save n | .saveWithOutbox n _ => b.Drawn n.id
  | .publish topic _ payload =>
    topic ≠ Topic.deadLetter.name → ∀ r : Record, r.payload = payload → ∀ n, r.snapshot = some n →
      b.Known n.id
  | .commit sub offset => ∃ topic : Topic, sub = topic.subscription ∧ offset < b.head topic
  | _ => True

/-- What the books keep or gain with any call. -/
structure Grows (b b' : Books) : Prop where
  serial_le : b.serial ≤ b'.serial
  ids_eq : b'.ids = b.ids
  known : ∀ id, b.Known id → b'.Known id
  events : ∀ e' ∈ b'.events, (∃ e ∈ b.events, e.id = e'.id ∧
    e.notificationId = e'.notificationId ∧ e.topic = e'.topic) ∨ ¬ b.Drawn e'.id
  head_le : ∀ topic, b.head topic ≤ b'.head topic
  records : ∀ topic, ∀ r ∈ b'.records topic, r ∈ b.records topic ∨ b.head topic ≤ r.offset
  cursor_le : ∀ topic, b.cursor topic ≤ b'.cursor topic

/-- No two records of a topic have the same offset. -/
theorem Sound.record_unique {b : Books} (h : b.Sound) {topic : Topic} {r r' : Record}
    (hr : r ∈ b.records topic) (hr' : r' ∈ b.records topic) (hoffset : r.offset = r'.offset) :
    r = r' := by
  have hnodup : ((b.records topic).map (·.offset)).Nodup :=
    List.pairwise_map.mpr ((h.records_ordered topic).imp fun hlt => Int.ne_of_lt hlt)
  exact List.inj_on_of_nodup_map hnodup hr hr' hoffset

/-! ## Single changes -/

variable {b b' : Books}

theorem Drawn.mono {id : Uuid} (h : b.Drawn id) (hserial : b.serial ≤ b'.serial)
    (hids : b'.ids = b.ids) : b'.Drawn id := by
  obtain ⟨serial, hlt, hid⟩ := h
  exact ⟨serial, hlt.trans_le hserial, hids ▸ hid⟩

theorem Effect.drawn {c : Call} {a : c.Answer} {id : Uuid} (heffect : b.Effect c a b')
    (h : b.Drawn id) : b'.Drawn id :=
  h.mono heffect.serial_le heffect.ids_eq

/-- The next identifier is a new one. -/
theorem not_drawn_next (h : b.serial < serialLimit) : ¬ b.Drawn (b.ids.draw b.serial) := by
  rintro ⟨serial, hlt, hid⟩
  have heq := b.ids.distinct _ _ h (hlt.trans h) hid
  omega

theorem known_putInto {n : Notification} {id : Uuid}
    (hnodup : (b.rows.map (·.id)).Nodup) (h : b.Known id) :
    Known { b with rows := Store.putInto n b.rows } id := by
  obtain ⟨x, hx, hid⟩ := h
  by_cases heq : x.id = n.id
  · exact ⟨n, Store.mem_putInto_self n b.rows, heq ▸ hid⟩
  · exact ⟨x, (Store.mem_putInto hnodup).mpr (Or.inr ⟨hx, heq⟩), hid⟩

theorem mem_records_append {topic : Topic} {name : String} {key : Option String} {payload : Bytes}
    {now : Instant} {r : Record} :
    r ∈ records { b with bus := b.bus.append name key payload now } topic ↔
      r ∈ b.records topic ∨
        topic.name = name ∧ r = ⟨name, 0, b.head topic, key, payload⟩ := by
  by_cases hname : topic.name = name
  · subst hname
    simp only [records, Bus.records_append_self, List.mem_append, List.mem_singleton, head,
      true_and]
  · simp only [records, Bus.records, Bus.log_append_of_ne _ _ _ _ _ hname, hname, false_and,
      or_false]

theorem head_append (topic : Topic) (name : String) (key : Option String) (payload : Bytes)
    (now : Instant) :
    head { b with bus := b.bus.append name key payload now } topic =
      if topic.name = name then b.head topic + 1 else b.head topic := by
  by_cases hname : topic.name = name
  · subst hname
    simp only [head, Bus.head_append_self, if_pos]
  · simp only [head, Bus.log_append_of_ne _ _ _ _ _ hname, if_neg hname]

theorem cursor_commit (topic other : Topic) (offset : Int) :
    cursor { b with bus := b.bus.commit topic.subscription offset } other =
      if other = topic then max (b.cursor topic) (Bus.behind offset) else b.cursor other := by
  by_cases hother : other = topic
  · subst hother
    rw [if_pos rfl]
    exact Bus.cursor_commit_self b.bus other.subscription offset
  · have hsub : other.subscription ≠ topic.subscription := by
      intro heq
      exact hother (Topic.name_inj (congrArg Subscription.topic heq))
    rw [if_neg hother]
    exact Bus.cursor_commit_of_ne hsub b.bus offset

theorem cursor_prune (topic : Topic) (name : String) (cutoff : Instant) :
    cursor { b with bus := (b.bus.prune name cutoff).2 } topic = b.cursor topic := by
  simp only [cursor, Bus.cursor, Bus.cursors_prune]

/-- Pruning a topic keeps what its group is not done with. -/
theorem Sound.mem_records_prune (h : b.Sound) {topic : Topic} {name : String} {cutoff : Instant}
    {r : Record} (hr : r ∈ b.records topic) (hcursor : b.cursor topic ≤ r.offset) :
    r ∈ records { b with bus := (b.bus.prune name cutoff).2 } topic := by
  have hlow : b.bus.lowWater topic.name ≤ b.cursor topic :=
    Bus.lowWater_le_cursor (s := topic.subscription) fun entry hentry htopic =>
      h.cursors_own entry hentry topic htopic
  exact (Bus.mem_records_prune b.bus name topic.name).2 hr (hlow.trans hcursor)

private theorem Sound.with_rows (h : b.Sound) {n : Notification} (hn : b.Drawn n.id) :
    Sound { b with rows := Store.putInto n b.rows } where
  rows_nodup := Store.nodup_putInto n h.rows_nodup
  rows_drawn := by
    intro x hx
    rcases (Store.mem_putInto h.rows_nodup).mp hx with rfl | ⟨hx, -⟩
    · exact hn
    · exact h.rows_drawn x hx
  events_nodup := h.events_nodup
  events_drawn := h.events_drawn
  events_known := fun e he => known_putInto h.rows_nodup (h.events_known e he)
  records_ordered := h.records_ordered
  records_below := h.records_below
  records_known := fun topic htopic r hr n hn =>
    known_putInto h.rows_nodup (h.records_known topic htopic r hr n hn)
  cursor_le_head := h.cursor_le_head
  cursor_le_last := h.cursor_le_last
  cursors_own := h.cursors_own

private theorem Sound.with_serial (h : b.Sound) {serial : Nat} (hserial : b.serial ≤ serial) :
    Sound { b with serial } :=
  { h with
    rows_drawn := fun n hn => (h.rows_drawn n hn).mono hserial rfl
    events_drawn := fun e he => (h.events_drawn e he).mono hserial rfl }

private theorem Sound.with_events (h : b.Sound) {events : List OutboxEvent}
    (hnodup : (events.map (·.id)).Nodup)
    (hevents : ∀ e ∈ events, b.Drawn e.id ∧ b.Known e.notificationId) :
    Sound { b with events } :=
  { h with
    events_nodup := hnodup
    events_drawn := fun e he => (hevents e he).1
    events_known := fun e he => (hevents e he).2 }

/-- A change of one event that leaves alone what it is about. -/
private theorem Sound.with_change (h : b.Sound) {id : Uuid} {change : OutboxEvent → OutboxEvent}
    {events : List OutboxEvent} (hchange : Store.changeEvent id change b.events = some events)
    (hid : ∀ e, (change e).id = e.id)
    (habout : ∀ e, (change e).notificationId = e.notificationId) :
    Sound { b with events } := by
  refine h.with_events ?_ ?_
  · rw [Store.ids_changeEvent hid hchange]
    exact h.events_nodup
  · intro e he
    rcases (Store.mem_changeEvent h.events_nodup hchange).mp he with ⟨e₀, he₀, -, rfl⟩ | ⟨he, -⟩
    · rw [hid, habout]
      exact ⟨h.events_drawn e₀ he₀, h.events_known e₀ he₀⟩
    · exact ⟨h.events_drawn e he, h.events_known e he⟩

private theorem Sound.with_append (h : b.Sound) {name : String} {key : Option String}
    {payload : Bytes} {now : Instant}
    (hpayload : name ≠ Topic.deadLetter.name → ∀ r : Record, r.payload = payload →
      ∀ n, r.snapshot = some n → b.Known n.id) :
    Sound { b with bus := b.bus.append name key payload now } where
  rows_nodup := h.rows_nodup
  rows_drawn := h.rows_drawn
  events_nodup := h.events_nodup
  events_drawn := h.events_drawn
  events_known := h.events_known
  records_ordered := by
    intro topic
    by_cases hname : topic.name = name
    · subst hname
      change ((b.bus.append topic.name key payload now).records topic.name).Pairwise _
      rw [Bus.records_append_self, List.pairwise_append]
      refine ⟨h.records_ordered topic, List.pairwise_singleton _ _, ?_⟩
      intro r hr r' hr'
      rw [List.mem_singleton.mp hr']
      exact h.records_below topic r hr
    · change (((b.bus.append name key payload now).log topic.name).entries.map _).Pairwise _
      rw [Bus.log_append_of_ne _ _ _ _ _ hname]
      exact h.records_ordered topic
  records_below := by
    intro topic r hr
    rw [head_append]
    rcases mem_records_append.mp hr with hr | ⟨hname, rfl⟩
    · have hlt := h.records_below topic r hr
      split <;> omega
    · rw [if_pos hname]
      exact Int.lt_succ _
  records_known := by
    intro topic htopic r hr n hn
    rcases mem_records_append.mp hr with hr | ⟨hname, rfl⟩
    · exact h.records_known topic htopic r hr n hn
    · exact hpayload (hname ▸ fun heq => htopic (Topic.name_inj heq)) _ rfl n hn
  cursor_le_head := by
    intro topic
    have hle := h.cursor_le_head topic
    rw [head_append]
    change b.cursor topic ≤ _
    split <;> omega
  cursor_le_last := h.cursor_le_last
  cursors_own := h.cursors_own

private theorem Sound.with_commit (h : b.Sound) {topic : Topic} {offset : Int}
    (hoffset : offset < b.head topic) :
    Sound { b with bus := b.bus.commit topic.subscription offset } where
  rows_nodup := h.rows_nodup
  rows_drawn := h.rows_drawn
  events_nodup := h.events_nodup
  events_drawn := h.events_drawn
  events_known := h.events_known
  records_ordered := h.records_ordered
  records_below := h.records_below
  records_known := h.records_known
  cursor_le_head := by
    intro other
    have hle := h.cursor_le_head other
    rw [cursor_commit]
    split
    · next heq =>
      subst heq
      change _ ≤ b.head other
      unfold Bus.behind
      omega
    · exact hle
  cursor_le_last := by
    intro other
    have hle := h.cursor_le_last other
    rw [cursor_commit]
    split
    · next heq =>
      subst heq
      unfold Bus.behind
      omega
    · exact hle
  cursors_own := by
    intro entry hentry other hother
    rcases Bus.mem_set hentry with rfl | hentry
    · obtain rfl : topic = other := Topic.name_inj hother
      rfl
    · exact h.cursors_own entry hentry other hother

private theorem Sound.with_prune (h : b.Sound) (name : String) (cutoff : Instant) :
    Sound { b with bus := (b.bus.prune name cutoff).2 } where
  rows_nodup := h.rows_nodup
  rows_drawn := h.rows_drawn
  events_nodup := h.events_nodup
  events_drawn := h.events_drawn
  events_known := h.events_known
  records_ordered := fun topic =>
    (h.records_ordered topic).sublist (Bus.records_prune_sublist b.bus name topic.name)
  records_below := by
    intro topic r hr
    rw [head, Bus.head_prune]
    exact h.records_below topic r ((Bus.mem_records_prune b.bus name topic.name).1 hr)
  records_known := fun topic htopic r hr =>
    h.records_known topic htopic r ((Bus.mem_records_prune b.bus name topic.name).1 hr)
  cursor_le_head := by
    intro topic
    rw [cursor_prune, head, Bus.head_prune]
    exact h.cursor_le_head topic
  cursor_le_last := by
    intro topic
    rw [cursor_prune]
    exact h.cursor_le_last topic
  cursors_own := by
    rw [Bus.cursors_prune]
    exact h.cursors_own

/-! ## Calls -/

/-- A call that fails or is admitted keeps the books sound. -/
theorem Effect.sound {c : Call} {a : c.Answer} (heffect : b.Effect c a b') (h : b.Sound)
    (hadmits : ¬ c.Fails a → b.Admits c) (hserial : b'.serial ≤ serialLimit) : b'.Sound := by
  cases heffect with
  | passes | sends | finds | lists | fetches | polls => exact h
  | fails _ hle => exact h.with_serial hle
  | draws => exact h.with_serial (Nat.le_succ _)
  | saves => exact h.with_rows (hadmits fun ⟨_, hfails⟩ => nomatch hfails)
  | @promises n topic now =>
      have hnew := not_drawn_next (Nat.lt_of_succ_le hserial)
      have hdrawn : b.Drawn n.id := hadmits fun ⟨_, hfails⟩ => nomatch hfails
      have hrows := (h.with_rows hdrawn).with_serial (Nat.le_succ b.serial)
      refine hrows.with_events ?_ ?_
      · rw [List.map_append, List.nodup_append]
        refine ⟨h.events_nodup, List.nodup_singleton _, ?_⟩
        intro id hid id' hid' heq
        obtain ⟨e, he, rfl⟩ := List.mem_map.mp hid
        rw [List.map_singleton, List.mem_singleton] at hid'
        have hold := h.events_drawn e he
        rw [heq, hid'] at hold
        exact hnew hold
      · intro e he
        rcases List.mem_append.mp he with he | he
        · exact ⟨hrows.events_drawn e he, hrows.events_known e he⟩
        · rw [List.mem_singleton.mp he]
          exact ⟨⟨b.serial, Nat.lt_succ_self _, rfl⟩, n, Store.mem_putInto_self n b.rows, rfl⟩
  | marks hchange => exact h.with_change hchange (fun _ => rfl) fun _ => rfl
  | postpones hchange => exact h.with_change hchange (fun _ => rfl) fun _ => rfl
  | deletes =>
      apply h.with_events ((List.filter_sublist.map _).nodup h.events_nodup)
      intro e he
      have hmem := (List.mem_filter.mp he).1
      exact ⟨h.events_drawn e hmem, h.events_known e hmem⟩
  | publishes => exact h.with_append (hadmits fun ⟨_, hfails⟩ => nomatch hfails)
  | commits =>
      obtain ⟨topic, rfl, hoffset⟩ := hadmits fun ⟨_, hfails⟩ => nomatch hfails
      exact h.with_commit hoffset
  | prunes => exact h.with_prune _ _

/-- A change of one event leaves every event about what it was. -/
private theorem events_of_change {id : Uuid} {change : OutboxEvent → OutboxEvent}
    {events : List OutboxEvent} (h : b.Sound)
    (hchange : Store.changeEvent id change b.events = some events)
    (hid : ∀ e, (change e).id = e.id)
    (habout : ∀ e, (change e).notificationId = e.notificationId)
    (htopic : ∀ e, (change e).topic = e.topic) {e' : OutboxEvent} (he' : e' ∈ events) :
    ∃ e ∈ b.events, e.id = e'.id ∧ e.notificationId = e'.notificationId ∧ e.topic = e'.topic := by
  rcases (Store.mem_changeEvent h.events_nodup hchange).mp he' with ⟨e, he, -, rfl⟩ | ⟨he, -⟩
  · exact ⟨e, he, (hid e).symm, (habout e).symm, (htopic e).symm⟩
  · exact ⟨e', he, rfl, rfl, rfl⟩

/-- With any call the books grow. -/
theorem Effect.grows {c : Call} {a : c.Answer} (heffect : b.Effect c a b') (h : b.Sound)
    (hserial : b'.serial ≤ serialLimit) : b.Grows b' := by
  have hsame {serial : Nat} (hserial : b.serial ≤ serial) : b.Grows { b with serial } :=
    ⟨hserial, rfl, fun _ h => h, fun e he => Or.inl ⟨e, he, rfl, rfl, rfl⟩,
      fun _ => Int.le_refl _, fun _ _ hr => Or.inl hr, fun _ => Int.le_refl _⟩
  have hevents {events : List OutboxEvent}
      (hevents : ∀ e' ∈ events, ∃ e ∈ b.events, e.id = e'.id ∧
        e.notificationId = e'.notificationId ∧ e.topic = e'.topic) :
      b.Grows { b with events } :=
    ⟨Nat.le_refl _, rfl, fun _ h => h, fun e' he' => Or.inl (hevents e' he'),
      fun _ => Int.le_refl _, fun _ _ hr => Or.inl hr, fun _ => Int.le_refl _⟩
  cases heffect with
  | passes | sends | finds | lists | fetches | polls => exact hsame (Nat.le_refl _)
  | fails _ hle => exact hsame hle
  | draws => exact hsame (Nat.le_succ _)
  | saves =>
      exact ⟨Nat.le_refl _, rfl, fun _ => known_putInto h.rows_nodup,
        fun e he => Or.inl ⟨e, he, rfl, rfl, rfl⟩, fun _ => Int.le_refl _,
        fun _ _ hr => Or.inl hr, fun _ => Int.le_refl _⟩
  | promises =>
      have hnew := not_drawn_next (Nat.lt_of_succ_le hserial)
      refine ⟨Nat.le_succ _, rfl, fun _ => known_putInto h.rows_nodup, ?_, fun _ => Int.le_refl _,
        fun _ _ hr => Or.inl hr, fun _ => Int.le_refl _⟩
      intro e he
      rcases List.mem_append.mp he with he | he
      · exact Or.inl ⟨e, he, rfl, rfl, rfl⟩
      · rw [List.mem_singleton.mp he]
        exact Or.inr hnew
  | marks hchange =>
      exact hevents fun e' he' => events_of_change h hchange (fun _ => rfl) (fun _ => rfl)
        (fun _ => rfl) he'
  | postpones hchange =>
      exact hevents fun e' he' => events_of_change h hchange (fun _ => rfl) (fun _ => rfl)
        (fun _ => rfl) he'
  | deletes => exact hevents fun e he => ⟨e, (List.mem_filter.mp he).1, rfl, rfl, rfl⟩
  | publishes =>
      refine ⟨Nat.le_refl _, rfl, fun _ h => h, fun e he => Or.inl ⟨e, he, rfl, rfl, rfl⟩, ?_, ?_,
        fun _ => Int.le_refl _⟩
      · intro topic
        rw [head_append]
        split <;> omega
      · intro topic r hr
        rcases mem_records_append.mp hr with hr | ⟨-, rfl⟩
        · exact Or.inl hr
        · exact Or.inr (Int.le_refl _)
  | @commits sub offset =>
      refine ⟨Nat.le_refl _, rfl, fun _ h => h, fun e he => Or.inl ⟨e, he, rfl, rfl, rfl⟩,
        fun _ => Int.le_refl _, fun _ _ hr => Or.inl hr, ?_⟩
      intro topic
      by_cases hsub : topic.subscription = sub
      · subst hsub
        rw [cursor_commit, if_pos rfl]
        exact le_max_left _ _
      · exact (Bus.cursor_commit_of_ne hsub b.bus offset).ge
  | prunes =>
      refine ⟨Nat.le_refl _, rfl, fun _ h => h, fun e he => Or.inl ⟨e, he, rfl, rfl, rfl⟩,
        ?_, ?_, ?_⟩
      · intro topic
        rw [head, head, Bus.head_prune]
      · intro topic r hr
        exact Or.inl ((Bus.mem_records_prune b.bus _ topic.name).1 hr)
      · intro topic
        rw [cursor_prune]

end Books

end Courier
