import Courier.Proofs.Envelope
import Courier.Proofs.Runs.Soundness
import Courier.Proofs.Runs.System

/-!
The books and the programs under way are consistent however operations interleave: what a program
keeps in hand agrees with the books, and no record at or past the cursor is missing between those
it has polled. So programs make only calls that keep the books sound, and whatever else the moves
of the protocol preserve in consistent books holds in every run from a blank world.
-/

namespace Courier

/-! ## Stands -/

/-- An event in hand is about a row, and the same as the event of its id in the books, as long as
there is one. -/
def OutboxEvent.Fetched (e : OutboxEvent) (b : Books) : Prop :=
  b.Drawn e.id ∧ b.Known e.notificationId ∧
    ∀ e' ∈ b.events, e'.id = e.id → e'.notificationId = e.notificationId ∧ e'.topic = e.topic

/-- Records in hand: in order, and with no record at or past the cursor between them that is not
in hand. What lies at the very last offset is never passed and does not count. -/
structure Topic.Reads (topic : Topic) (b : Books) (rs : List Record) : Prop where
  ordered : rs.Pairwise (·.offset < ·.offset)
  below : ∀ r ∈ rs, r.offset < b.head topic
  unique : ∀ r ∈ rs, ∀ r' ∈ b.records topic, r'.offset = r.offset → r' = r
  known : topic ≠ .deadLetter → ∀ r ∈ rs, ∀ n, r.snapshot = some n → b.Known n.id
  complete : ∀ r ∈ b.records topic, b.cursor topic ≤ r.offset →
    r ∈ rs ∨ (∀ r' ∈ rs, r'.offset < r.offset) ∨ 0x7fff_ffff_ffff_ffff ≤ r.offset

/-- A delivery is that of a record in hand, which is not a dead letter. -/
def Origin.Sound (b : Books) : Origin → Prop
  | .request => False
  | .record topic r rest => topic ≠ .deadLetter ∧ topic.Reads b (r :: rest)

/-- The record in hand carries this notification. -/
def Origin.Brings (n : Notification) : Origin → Prop
  | .request => False
  | .record _ r _ => r.snapshot = some n

/-- The record in hand carries a notification of this identifier. -/
def Origin.Carries (id : Uuid) (origin : Origin) : Prop := ∃ n, origin.Brings n ∧ n.id = id

namespace Stand

/-- What a stand keeps agrees with the books. -/
def Sound (b : Books) : Stand → Prop
  | .drew id => b.Drawn id
  | .publishing due => ∀ e ∈ due, e.Fetched b
  | .lookedUp e n due => n.id = e.notificationId ∧ ∀ e' ∈ e :: due, e'.Fetched b
  | .announced e due | .putOff e due => ∀ e' ∈ e :: due, e'.Fetched b
  | .handling origin n => origin.Sound b ∧ origin.Brings n
  | .attempting origin n | .delivered origin n | .rejected origin n =>
    origin.Sound b ∧ origin.Carries n.id
  | .unreadable topic r rest | .settled topic r rest => topic.Reads b (r :: rest)
  | .republishing ns => ∀ n ∈ ns, b.Known n.id
  | _ => True

end Stand

namespace Books

variable {b b' : Books}

theorem Grows.fetched (hgrows : b.Grows b') {e : OutboxEvent} (h : e.Fetched b) :
    e.Fetched b' := by
  obtain ⟨hdrawn, hknown, habout⟩ := h
  refine ⟨hdrawn.mono hgrows.serial_le hgrows.ids_eq, hgrows.known _ hknown, ?_⟩
  intro e' he' hid
  rcases hgrows.events e' he' with ⟨e₀, he₀, hid₀, hnotification, htopic⟩ | hnew
  · rw [← hnotification, ← htopic]
    exact habout e₀ he₀ (hid₀.trans hid)
  · rw [hid] at hnew
    exact absurd hdrawn hnew

theorem Grows.reads (hgrows : b.Grows b') {topic : Topic} {rs : List Record}
    (h : topic.Reads b rs) : topic.Reads b' rs where
  ordered := h.ordered
  below := fun r hr => (h.below r hr).trans_le (hgrows.head_le topic)
  unique := by
    intro r hr r' hr' hoffset
    rcases hgrows.records topic r' hr' with hr' | hnew
    · exact h.unique r hr r' hr' hoffset
    · have hlt := h.below r hr
      omega
  known := fun htopic r hr n hn => hgrows.known _ (h.known htopic r hr n hn)
  complete := by
    intro r hr hcursor
    rcases hgrows.records topic r hr with hr | hnew
    · exact h.complete r hr ((hgrows.cursor_le topic).trans hcursor)
    · exact Or.inr (Or.inl fun r' hr' => (h.below r' hr').trans_le hnew)

/-- A sound stand stays sound when the books grow. -/
theorem Grows.stand (hgrows : b.Grows b') {s : Stand} (h : s.Sound b) : s.Sound b' := by
  have horigin {origin : Origin} (h : origin.Sound b) : origin.Sound b' := by
    cases origin with
    | request => exact h
    | record topic r rest => exact ⟨h.1, hgrows.reads h.2⟩
  cases s with
  | drew id => exact h.mono hgrows.serial_le hgrows.ids_eq
  | publishing due => exact fun e he => hgrows.fetched (h e he)
  | lookedUp e n due => exact ⟨h.1, fun e' he' => hgrows.fetched (h.2 e' he')⟩
  | announced e due => exact fun e' he' => hgrows.fetched (h e' he')
  | putOff e due => exact fun e' he' => hgrows.fetched (h e' he')
  | handling origin n => exact ⟨horigin h.1, h.2⟩
  | attempting origin n => exact ⟨horigin h.1, h.2⟩
  | delivered origin n => exact ⟨horigin h.1, h.2⟩
  | rejected origin n => exact ⟨horigin h.1, h.2⟩
  | unreadable topic r rest => exact hgrows.reads h
  | settled topic r rest => exact hgrows.reads h
  | republishing ns => exact fun n hn => hgrows.known _ (h n hn)
  | _ => exact trivial

end Books

namespace Stand

variable {b b' : Books} {s s' : Stand} {c : Call} {a : c.Answer}

private theorem sound_facing {topic : Topic} {rs : List Record} (h : topic.Reads b rs) :
    (facing topic rs).Sound b := by
  cases rs with
  | nil => exact trivial
  | cons r rest =>
      by_cases htopic : topic = .deadLetter
      · subst htopic
        exact h
      · rcases facing_cons topic r rest with ⟨hdead, -⟩ | ⟨n, hn, heq⟩ | ⟨-, heq⟩
        · exact absurd hdead htopic
        · rw [heq]
          exact ⟨⟨htopic, h⟩, hn⟩
        · rw [heq]
          exact h

private theorem sound_settled {origin : Origin} (h : origin.Sound b) :
    origin.settled.Sound b := by
  cases origin with
  | request => exact h.elim
  | record topic r rest => exact h.2

private theorem sound_unreadable {origin : Origin} (h : origin.Sound b) :
    origin.unreadable.Sound b := by
  cases origin with
  | request => exact h.elim
  | record topic r rest => exact h.2

/-- The notification of a record in hand has a row. -/
theorem known_of_carries {origin : Origin} {id : Uuid} (hsound : origin.Sound b)
    (hcarries : origin.Carries id) : b.Known id := by
  cases origin with
  | request => exact hsound.elim
  | record topic r rest =>
      obtain ⟨n, hn, rfl⟩ := hcarries
      exact hsound.2.known hsound.1 r List.mem_cons_self n hn

/-- What is sent of a notification carries that notification, as it can be told. -/
theorem snapshot_ofNotification {r : Record} {n : Notification} {now : Instant}
    (h : r.payload = (Envelope.ofNotification n now).encode) : r.snapshot = some n.told := by
  rw [Record.snapshot, h, Envelope.decode_ofNotification]
  rfl

/-- A sound stand only makes calls that keep the books sound. -/
theorem Sound.admits (h : s.Sound b) (hb : b.Sound) (hmove : Moves s c a s')
    (hfails : ¬ c.Fails a) : b.Admits c := by
  have hdrawn {id : Uuid} (h : b.Known id) : b.Drawn id := by
    obtain ⟨n, hn, rfl⟩ := h
    exact hb.rows_drawn n hn
  have hpublish {topic : String} {key : Option String} {n : Notification} {now : Instant}
      (hn : b.Known n.id) :
      b.Admits (.publish topic key (Envelope.ofNotification n now).encode) := by
    intro _ r hr m hm
    rw [snapshot_ofNotification hr] at hm
    obtain rfl := Option.some.inj hm
    exact hn
  cases hmove with
  | passes hpasses =>
      cases c with
      | save _ | saveWithOutbox _ _ | publish _ _ _ | commit _ _ => exact hpasses.elim
      | _ => exact trivial
  | fails hc => exact absurd hc hfails
  | promises => exact h
  | @announces e n due key now =>
      apply hpublish
      rw [h.1]
      exact (h.2 e List.mem_cons_self).2.1
  | misfires => exact absurd ⟨_, rfl⟩ hfails
  | records => exact hdrawn (known_of_carries h.1 h.2)
  | reschedules => exact hdrawn (known_of_carries h.1 h.2)
  | buries => exact hdrawn (known_of_carries h.1 h.2)
  | reports => exact fun hother => absurd rfl hother
  | @commits topic r rest => exact ⟨topic, rfl, h.below r List.mem_cons_self⟩
  | @republishes n ns key now => exact hpublish (h n List.mem_cons_self)
  | _ => exact trivial

/-- The records polled from the cursor on are complete. -/
private theorem reads_poll (hb : b.Sound) (topic : Topic) (max : Nat) :
    topic.Reads b (b.bus.poll topic.subscription max) := by
  have hmem {r : Record} (hr : r ∈ b.bus.poll topic.subscription max) : r ∈ b.records topic :=
    (List.mem_filter.mp (List.mem_of_mem_take hr)).1
  have hordered : ((b.records topic).filter (b.cursor topic ≤ ·.offset)).Pairwise
      (·.offset < ·.offset) :=
    (hb.records_ordered topic).sublist List.filter_sublist
  refine ⟨hordered.sublist (List.take_sublist _ _), fun r hr => hb.records_below topic r (hmem hr),
    fun r hr r' hr' => hb.record_unique hr' (hmem hr),
    fun htopic r hr => hb.records_known topic htopic r (hmem hr), ?_⟩
  intro r hr hcursor
  have hall : r ∈ (b.records topic).filter (b.cursor topic ≤ ·.offset) :=
    List.mem_filter.mpr ⟨hr, by simpa using hcursor⟩
  rw [← List.take_append_drop max ((b.records topic).filter _)] at hall hordered
  rcases List.mem_append.mp hall with htaken | hdropped
  · exact Or.inl htaken
  · exact Or.inr (Or.inl fun r' hr' =>
      (List.pairwise_append.mp hordered).2.2 r' hr' r hdropped)

/-- With the record in hand committed, those behind it are complete. -/
private theorem reads_commit {topic : Topic} {r : Record} {rest : List Record}
    (h : topic.Reads b (r :: rest)) :
    topic.Reads { b with bus := b.bus.commit topic.subscription r.offset } rest where
  ordered := h.ordered.of_cons
  below := fun r' hr' => h.below r' (List.mem_cons_of_mem r hr')
  unique := fun r' hr' => h.unique r' (List.mem_cons_of_mem r hr')
  known := fun htopic r' hr' => h.known htopic r' (List.mem_cons_of_mem r hr')
  complete := by
    intro r' hr' hcursor
    rw [Books.cursor_commit, if_pos rfl] at hcursor
    have hbehind := (le_max_right _ _).trans hcursor
    rcases h.complete r' hr' ((le_max_left _ _).trans hcursor) with hmem | hbeyond | hlast
    · rcases List.mem_cons.mp hmem with rfl | hmem
      · refine Or.inr (Or.inr ?_)
        unfold Bus.behind at hbehind
        omega
      · exact Or.inl hmem
    · exact Or.inr (Or.inl fun r₂ hr₂ => hbeyond r₂ (List.mem_cons_of_mem r hr₂))
    · exact Or.inr (Or.inr hlast)

/-- A sound stand leads to a sound stand. -/
theorem Sound.move (h : s.Sound b) (hb : b.Sound) (hmove : Moves s c a s')
    (heffect : b.Effect c a b') (hserial : b'.serial ≤ Books.serialLimit) : s'.Sound b' := by
  have hgrows := heffect.grows hb hserial
  cases hmove with
  | passes => exact hgrows.stand h
  | fails | promises | misses | forgets => exact trivial
  | draws =>
      obtain ⟨rfl, rfl⟩ := heffect.of_newId
      exact ⟨b.serial, Nat.lt_succ_self _, rfl⟩
  | fetches =>
      obtain ⟨hmem, -, rfl⟩ := heffect.of_dueEvents
      intro e he
      obtain ⟨hevent, -⟩ := hmem e he
      refine ⟨hb.events_drawn e hevent, hb.events_known e hevent, ?_⟩
      intro e' he' hid
      rw [List.inj_on_of_nodup_map hb.events_nodup he' hevent hid]
      exact ⟨rfl, rfl⟩
  | looksUp =>
      obtain ⟨hfound, rfl⟩ := heffect.of_findById
      exact ⟨(Store.find?_some hfound.symm).2, h⟩
  | announces => exact fun e' he' => hgrows.fetched (h.2 e' he')
  | misfires => exact fun e' he' => hgrows.fetched (h.2 e' he')
  | marks => exact fun e' he' => hgrows.fetched (h e' (List.mem_cons_of_mem _ he'))
  | postpones => exact fun e' he' => hgrows.fetched (h e' (List.mem_cons_of_mem _ he'))
  | polls =>
      obtain ⟨rfl, rfl⟩ := heffect.of_poll
      exact sound_facing (reads_poll hb _ _)
  | skips => exact sound_settled (hgrows.stand (s := .handling _ _) h).1
  | begins =>
      obtain ⟨hfound, rfl⟩ := heffect.of_findById
      refine ⟨h.1, ?_⟩
      rw [(Store.find?_some hfound.symm).2]
      exact ⟨_, h.2, rfl⟩
  | trusts => exact hgrows.stand (s := .attempting _ _) ⟨h.1, _, h.2, rfl⟩
  | delivers => exact hgrows.stand (s := .delivered _ _) h
  | rejects => exact hgrows.stand (s := .rejected _ _) h
  | garbles => exact sound_unreadable (hgrows.stand (s := .attempting _ _) h).1
  | records => exact sound_settled (hgrows.stand (s := .delivered _ _) h).1
  | reschedules => exact sound_settled (hgrows.stand (s := .rejected _ _) h).1
  | buries => exact sound_settled (hgrows.stand (s := .rejected _ _) h).1
  | numbers => exact hgrows.stand (s := .unreadable _ _ _) h
  | reports => exact hgrows.reads h
  | commits =>
      obtain rfl := heffect.of_commit
      exact sound_facing (reads_commit h)
  | lists =>
      obtain ⟨hmem, rfl⟩ := heffect.of_findByStatus
      exact fun n hn => ⟨n, (hmem n hn).1, rfl⟩
  | republishes => exact fun n hn => hgrows.known _ (h n (List.mem_cons_of_mem _ hn))
  | deletes | prunes => exact trivial

end Stand

/-! ## Invariants of sound books -/

/-- The books and what the threads keep are sound. -/
structure Books.Consistent (b : Books) (stands : Nat → Stand) : Prop where
  books : b.Sound
  stands : ∀ i, (stands i).Sound b

/-- What a property has to fulfil in order to hold in every run of consistent books. -/
structure Rules.Preserves (rules : Rules)
    (P : Books → List Answered → (Nat → Stand) → Prop) : Prop where
  starts : ∀ {b history stands i op}, b.Consistent stands → P b history stands →
    stands i = .over → rules.runs op →
    (rules.single op.task → ∀ j, (stands j).task ≠ some op.task) →
    P b history (Function.update stands i op.start)
  moves : ∀ {b b' history stands i c a s}, b.Consistent stands → P b history stands →
    Moves (stands i) c a s → b.Effect c a b' → rules.answers c a →
    b'.serial ≤ Books.serialLimit → P b' (⟨c, a⟩ :: history) (Function.update stands i s)
  leaves : ∀ {b history stands i}, b.Consistent stands → P b history stands →
    (stands i).Rests ∨ (∃ task, rules.abandons task ∧ (stands i).task = some task) →
    P b history (Function.update stands i .over)

/-- As long as identifiers last, the books and stands are consistent and have a property. -/
def Books.Retains (P : Books → List Answered → (Nat → Stand) → Prop) (b : Books)
    (history : List Answered) (stands : Nat → Stand) : Prop :=
  b.serial ≤ Books.serialLimit → b.Consistent stands ∧ P b history stands

/-- In runs without deliveries on request the books stay consistent. -/
theorem Rules.Preserves.keeps {rules : Rules}
    {P : Books → List Answered → (Nat → Stand) → Prop} (h : rules.Preserves P)
    (hruns : ∀ op, rules.runs op → op.task ≠ .delivery) : rules.Keeps (Books.Retains P) where
  starts := by
    intro b history stands i op hP hover hop hsingle hserial
    obtain ⟨hconsistent, hP⟩ := hP hserial
    refine ⟨⟨hconsistent.books, Stand.forall_update hconsistent.stands ?_⟩,
      h.starts hconsistent hP hover hop hsingle⟩
    cases op with
    | deliver d n => exact absurd rfl (hruns _ hop)
    | _ => exact trivial
  moves := by
    intro b b' history stands i c a s hP hmove heffect hanswer hserial
    obtain ⟨hconsistent, hP⟩ := hP (heffect.serial_le.trans hserial)
    have hbooks := heffect.sound hconsistent.books
      ((hconsistent.stands i).admits hconsistent.books hmove) hserial
    have hgrows := heffect.grows hconsistent.books hserial
    refine ⟨⟨hbooks, Stand.forall_update (fun j => hgrows.stand (hconsistent.stands j))
      ((hconsistent.stands i).move hconsistent.books hmove heffect hserial)⟩,
      h.moves hconsistent hP hmove heffect hanswer hserial⟩
  leaves := by
    intro b history stands i hP hleaves hserial
    obtain ⟨hconsistent, hP⟩ := hP hserial
    exact ⟨⟨hconsistent.books, Stand.forall_update hconsistent.stands trivial⟩,
      h.leaves hconsistent hP hleaves⟩

/-- A world without rows, events, records and cursors. -/
structure World.IsBlank (w : World) : Prop where
  rows : w.store.notifications = []
  events : w.store.outbox = []
  logs : w.bus.logs = []
  cursors : w.bus.cursors = []

namespace World.IsBlank

variable {w : World}

theorem log_eq (h : w.IsBlank) (topic : String) : w.books.bus.log topic = {} := by
  change (w.bus.logs.lookup topic).getD {} = {}
  rw [h.logs]
  rfl

theorem records_eq (h : w.IsBlank) (topic : Topic) : w.books.records topic = [] := by
  rw [Books.records, Bus.records, h.log_eq]
  rfl

theorem sound (h : w.IsBlank) : w.books.Sound := by
  have hrows : w.books.rows = [] := h.rows
  have hevents : w.books.events = [] := h.events
  have hrecords := h.records_eq
  have hhead (topic : Topic) : w.books.head topic = 0 := by rw [Books.head, h.log_eq]
  have hcursor (topic : Topic) : w.books.cursor topic = 0 := by
    change (w.bus.cursors.lookup topic.subscription).getD 0 = 0
    rw [h.cursors]
    rfl
  have hcursors : w.books.bus.cursors = [] := h.cursors
  exact {
    rows_nodup := by rw [hrows]; exact List.nodup_nil
    rows_drawn := by rw [hrows]; exact List.forall_mem_nil _
    events_nodup := by rw [hevents]; exact List.nodup_nil
    events_drawn := by rw [hevents]; exact List.forall_mem_nil _
    events_known := by rw [hevents]; exact List.forall_mem_nil _
    records_ordered := fun topic => by rw [hrecords]; exact List.Pairwise.nil
    records_below := fun topic => by rw [hrecords]; exact List.forall_mem_nil _
    records_known := fun topic _ => by rw [hrecords]; exact List.forall_mem_nil _
    cursor_le_head := fun topic => by rw [hcursor, hhead]
    cursor_le_last := fun topic => by rw [hcursor]; decide
    cursors_own := by rw [hcursors]; exact List.forall_mem_nil _ }

end World.IsBlank

/-- What holds of a blank world holds in every run from there, as long as identifiers last. -/
theorem System.Steps.retains {rules : Rules}
    {P : Books → List Answered → (Nat → Stand) → Prop} (hpreserves : rules.Preserves P)
    (hruns : ∀ op, rules.runs op → op.task ≠ .delivery) {w : World} (hblank : w.IsBlank)
    (hP : P w.books [] fun _ => .over) {s : System} (hsteps : Steps rules (.idle w) s)
    (hserial : s.world.serial ≤ Books.serialLimit) :
    ∃ stands, (∀ i, StandsAt (s.threads i) (stands i)) ∧
      s.world.books.Consistent stands ∧ P s.world.books s.history stands := by
  have hstart : (System.idle w).Has (Books.Retains P) :=
    ⟨fun _ => .over, fun _ => rfl, fun _ => ⟨⟨hblank.sound, fun _ => trivial⟩, hP⟩⟩
  obtain ⟨stands, hstands, hretains⟩ := hsteps.has (hpreserves.keeps hruns) hstart
  exact ⟨stands, hstands, hretains hserial⟩

/-! ## A small system -/

namespace Sample

def request : Request where
  medium := .email
  recipient := "user@example.com"
  clientId := "client"
  payload := "\x7b\x7d"
  idempotencyKey := "key"

/-- A blank world with a channel that gives these replies and then always succeeds. -/
def world (replies : List Reply) : World where
  clock := ⟨0⟩
  channels := [⟨"channel", Medium.all, .script replies (.done (.ok ())), none, 0⟩]
  limiter := .perSecond 100
  jitter := .fixed .zero
  serial := 0

/-- A pipeline for that world, which gives a notification up after some attempts. -/
def pipeline (maxAttempts : UInt32) : Pipeline where
  settings := {
    consumer := ⟨100, .ofSecs 1⟩
    outboxPollInterval := .ofSecs 1
    outboxBatchLimit := 100
    publishRetryDelay := .ofSecs 5
    rateLimitPerSecond := 100
    retentionPeriod := .ofSecs 1
    retentionSweepInterval := .ofSecs 1
    shutdownTimeout := .ofSecs 1 }
  registry := ⟨[("channel", Medium.all)]⟩
  backoff := ⟨{ RetryPolicy.standard with maxAttempts }, []⟩

theorem isBlank_world (replies : List Reply) : (world replies).IsBlank := ⟨rfl, rfl, rfl, rfl⟩

end Sample
end Courier
