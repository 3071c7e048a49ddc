import Courier.Proofs.Turns.Account

/-!
What happens in a closed run, turn by turn. Most calls are turns of their own and change no row.
A call to a channel whose result is recorded makes one turn with what records it: the row, the
event that is stored with it and the count. Nothing else calls a channel or changes a row, so what
every turn keeps holds between the operations of a closed run.
-/

namespace Courier

/-! ## Rows and records -/

/-- The row of a notification knows of no fewer failures than the notification. -/
def Books.Backs (b : Books) (n : Notification) : Prop :=
  ∃ y ∈ b.rows, y.id = n.id ∧ n.retryCount ≤ y.retryCount

/-- What is true of rows and records between turns. -/
structure Books.Regular (b : Books) : Prop where
  rows_nodup : (b.rows.map (·.id)).Nodup
  rows_drawn : ∀ n ∈ b.rows, b.Drawn n.id
  keys_nodup : (b.rows.map (·.idempotencyKey)).Nodup
  records_backed : ∀ topic ≠ .deadLetter, ∀ r ∈ b.records topic, ∀ n, r.snapshot = some n →
    b.Backs n

/-- What becomes of a row: it stays the same notification, its failures are not forgotten, it
never waits for a first attempt again, and once sent it stays so. -/
structure Notification.Advances (n m : Notification) : Prop where
  id : m.id = n.id
  medium : m.medium = n.medium
  recipient : m.recipient = n.recipient
  clientId : m.clientId = n.clientId
  payload : m.payload = n.payload
  idempotencyKey : m.idempotencyKey = n.idempotencyKey
  createdAt : m.createdAt = n.createdAt
  retryCount_le : n.retryCount ≤ m.retryCount
  pending : m.status = .pending → n.status = .pending
  sent : n.status = .sent → m.status = .sent

namespace Notification.Advances

variable {n m k : Notification}

theorem refl (n : Notification) : n.Advances n :=
  ⟨rfl, rfl, rfl, rfl, rfl, rfl, rfl, UInt32.le_refl _, fun h => h, fun h => h⟩

theorem trans (h : n.Advances m) (h' : m.Advances k) : n.Advances k where
  id := h'.id.trans h.id
  medium := h'.medium.trans h.medium
  recipient := h'.recipient.trans h.recipient
  clientId := h'.clientId.trans h.clientId
  payload := h'.payload.trans h.payload
  idempotencyKey := h'.idempotencyKey.trans h.idempotencyKey
  createdAt := h'.createdAt.trans h.createdAt
  retryCount_le := UInt32.le_trans h.retryCount_le h'.retryCount_le
  pending := fun hk => h.pending (h'.pending hk)
  sent := fun hn => h'.sent (h.sent hn)

/-- A count that is full stays full. -/
theorem full (h : n.Advances m) (hfull : n.retryCount = 0xffffffff) :
    m.retryCount = 0xffffffff := by
  have hle := UInt32.le_iff_toNat_le.mp h.retryCount_le
  have hlt := m.retryCount.toNat_lt
  rw [hfull] at hle
  simp only [UInt32.reduceToNat] at hle
  apply UInt32.toNat_inj.mp
  simp only [UInt32.reduceToNat]
  omega

end Notification.Advances

/-! ## Turns -/

/-- What is known of a run: by which policies failures are judged, and whether writes may fail and
operations break off. -/
structure Terms where
  backoffs : Backoff → Prop
  faults : Prop

/-- A call that changes no row and is no attempt to deliver. -/
def Call.IsQuiet : (c : Call) → c.Answer → Prop
  | .send _ _, _ => False
  | .save _, a | .saveWithOutbox _ _, a => ∃ error, a = .error error
  | .tally ledger what, _ =>
    ledger = .pipeline → what ≠ .sent ∧ what ≠ .retryScheduled ∧ what ≠ .deadLettered
  | _, _ => True

/-- What is published to be delivered is backed by a row. -/
def Books.Supports (b : Books) : Call → Prop
  | .publish topic _ payload =>
    topic ≠ Topic.deadLetter.name → ∀ r : Record, r.payload = payload →
      ∀ n, r.snapshot = some n → b.Backs n
  | _ => True

/-- How a failed attempt is recorded: the row it leads to, the topic that is promised to, and what
is counted. -/
inductive Ruling (terms : Terms) (n : Notification) (error : DeliveryError) (now : Instant)
    (jitter : Duration) : Notification → Topic → Tally → Prop
  | retry {b next} (hterms : terms.backoffs b)
      (hdecide : b.decide n.medium (countUp n.retryCount) now jitter = .ok (.retry next)) :
      Ruling terms n error now jitter (n.retryScheduled error.failure next now) .retry
        .retryScheduled
  | giveUp {b reason} (hterms : terms.backoffs b)
      (hdecide : b.decide n.medium (countUp n.retryCount) now jitter = .ok (.giveUp reason)) :
      Ruling terms n error now jitter (n.deadLettered error.failure now) .deadLetter
        .deadLettered

theorem Ruling.retryCount_eq {terms : Terms} {n m : Notification} {error : DeliveryError}
    {now : Instant} {jitter : Duration} {topic : Topic} {what : Tally}
    (h : Ruling terms n error now jitter m topic what) : m.retryCount = countUp n.retryCount := by
  cases h <;> rfl

/-- The counts of attempts that are recorded. -/
def Stats.recorded (s : Stats) : Nat × Nat × Nat := (s.sent, s.retriesScheduled, s.deadLettered)

inductive Turn (terms : Terms) (s : Account) : Account → Prop
  | quiet {c a world} (h : s.world.answer c = (.done a, world)) (hquiet : c.IsQuiet a)
      (hsupports : s.world.books.Supports c) : Turn terms s ⟨world, ⟨c, a⟩ :: s.history⟩
  /-- The clock moves, faults are injected, or a channel does not answer. -/
  | elapses {world} (hbooks : world.books = s.world.books)
      (hstats : world.pipelineStats = s.world.pipelineStats) : Turn terms s ⟨world, s.history⟩
  | accepts {n e world}
      (h : s.world.answer (.saveWithOutbox n Topic.send.name) = (.done (.ok e), world))
      (hpending : n.status = .pending) (hcount : n.retryCount = 0) (hclean : n.isClean = true)
      (hdrawn : s.world.books.Drawn n.id) (hunknown : ¬ s.world.books.Known n.id) :
      Turn terms s ⟨world, ⟨.saveWithOutbox n Topic.send.name, .ok e⟩ :: s.history⟩
  /-- An attempt of which nothing is recorded. -/
  | attempts {place n a world} (hn : n ∈ s.world.books.rows)
      (h : s.world.answer (.send place n) = (.done a, world))
      (hloose : terms.faults ∨ ∃ error, a = .error error ∧ error.isDeliveryFailure = false) :
      Turn terms s ⟨world, ⟨.send place n, a⟩ :: s.history⟩
  | sends {place n now world} (hn : n ∈ s.world.books.rows) (hopen : n.status ≠ .sent)
      (heffect : s.world.books.Effect (.save (n.sent now)) (.ok ()) world.books)
      (hstats : world.pipelineStats.recorded = (s.world.pipelineStats.count .sent).recorded) :
      Turn terms s ⟨world, ⟨.tally .pipeline .sent, ()⟩ :: ⟨.save (n.sent now), .ok ()⟩ ::
        ⟨.now, now⟩ :: ⟨.send place n, .ok ()⟩ :: s.history⟩
  | fails {place n error now jitter m topic what e world} (hn : n ∈ s.world.books.rows)
      (hopen : n.status ≠ .sent) (hfailure : error.isDeliveryFailure = true)
      (hruling : Ruling terms n error now jitter m topic what)
      (heffect : s.world.books.Effect (.saveWithOutbox m topic.name) (.ok e) world.books)
      (hstats : world.pipelineStats.recorded = (s.world.pipelineStats.count what).recorded) :
      Turn terms s ⟨world, ⟨.tally .pipeline what, ()⟩ :: ⟨.saveWithOutbox m topic.name, .ok e⟩ ::
        ⟨.jitter Backoff.jitterBound, jitter⟩ :: ⟨.now, now⟩ :: ⟨.send place n, .error error⟩ ::
          s.history⟩

abbrev Turns (terms : Terms) : Account → Account → Prop := Relation.ReflTransGen (Turn terms)

/-! ## What a turn does to the rows -/

/-- What a recorded attempt makes of a row. -/
inductive Notification.Becomes (terms : Terms) (n : Notification) : Notification → Prop
  | sent {now} : Becomes terms n (n.sent now)
  | failed {error now jitter m topic what} (hfailure : error.isDeliveryFailure = true)
      (h : Ruling terms n error now jitter m topic what) : Becomes terms n m

theorem Notification.Becomes.advances {terms : Terms} {n m : Notification}
    (h : n.Becomes terms m) (hopen : n.status ≠ .sent) : n.Advances m := by
  cases h with
  | sent => exact ⟨rfl, rfl, rfl, rfl, rfl, rfl, rfl, UInt32.le_refl _, nofun, fun _ => rfl⟩
  | failed _ h => cases h with
    | retry | giveUp =>
        exact ⟨rfl, rfl, rfl, rfl, rfl, rfl, rfl, le_countUp _, nofun, fun h => absurd h hopen⟩

/-- How the rows change from one moment to another. -/
inductive Rewrites (terms : Terms) (b b' : Books) : Prop
  | same (hrows : b'.rows = b.rows)
  | adds {n} (hrows : b'.rows = b.rows ++ [n]) (hpending : n.status = .pending)
      (hcount : n.retryCount = 0) (hclean : n.isClean = true) (hdrawn : b'.Drawn n.id)
      (hunknown : ¬ b.Known n.id) (hkey : ∀ m ∈ b.rows, m.idempotencyKey ≠ n.idempotencyKey)
  | replaces {n m} (hn : n ∈ b.rows) (hopen : n.status ≠ .sent) (h : n.Becomes terms m)
      (hrows : b'.rows = Store.putInto m b.rows)

/-- A quiet call changes no row. -/
theorem Books.Effect.rows_eq {b b' : Books} {c : Call} {a : c.Answer} (h : b.Effect c a b')
    (hquiet : c.IsQuiet a) : b'.rows = b.rows := by
  cases h with
  | saves | promises => exact nomatch hquiet.choose_spec
  | _ => rfl

/-- All that a turn does to the rows. -/
theorem Turn.rewrites {terms : Terms} {s s' : Account} (h : Turn terms s s') :
    Rewrites terms s.world.books s'.world.books := by
  cases h with
  | quiet h hquiet => exact .same ((World.effect_of_answer h).rows_eq hquiet)
  | elapses hbooks => exact .same (congrArg Books.rows hbooks)
  | attempts _ h => exact .same (congrArg Books.rows (World.books_of_send h))
  | @accepts n e world h hpending hcount hclean hdrawn hunknown =>
      have hbooks := (World.effect_of_answer h).of_saveWithOutbox.2
      have hfree := Store.keyTaken_of_saveWithOutbox (Outcome.done.inj (congrArg Prod.fst h))
      have hrows : world.books.rows = s.world.books.rows ++ [n] := by
        rw [hbooks]
        exact Store.putInto_of_not_mem fun m hm hid => hunknown ⟨m, hm, hid⟩
      refine .adds hrows hpending hcount hclean ((World.effect_of_answer h).drawn hdrawn)
        hunknown fun m hm heq => ?_
      simp only [Store.keyTaken, List.any_eq_false, Bool.and_eq_true, beq_iff_eq,
        bne_iff_ne] at hfree
      exact hfree m hm ⟨heq, fun hid => hunknown ⟨m, hm, hid⟩⟩
  | sends hn hopen heffect => exact .replaces hn hopen .sent (congrArg Books.rows heffect.of_save)
  | fails hn hopen hfailure hruling heffect =>
      exact .replaces hn hopen (.failed hfailure hruling)
        (congrArg Books.rows heffect.of_saveWithOutbox.2)

namespace Rewrites

variable {terms : Terms} {b b' : Books}

/-- No row is lost: each stays what it is, or becomes what an attempt makes of it. -/
theorem exists_row (h : Rewrites terms b b') (hb : b.Regular)
    {R : Notification → Notification → Prop} (hrefl : ∀ n, R n n)
    (hbecomes : ∀ n ∈ b.rows, n.status ≠ .sent → ∀ m, n.Becomes terms m → R n m)
    {n : Notification} (hn : n ∈ b.rows) : ∃ m ∈ b'.rows, R n m := by
  cases h with
  | same hrows => exact ⟨n, hrows ▸ hn, hrefl n⟩
  | adds hrows => exact ⟨n, hrows ▸ List.mem_append_left _ hn, hrefl n⟩
  | @replaces y m hy hopen hattempt hrows =>
      rw [hrows]
      by_cases hid : n.id = m.id
      · have hsame : n.id = y.id := hid.trans (hattempt.advances hopen).id
        obtain rfl : n = y := Store.eq_of_id_eq hb.rows_nodup hn hy hsame
        exact ⟨m, Store.mem_putInto_self m b.rows, hbecomes n hn hopen m hattempt⟩
      · exact ⟨n, (Store.mem_putInto hb.rows_nodup).mpr (Or.inr ⟨hn, hid⟩), hrefl n⟩

theorem advances (h : Rewrites terms b b') (hb : b.Regular) {n : Notification} (hn : n ∈ b.rows) :
    ∃ m ∈ b'.rows, n.Advances m :=
  h.exists_row hb .refl (fun _ _ hopen _ hattempt => hattempt.advances hopen) hn

theorem backs (h : Rewrites terms b b') (hb : b.Regular) {n : Notification} (hn : b.Backs n) :
    b'.Backs n := by
  obtain ⟨y, hy, hid, hle⟩ := hn
  obtain ⟨m, hm, hadvances⟩ := h.advances hb hy
  exact ⟨m, hm, hadvances.id.trans hid, UInt32.le_trans hle hadvances.retryCount_le⟩

/-- Identifiers and keys stay apart. -/
theorem rows_regular (h : Rewrites terms b b') (hb : b.Regular)
    (hmono : ∀ id, b.Drawn id → b'.Drawn id) :
    (b'.rows.map (·.id)).Nodup ∧ (∀ n ∈ b'.rows, b'.Drawn n.id) ∧
      (b'.rows.map (·.idempotencyKey)).Nodup := by
  have hdrawn {n : Notification} (hn : n ∈ b.rows) : b'.Drawn n.id := hmono _ (hb.rows_drawn n hn)
  cases h with
  | same hrows =>
      rw [hrows]
      exact ⟨hb.rows_nodup, fun n => hdrawn, hb.keys_nodup⟩
  | @adds n hrows _ _ _ hnew hunknown hkey =>
      rw [hrows, List.map_append, List.map_append]
      refine ⟨?_, ?_, ?_⟩
      · apply List.Nodup.append hb.rows_nodup (List.nodup_singleton _)
        simpa [Books.Known] using hunknown
      · intro m hm
        rcases List.mem_append.mp hm with hm | hm
        · exact hdrawn hm
        · rwa [List.mem_singleton.mp hm]
      · apply List.Nodup.append hb.keys_nodup (List.nodup_singleton _)
        simpa using hkey
  | @replaces n m hn hopen hbecomes hrows =>
      have hadvances := hbecomes.advances hopen
      rw [hrows]
      refine ⟨Store.nodup_putInto m hb.rows_nodup, ?_, ?_⟩
      · intro k hk
        rcases (Store.mem_putInto hb.rows_nodup).mp hk with rfl | ⟨hk, -⟩
        · exact hadvances.id ▸ hdrawn hn
        · exact hdrawn hk
      · rw [Store.map_putInto hb.rows_nodup hn hadvances.id hadvances.idempotencyKey]
        exact hb.keys_nodup

end Rewrites

/-! ## What turns keep -/

/-- New records of the topics to deliver from are backed if the call is supported. -/
theorem Books.Effect.records {b b' : Books} {c : Call} {a : c.Answer} (h : b.Effect c a b')
    (hsupports : b.Supports c) {topic : Topic} (htopic : topic ≠ .deadLetter) {r : Record}
    (hr : r ∈ b'.records topic) :
    r ∈ b.records topic ∨ ∀ n, r.snapshot = some n → b.Backs n := by
  cases h with
  | @publishes name key payload now =>
      rcases mem_records_append.mp hr with hr | ⟨hname, rfl⟩
      · exact Or.inl hr
      · exact Or.inr (hsupports (fun heq => htopic (Topic.name_inj (hname.trans heq))) _ rfl)
  | prunes => exact Or.inl ((Bus.mem_records_prune b.bus _ topic.name).1 hr)
  | _ => exact Or.inl hr

namespace Turn

variable {terms : Terms} {s s' : Account}

theorem drawn (h : Turn terms s s') {id : Uuid} (hid : s.world.books.Drawn id) :
    s'.world.books.Drawn id := by
  cases h with
  | quiet h | accepts h | attempts _ h => exact (World.effect_of_answer h).drawn hid
  | elapses hbooks => exact hbooks ▸ hid
  | sends _ _ heffect | fails _ _ _ _ heffect => exact heffect.drawn hid

theorem records (h : Turn terms s s') {topic : Topic} (htopic : topic ≠ .deadLetter) {r : Record}
    (hr : r ∈ s'.world.books.records topic) :
    r ∈ s.world.books.records topic ∨ ∀ n, r.snapshot = some n → s.world.books.Backs n := by
  cases h with
  | quiet h _ hsupports => exact (World.effect_of_answer h).records hsupports htopic hr
  | @elapses world hbooks =>
      change r ∈ world.books.records topic at hr
      rw [hbooks] at hr
      exact Or.inl hr
  | accepts h => exact (World.effect_of_answer h).records trivial htopic hr
  | attempts _ h => exact (World.effect_of_answer h).records trivial htopic hr
  | sends _ _ heffect | fails _ _ _ _ heffect => exact heffect.records trivial htopic hr

theorem regular (h : Turn terms s s') (hs : s.world.books.Regular) : s'.world.books.Regular := by
  have hrewrites := h.rewrites
  obtain ⟨hids, hdrawn, hkeys⟩ := hrewrites.rows_regular hs fun _ => h.drawn
  refine ⟨hids, hdrawn, hkeys, fun topic htopic r hr n hn => hrewrites.backs hs ?_⟩
  rcases h.records htopic hr with hr | hnew
  · exact hs.records_backed topic htopic r hr n hn
  · exact hnew n hn

end Turn

namespace Turns

variable {terms : Terms} {s s' : Account}

theorem regular (h : Turns terms s s') (hs : s.world.books.Regular) : s'.world.books.Regular := by
  induction h with
  | refl => exact hs
  | tail _ hturn ih => exact hturn.regular ih

theorem advances (h : Turns terms s s') (hs : s.world.books.Regular) {n : Notification}
    (hn : n ∈ s.world.books.rows) : ∃ m ∈ s'.world.books.rows, n.Advances m := by
  induction h with
  | refl => exact ⟨n, hn, .refl n⟩
  | tail hturns hturn ih =>
      obtain ⟨y, hy, hadvances⟩ := ih
      obtain ⟨m, hm, hadvances'⟩ := hturn.rewrites.advances (regular hturns hs) hy
      exact ⟨m, hm, hadvances.trans hadvances'⟩

theorem backs (h : Turns terms s s') (hs : s.world.books.Regular) {n : Notification}
    (hn : s.world.books.Backs n) : s'.world.books.Backs n := by
  induction h with
  | refl => exact hn
  | tail hturns hturn ih => exact hturn.rewrites.backs (regular hturns hs) ih

end Turns

theorem World.IsBlank.regular {w : World} (h : w.IsBlank) : w.books.Regular where
  rows_nodup := h.sound.rows_nodup
  rows_drawn := h.sound.rows_drawn
  keys_nodup := by
    have hrows : w.books.rows = [] := h.rows
    simp [hrows]
  records_backed := fun topic _ r hr => by simp [h.records_eq] at hr

end Courier
