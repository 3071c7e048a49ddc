import Courier.Proofs.Intake.Submissions
import Courier.Proofs.Runs.Consistency

/-!
Intake is exactly once for each idempotency key, however submissions overlap. The store refuses a
second row for a key, whatever the locks do; so rows are only ever added, one for a key, each with
one promise to send it. The lock of a key does the rest: whoever is under it alone looks the key up
and stores it without anyone in between, and so is never refused for the key.
-/

namespace Courier.Intake

open Function (update)

/-! ## Calls of a submission -/

namespace Exchange

variable (x : Exchange)

/-- The call changed neither table. -/
def Idle : Prop := x.after.rows = x.before.rows ∧ x.after.events = x.before.events

/-- The call changed neither table and no limiter. -/
def Free : Prop := x.Idle ∧ x.after.limiters = x.before.limiters

/-- The call found a key stored. -/
def Finds : Prop :=
  match x with
  | ⟨.findByKey _, answer, _, _⟩ => ∃ n, answer = .ok (some n)
  | _ => False

end Exchange

namespace Shared.Serves

variable {s s' : Shared} {service other : Service} {i j : Nat} {c : Call} {a : c.Answer}

theorem effect (h : s.Serves service i c a s') : s.world.books.Effect c a s'.world.books := by
  cases h with
  | admits | releases | limits => exact .passes trivial
  | answers _ h => exact World.effect_of_answer h

/-- Calls about nothing that lasts, and calls that fail, change at most the next identifier. -/
theorem idle (h : s.Serves service i c a s') (hidle : c.Passes ∨ c.Fails a ∨ c = .newId) :
    ∃ serial, s.world.books.serial ≤ serial ∧ s'.world.books = { s.world.books with serial } := by
  rcases hidle with hpasses | hfails | rfl
  · exact h.effect.of_idle (Or.inl hpasses)
  · exact h.effect.of_idle (Or.inr (Or.inl hfails))
  · obtain ⟨-, hbooks⟩ := h.effect.of_newId
    exact ⟨_, Nat.le_succ _, hbooks⟩

theorem limiters_eq (h : s.Serves service i c a s') (hc : ∀ key, c ≠ .acquire key) :
    s'.limiters = s.limiters := by
  cases h with
  | limits => exact absurd rfl (hc _)
  | _ => rfl

/-- Whoever is inside a key stays inside while others are answered, and until they leave it. -/
theorem inside_of_inside (h : s.Serves service i c a s') {key : String}
    (hinside : s.inside other key = some j) (hj : j ≠ i ∨ ∀ key, c ≠ .unlock key) :
    s'.inside other key = some j := by
  cases h with
  | @releases released =>
      exact Shared.inside_leave hinside (hj.resolve_right fun hc => hc released rfl)
  | _ => exact hinside

end Shared.Serves

/-! ## Tables -/

namespace Stage

/-- The identifier that a submission has drawn and not stored yet. -/
def hand : Stage → Option Uuid
  | .numbered id => some id
  | .ready n => some n.id
  | _ => none

end Stage

/-- Every row has a key of its own and one promise, to send it, and nobody else is about to store
under its identifier. -/
structure Tables (b : Books) (stages : Nat → Stage) : Prop where
  ids_nodup : (b.rows.map (·.id)).Nodup
  ids_drawn : ∀ n ∈ b.rows, b.Drawn n.id
  keys_nodup : (b.rows.map (·.idempotencyKey)).Nodup
  promises : b.events.map (fun e => (e.notificationId, e.topic)) =
    b.rows.map fun n => (n.id, Topic.send.name)
  hands : ∀ i id, (stages i).hand = some id → b.Drawn id ∧ ¬ b.Known id
  hands_apart : ∀ i j id, (stages i).hand = some id → (stages j).hand = some id → i = j

namespace Tables

variable {b : Books} {stages stages' : Nat → Stage} {i : Nat}

/-- The tables stay as they are, and no new identifier comes to hand. -/
theorem keep (h : Tables b stages) {serial : Nat} (hserial : b.serial ≤ serial)
    (hhands : ∀ i id, (stages' i).hand = some id → (stages i).hand = some id) :
    Tables { b with serial } stages' where
  ids_nodup := h.ids_nodup
  ids_drawn := fun n hn => (h.ids_drawn n hn).mono hserial rfl
  keys_nodup := h.keys_nodup
  promises := h.promises
  hands := by
    intro i id hid
    obtain ⟨hdrawn, hnew⟩ := h.hands i id (hhands i id hid)
    exact ⟨hdrawn.mono hserial rfl, hnew⟩
  hands_apart := fun i j id hi hj => h.hands_apart i j id (hhands i id hi) (hhands j id hj)

theorem draw (h : Tables b stages) (hserial : b.serial < Books.serialLimit) :
    Tables { b with serial := b.serial + 1 }
      (update stages i (.numbered (b.ids.draw b.serial))) := by
  have hnew := Books.not_drawn_next hserial
  have hfresh (j : Nat) : (stages j).hand ≠ some (b.ids.draw b.serial) :=
    fun hid => hnew (h.hands j _ hid).1
  constructor
  · exact h.ids_nodup
  · exact fun n hn => (h.ids_drawn n hn).mono (Nat.le_succ _) rfl
  · exact h.keys_nodup
  · exact h.promises
  · intro j id hid
    by_cases hj : j = i
    · subst hj
      rw [Function.update_self] at hid
      obtain rfl := Option.some.inj hid
      constructor
      · exact ⟨b.serial, Nat.lt_succ_self _, rfl⟩
      · rintro ⟨n, hn, heq⟩
        exact hnew (heq ▸ h.ids_drawn n hn)
    · rw [Function.update_of_ne hj] at hid
      obtain ⟨hdrawn, hunknown⟩ := h.hands j id hid
      exact ⟨hdrawn.mono (Nat.le_succ _) rfl, hunknown⟩
  · intro j k id hj hk
    by_cases hji : j = i <;> by_cases hki : k = i
    · exact hji.trans hki.symm
    · subst hji
      rw [Function.update_self] at hj
      obtain rfl := Option.some.inj hj
      rw [Function.update_of_ne hki] at hk
      exact absurd hk (hfresh k)
    · subst hki
      rw [Function.update_self] at hk
      obtain rfl := Option.some.inj hk
      rw [Function.update_of_ne hji] at hj
      exact absurd hj (hfresh j)
    · rw [Function.update_of_ne hji] at hj
      rw [Function.update_of_ne hki] at hk
      exact h.hands_apart j k id hj hk

/-- A row under an identifier in hand comes at the end. -/
theorem putInto_eq (h : Tables b stages) {n : Notification} (hi : stages i = .ready n) :
    Store.putInto n b.rows = b.rows ++ [n] := by
  have hunknown : ¬ b.Known n.id := (h.hands i n.id (by rw [hi]; rfl)).2
  exact Store.putInto_of_not_mem fun m hm hid => hunknown ⟨m, hm, hid⟩

theorem save (h : Tables b stages) {n : Notification} {now : Instant}
    (hi : stages i = .ready n) (hkey : ∀ m ∈ b.rows, m.idempotencyKey ≠ n.idempotencyKey) :
    Tables { b with
      rows := Store.putInto n b.rows
      events := b.events ++ [.pending (b.ids.draw b.serial) n.id Topic.send.name now]
      serial := b.serial + 1 } (update stages i (.leaving (.accepted n))) := by
  obtain ⟨hdrawn, hunknown⟩ := h.hands i n.id (by rw [hi]; rfl)
  have hrows := h.putInto_eq hi
  constructor
  · exact Store.nodup_putInto n h.ids_nodup
  · intro m hm
    rcases (Store.mem_putInto h.ids_nodup).mp hm with rfl | ⟨hm, -⟩
    · exact hdrawn.mono (Nat.le_succ _) rfl
    · exact (h.ids_drawn m hm).mono (Nat.le_succ _) rfl
  · simp only [hrows, List.map_append, List.map_cons, List.map_nil]
    apply List.Nodup.append h.keys_nodup (List.nodup_singleton _)
    simpa using hkey
  · simp [hrows, h.promises, OutboxEvent.pending]
  · intro j id hid
    have hj : j ≠ i := by
      rintro rfl
      rw [Function.update_self] at hid
      exact nomatch hid
    rw [Function.update_of_ne hj] at hid
    obtain ⟨hjdrawn, hjunknown⟩ := h.hands j id hid
    refine ⟨hjdrawn.mono (Nat.le_succ _) rfl, ?_⟩
    rintro ⟨m, hm, hmid⟩
    rcases (Store.mem_putInto h.ids_nodup).mp hm with rfl | ⟨hm, -⟩
    · exact hj (h.hands_apart j i id hid (by rw [hi, ← hmid]; rfl))
    · exact hjunknown ⟨m, hm, hmid⟩
  · intro j k id hj hk
    have hback {j : Nat} (hid : (update stages i (.leaving (.accepted n)) j).hand = some id) :
        (stages j).hand = some id := by
      by_cases hji : j = i
      · subst hji
        rw [Function.update_self] at hid
        exact nomatch hid
      · rwa [Function.update_of_ne hji] at hid
    exact h.hands_apart j k id (hback hj) (hback hk)

end Tables

/-! ## Submissions -/

/-- What the calls of a submission were like that came to its end. -/
def Ending.Accounts (log : List Exchange) : Ending → Prop
  | .found _ => ∀ x ∈ log, x.Free
  | .refused _ => ∀ x ∈ log, x.Idle ∧ ¬ x.Finds
  | .accepted _ => ∀ x ∈ log, ¬ x.Finds

/-- The notification that a submission ends with is stored under its key. -/
def Ending.Stored (rows : List Notification) (key : String) : Ending → Prop
  | .found n | .accepted n => ∃ m ∈ rows, m.id = n.id ∧ m.idempotencyKey = key
  | .refused _ => True

/-- A submission is not turned down because another one has stored its key. -/
def Ending.Unopposed : Ending → Prop
  | .refused error => ∀ text, error ≠ .ofStore (.constraintViolation text)
  | _ => True

namespace Stage

/-- Under the lock of the key. -/
def Inside : Stage → Prop
  | .looking | .counting _ | .numbered _ | .ready _ | .leaving _ => True
  | _ => False

/-- What the calls of a submission were like up to a stage. -/
def Accounts (log : List Exchange) : Stage → Prop
  | .absent => True
  | .arriving | .looking => ∀ x ∈ log, x.Free ∧ ¬ x.Finds
  | .counting _ | .numbered _ | .ready _ => ∀ x ∈ log, x.Idle ∧ ¬ x.Finds
  | .leaving ending | .gone ending => ending.Accounts log

/-- What a submission has in hand agrees with its key and with the rows. -/
def Agrees (rows : List Notification) (key : String) : Stage → Prop
  | .ready n => n.idempotencyKey = key
  | .leaving ending | .gone ending => ending.Stored rows key
  | _ => True

/-- Between the lookup and the write nobody stores the key. -/
def Alone (rows : List Notification) (key : String) : Stage → Prop
  | .counting _ | .numbered _ | .ready _ => ∀ m ∈ rows, m.idempotencyKey ≠ key
  | .leaving ending | .gone ending => ending.Unopposed
  | _ => True

end Stage

/-- Where a submission stands. -/
structure Submission.Stands (p : Submission) (s : Shared) (i : Nat) (stage : Stage) : Prop where
  program : stage.program p.request = some p.rest
  inside : stage.Inside → s.inside p.service p.request.idempotencyKey = some i
  accounts : stage.Accounts p.log
  agrees : stage.Agrees s.rows p.request.idempotencyKey

/-- The stages of all submissions, and what is true of the tables then. If all instances have one
lock, whoever is under it is alone with their key. -/
structure State.Sound (services : Service → Prop) (s : State) (stages : Nat → Stage) : Prop where
  tables : Tables s.shared.world.books stages
  absent : ∀ i, s.submissions i = none → stages i = .absent
  stands : ∀ i p, s.submissions i = some p → p.Stands s.shared i (stages i)
  served : ∀ i p, s.submissions i = some p → services p.service
  alone : (∃ lock, ∀ service, services service → service.lock = lock) →
    ∀ i p, s.submissions i = some p →
      (stages i).Alone s.shared.rows p.request.idempotencyKey

theorem Submission.Stands.mono {p : Submission} {s s' : Shared} {i : Nat} {stage : Stage}
    (h : p.Stands s i stage)
    (hinside : ∀ key, s.inside p.service key = some i → s'.inside p.service key = some i)
    (hrows : ∀ m ∈ s.rows, m ∈ s'.rows) : p.Stands s' i stage where
  program := h.program
  inside := fun hin => hinside _ (h.inside hin)
  accounts := h.accounts
  agrees := by
    have hstored {ending : Ending} (h : ending.Stored s.rows p.request.idempotencyKey) :
        ending.Stored s'.rows p.request.idempotencyKey := by
      cases ending with
      | refused error => exact trivial
      | found n | accepted n =>
          obtain ⟨m, hm, hsame⟩ := h
          exact ⟨m, hrows m hm, hsame⟩
    have hagrees := h.agrees
    cases stage with
    | leaving ending | gone ending => exact hstored hagrees
    | _ => exact hagrees

/-! ## Moves -/

section Moves

variable {s s' : Shared} {service : Service} {request : Request} {i : Nat} {c : Call}
  {a : c.Answer} {stage stage' : Stage} {log : List Exchange}

theorem Stage.Goes.accounts (hgoes : stage.Goes request c a stage')
    (hserves : s.Serves service i c a s') (h : stage.Accounts log) :
    stage'.Accounts (⟨c, a, s, s'⟩ :: log) := by
  have hidle (hc : c.Passes ∨ c.Fails a ∨ c = .newId) : Exchange.Idle ⟨c, a, s, s'⟩ := by
    obtain ⟨serial, -, hbooks⟩ := hserves.idle hc
    exact ⟨congrArg Books.rows hbooks, congrArg Books.events hbooks⟩
  have hfree (hc : c.Passes ∨ c.Fails a ∨ c = .newId) (hacquire : ∀ key, c ≠ .acquire key) :
      Exchange.Free ⟨c, a, s, s'⟩ := ⟨hidle hc, hserves.limiters_eq hacquire⟩
  have hidles (h : ∀ x ∈ log, x.Free ∧ ¬ x.Finds) : ∀ x ∈ log, x.Idle ∧ ¬ x.Finds :=
    fun x hx => ⟨(h x hx).1.1, (h x hx).2⟩
  cases hgoes with
  | enters => exact List.forall_mem_cons.mpr ⟨⟨hfree (Or.inl trivial) nofun, id⟩, h⟩
  | finds =>
      exact List.forall_mem_cons.mpr ⟨hfree (Or.inl trivial) nofun, fun x hx => (h x hx).1⟩
  | misses | fails =>
      have hidle := hidle (Or.inl trivial)
      exact List.forall_mem_cons.mpr ⟨⟨hidle, fun ⟨_, heq⟩ => nomatch heq⟩, hidles h⟩
  | passes | exceeds | dates => exact List.forall_mem_cons.mpr ⟨⟨hidle (Or.inl trivial), id⟩, h⟩
  | draws => exact List.forall_mem_cons.mpr ⟨⟨hidle (Or.inr (Or.inr rfl)), id⟩, h⟩
  | saves => exact List.forall_mem_cons.mpr ⟨id, fun x hx => (h x hx).2⟩
  | conflicts => exact List.forall_mem_cons.mpr ⟨⟨hidle (Or.inr (Or.inl ⟨_, rfl⟩)), id⟩, h⟩
  | @leaves ending =>
      have hfree := hfree (Or.inl trivial) nofun
      cases ending with
      | found n => exact List.forall_mem_cons.mpr ⟨hfree, h⟩
      | refused error => exact List.forall_mem_cons.mpr ⟨⟨hfree.1, id⟩, h⟩
      | accepted n => exact List.forall_mem_cons.mpr ⟨id, h⟩

/-- What the store answers about a key. -/
private theorem answer_findByKey {key : String} {found : Except StoreError (Option Notification)}
    (h : s.Serves service i (.findByKey key) found s') :
    found = .ok (s.rows.find? (·.idempotencyKey == key)) ∧ s' = s := by
  cases h with
  | answers _ h =>
      obtain ⟨hdone, rfl⟩ := Prod.mk.inj h
      exact ⟨(Outcome.done.inj hdone).symm, rfl⟩

theorem Stage.Goes.agrees (hgoes : stage.Goes request c a stage')
    (hserves : s.Serves service i c a s') (h : stage.Agrees s.rows request.idempotencyKey) :
    stage'.Agrees s'.rows request.idempotencyKey := by
  cases hgoes with
  | finds =>
      obtain ⟨hfound, rfl⟩ := answer_findByKey hserves
      have hfound := (Except.ok.inj hfound).symm
      have hkey := List.find?_some hfound
      exact ⟨_, List.mem_of_find?_eq_some hfound, rfl, by simpa using hkey⟩
  | dates => exact rfl
  | @saves n e =>
      have hrows : s'.rows = Store.putInto n s.rows :=
        congrArg Books.rows hserves.effect.of_saveWithOutbox.2
      exact ⟨n, hrows ▸ Store.mem_putInto_self n s.rows, rfl, h⟩
  | leaves => cases hserves with
    | releases => exact h
    | answers hlock => exact absurd rfl (hlock _).2.1
  | _ => exact trivial

/-- An injected error and a conflict over a key have different texts. -/
private theorem ofStore_database_ne (message text : String) :
    DeliveryError.ofStore (.database message) ≠ .ofStore (.constraintViolation text) := by
  intro h
  have htext : "Database error: " ++ message = "Constraint violation: " ++ text :=
    DeliveryError.storage.inj h
  have hchars := congrArg String.toList htext
  simp at hchars

theorem Stage.Goes.alone (hgoes : stage.Goes request c a stage')
    (hserves : s.Serves service i c a s') (hagrees : stage.Agrees s.rows request.idempotencyKey)
    (h : stage.Alone s.rows request.idempotencyKey) :
    stage'.Alone s'.rows request.idempotencyKey := by
  have hsame (hc : c.Passes ∨ c.Fails a ∨ c = .newId) : s'.rows = s.rows := by
    obtain ⟨serial, -, hbooks⟩ := hserves.idle hc
    exact congrArg Books.rows hbooks
  cases hgoes with
  | enters | finds | saves => exact trivial
  | misses =>
      obtain ⟨hfound, rfl⟩ := answer_findByKey hserves
      have hnone := List.find?_eq_none.mp (Except.ok.inj hfound).symm
      intro m hm
      simpa using hnone m hm
  | fails => exact nomatch (answer_findByKey hserves).1
  | passes | dates => exact (hsame (Or.inl trivial)).symm ▸ h
  | draws => exact (hsame (Or.inr (Or.inr rfl))).symm ▸ h
  | exceeds => exact fun text => nofun
  | @conflicts n error =>
      cases hserves with
      | answers _ hanswer =>
        have hsave : (s.world.store.saveWithOutbox n Topic.send.name
            (s.world.ids.draw s.world.serial) s.world.now).1 = .error error :=
          Outcome.done.inj (congrArg Prod.fst hanswer)
        have hfree : s.world.store.keyTaken n = false := by
          simp only [Store.keyTaken, List.any_eq_false, Bool.and_eq_true, beq_iff_eq]
          rintro m hm ⟨hkey, -⟩
          exact h m hm (hkey.trans hagrees)
        rcases Store.error_of_saveWithOutbox hsave with ⟨message, -, rfl⟩ | htaken
        · exact ofStore_database_ne message
        · exact absurd htaken (Bool.eq_false_iff.mp hfree)
  | leaves => exact h

/-- A move keeps the tables in order and only adds to them, and only under the key of the
request. -/
theorem Stage.Goes.tables (hgoes : stage.Goes request c a stage')
    (hserves : s.Serves service i c a s') {stages : Nat → Stage}
    (h : Tables s.world.books stages) (hi : stages i = stage)
    (hagrees : stage.Agrees s.rows request.idempotencyKey)
    (hserial : s'.world.serial ≤ Books.serialLimit) :
    Tables s'.world.books (update stages i stage') ∧ s.rows <+: s'.rows ∧ s.events <+: s'.events ∧
      ∀ m ∈ s'.rows, m ∈ s.rows ∨ stage.Inside ∧ m.idempotencyKey = request.idempotencyKey := by
  have hsame (hc : c.Passes ∨ c.Fails a ∨ c = .newId) :
      s.rows <+: s'.rows ∧ s.events <+: s'.events ∧
        ∀ m ∈ s'.rows, m ∈ s.rows ∨ stage.Inside ∧ m.idempotencyKey = request.idempotencyKey := by
    obtain ⟨serial, -, hbooks⟩ := hserves.idle hc
    have hrows : s'.rows = s.rows := congrArg Books.rows hbooks
    have hevents : s'.events = s.events := congrArg Books.events hbooks
    rw [hrows, hevents]
    exact ⟨List.prefix_refl _, List.prefix_refl _, fun m hm => Or.inl hm⟩
  have hkeep (hc : c.Passes ∨ c.Fails a ∨ c = .newId)
      (hhand : ∀ id, stage'.hand = some id → stage.hand = some id) :
      Tables s'.world.books (update stages i stage') := by
    obtain ⟨serial, hle, hbooks⟩ := hserves.idle hc
    rw [hbooks]
    refine h.keep hle fun j id hid => ?_
    by_cases hj : j = i
    · subst hj
      rw [Function.update_self] at hid
      rw [hi]
      exact hhand id hid
    · rwa [Function.update_of_ne hj] at hid
  cases hgoes with
  | draws =>
      refine ⟨?_, hsame (Or.inr (Or.inr rfl))⟩
      obtain ⟨rfl, hbooks⟩ := hserves.effect.of_newId
      have hlt : s.world.books.serial < Books.serialLimit :=
        Nat.lt_of_succ_le ((congrArg Books.serial hbooks).ge.trans hserial)
      rw [hbooks]
      exact h.draw hlt
  | @saves n e =>
      obtain ⟨⟨now, rfl⟩, hbooks⟩ := hserves.effect.of_saveWithOutbox
      have hrows : s'.rows = s.rows ++ [n] :=
        (congrArg Books.rows hbooks).trans (h.putInto_eq hi)
      have hevents : s'.events = s.events ++ _ := congrArg Books.events hbooks
      have hkey : ∀ m ∈ s.world.books.rows, m.idempotencyKey ≠ n.idempotencyKey := by
        intro m hm heq
        have hunknown := (h.hands i n.id (by rw [hi]; rfl)).2
        cases hserves with
        | answers _ hanswer =>
          have hfree := Store.keyTaken_of_saveWithOutbox
            (Outcome.done.inj (congrArg Prod.fst hanswer))
          simp only [Store.keyTaken, List.any_eq_false, Bool.and_eq_true, beq_iff_eq,
            bne_iff_ne] at hfree
          exact hfree m hm ⟨heq, fun hid => hunknown ⟨m, hm, hid⟩⟩
      refine ⟨?_, ?_, ?_, ?_⟩
      · rw [hbooks]
        exact h.save hi hkey
      · rw [hrows]
        exact List.prefix_append _ _
      · rw [hevents]
        exact List.prefix_append _ _
      · intro m hm
        rw [hrows] at hm
        rcases List.mem_append.mp hm with hm | hm
        · exact Or.inl hm
        · rw [List.mem_singleton.mp hm]
          exact Or.inr ⟨trivial, hagrees⟩
  | @conflicts n error =>
      have hfails : (Call.saveWithOutbox n Topic.send.name).Fails (.error error) := ⟨error, rfl⟩
      refine ⟨hkeep (Or.inr (Or.inl hfails)) fun id hid => ?_, hsame (Or.inr (Or.inl hfails))⟩
      cases hid
  | dates => exact ⟨hkeep (Or.inl trivial) fun _ hid => hid, hsame (Or.inl trivial)⟩
  | _ =>
      refine ⟨hkeep (Or.inl trivial) fun id hid => ?_, hsame (Or.inl trivial)⟩
      cases hid

/-- After a move the submission stands at the next stage. -/
theorem Stage.Goes.stands (hgoes : stage.Goes request c a stage')
    (hserves : s.Serves service i c a s')
    {next : c.Answer → Prog (Except DeliveryError Notification)}
    (h : Submission.Stands ⟨request, service, .ask c next, log⟩ s i stage)
    (hprogram : stage'.program request = some (next a)) :
    Submission.Stands ⟨request, service, next a, ⟨c, a, s, s'⟩ :: log⟩ s' i stage' where
  program := hprogram
  inside := by
    intro hinside
    have hkept (hin : stage.Inside) (hc : ∀ key, c ≠ .unlock key) :
        s'.inside service request.idempotencyKey = some i :=
      hserves.inside_of_inside (h.inside hin) (Or.inr hc)
    cases hgoes with
    | enters => cases hserves with
      | admits hin => exact hin
      | answers hlock => exact absurd rfl (hlock _).1
    | leaves => exact hinside.elim
    | _ => exact hkept trivial nofun
  accounts := hgoes.accounts hserves h.accounts
  agrees := hgoes.agrees hserves h.agrees

end Moves

/-! ## Steps -/

theorem Stage.Alone.mono {stage : Stage} {rows rows' : List Notification} {key : String}
    (h : stage.Alone rows key)
    (hrows : stage.Inside → ∀ m ∈ rows', m ∈ rows ∨ m.idempotencyKey ≠ key) :
    stage.Alone rows' key := by
  have hopen (hinside : stage.Inside) (h : ∀ m ∈ rows, m.idempotencyKey ≠ key) :
      ∀ m ∈ rows', m.idempotencyKey ≠ key := by
    intro m hm
    rcases hrows hinside m hm with hm | hne
    · exact h m hm
    · exact hne
  cases stage with
  | counting | numbered | ready => exact hopen trivial h
  | _ => exact h

namespace State.Sound

variable {services : Service → Prop} {s : State} {stages : Nat → Stage} {shared : Shared} {i : Nat}
  {p? : Option Submission}

/-- One submission is replaced, and what is shared changes as far as the others allow. -/
theorem replace (h : s.Sound services stages) (stage : Stage)
    (htables : Tables shared.world.books (update stages i stage))
    (hrows : ∀ m ∈ s.shared.rows, m ∈ shared.rows)
    (hinside : ∀ j ≠ i, ∀ service key, s.shared.inside service key = some j →
      shared.inside service key = some j)
    (habsent : p? = none → stage = .absent)
    (hstands : ∀ p, p? = some p → p.Stands shared i stage ∧ services p.service)
    (halone : (∃ lock, ∀ service, services service → service.lock = lock) →
      (∀ p, p? = some p → stage.Alone shared.rows p.request.idempotencyKey) ∧
        ∀ j ≠ i, ∀ p, s.submissions j = some p → (stages j).Inside →
          ∀ m ∈ shared.rows, m ∈ s.shared.rows ∨
            m.idempotencyKey ≠ p.request.idempotencyKey) :
    State.Sound services ⟨shared, Function.update s.submissions i p?⟩
      (Function.update stages i stage) := by
  have hcases (P : Nat → Option Submission → Stage → Prop) (hi : P i p? stage)
      (hothers : ∀ j ≠ i, P j (s.submissions j) (stages j)) (j : Nat) :
      P j (Function.update s.submissions i p? j) (Function.update stages i stage j) := by
    by_cases hj : j = i
    · subst hj
      rwa [Function.update_self, Function.update_self]
    · rw [Function.update_of_ne hj, Function.update_of_ne hj]
      exact hothers j hj
  constructor
  · exact htables
  · exact hcases (fun _ p? stage => p? = none → stage = .absent) habsent fun j _ => h.absent j
  · apply hcases (fun j p? stage => ∀ p, p? = some p → p.Stands shared j stage)
    · exact fun p hp => (hstands p hp).1
    · exact fun j hj p hp => (h.stands j p hp).mono (hinside j hj p.service) hrows
  · apply hcases (fun _ p? _ => ∀ p, p? = some p → services p.service)
    · exact fun p hp => (hstands p hp).2
    · exact fun j _ => h.served j
  · intro hlock
    obtain ⟨hown, hothers⟩ := halone hlock
    apply hcases fun _ p? stage => ∀ p, p? = some p →
      stage.Alone shared.rows p.request.idempotencyKey
    · exact hown
    · exact fun j hj p hp => (h.alone hlock j p hp).mono (hothers j hj p hp)

end State.Sound

/-- Every step keeps the submissions at their stages and the tables in order, and removes or changes
nothing that was stored. -/
theorem Step.sound {services : Service → Prop} {s s' : State} (hstep : Step services s s')
    {stages : Nat → Stage} (h : s.Sound services stages)
    (hserial : s'.shared.world.serial ≤ Books.serialLimit) :
    (∃ stages', s'.Sound services stages') ∧ s.shared.rows <+: s'.shared.rows ∧
      s.shared.events <+: s'.shared.events := by
  have hquiet {shared : Shared} {stage : Stage} {i : Nat}
      (hbooks : shared.world.books = s.shared.world.books) (hhand : stage.hand = none) :
      Tables shared.world.books (update stages i stage) := by
    rw [hbooks]
    refine h.tables.keep (Nat.le_refl _) fun j id hid => ?_
    by_cases hj : j = i
    · subst hj
      rw [Function.update_self, hhand] at hid
      cases hid
    · rwa [Function.update_of_ne hj] at hid
  cases hstep with
  | @comes i request service hfree hservice =>
      refine ⟨⟨_, h.replace (i := i) .arriving (hquiet rfl rfl) (fun _ hm => hm) ?_ (by simp)
        ?_ ?_⟩, List.prefix_refl _, List.prefix_refl _⟩
      · exact fun _ _ _ _ => Shared.inside_enter
      · rintro p hp
        obtain rfl := Option.some.inj hp
        exact ⟨⟨rfl, fun hinside => hinside.elim, List.forall_mem_nil _, trivial⟩, hservice⟩
      · exact fun _ => ⟨fun _ _ => trivial, fun _ _ _ _ _ m hm => Or.inl hm⟩
  | @goes i request service c next log a shared hi hserves =>
      have hstands := h.stands i _ hi
      have hserved : services service := h.served i _ hi
      obtain ⟨stage', hgoes, hprogram⟩ := Stage.goes_of_program hstands.program a
      obtain ⟨htables, hrows, hevents, hnew⟩ :=
        hgoes.tables hserves h.tables rfl hstands.agrees hserial
      refine ⟨⟨_, h.replace (i := i) stage' htables (fun _ hm => hrows.subset hm) ?_ (by simp)
        ?_ ?_⟩, hrows, hevents⟩
      · exact fun j hj _ _ hinside => hserves.inside_of_inside hinside (Or.inl hj)
      · rintro p hp
        obtain rfl := Option.some.inj hp
        exact ⟨hgoes.stands hserves hstands hprogram, hserved⟩
      · rintro ⟨lock, hlock⟩
        constructor
        · rintro p hp
          obtain rfl := Option.some.inj hp
          exact hgoes.alone hserves hstands.agrees (h.alone ⟨lock, hlock⟩ i _ hi)
        · intro j hj p hp hinside m hm
          -- Two submissions of one key cannot both be inside the only lock.
          rcases hnew m hm with hm | ⟨hin, hkey⟩
          · exact Or.inl hm
          · refine Or.inr fun heq => hj ?_
            have hown := hstands.inside hin
            have hother := (h.stands j p hp).inside hinside
            have hsame : p.service.lock = service.lock :=
              (hlock _ (h.served j p hp)).trans (hlock _ hserved).symm
            rw [Shared.inside, hsame, ← heq, hkey] at hother
            exact Option.some.inj (hother.symm.trans hown)
  | @drops i request service c next log hi =>
      refine ⟨⟨_, h.replace (i := i) .absent (hquiet rfl rfl) (fun _ hm => hm) ?_
        (fun _ => rfl) (by simp) ?_⟩, List.prefix_refl _, List.prefix_refl _⟩
      · exact fun j hj _ _ hinside => Shared.inside_leave hinside hj
      · exact fun _ => ⟨by simp, fun _ _ _ _ _ m hm => Or.inl hm⟩
  | @surroundings world limiters hbooks =>
      have hrows : world.store.notifications = s.shared.rows := congrArg Books.rows hbooks
      have hevents : world.store.outbox = s.shared.events := congrArg Books.events hbooks
      have hsame : ∀ m, m ∈ world.store.notifications ↔ m ∈ s.shared.rows := by simp [hrows]
      refine ⟨⟨stages, ?_, h.absent, ?_, h.served, ?_⟩, ?_, ?_⟩
      · exact (congrArg (Tables · stages) hbooks).mpr h.tables
      · exact fun i p hp => (h.stands i p hp).mono (fun _ hin => hin) fun m => (hsame m).mpr
      · exact fun hlock i p hp => (h.alone hlock i p hp).mono fun _ m hm => Or.inl ((hsame m).mp hm)
      · exact hrows ▸ List.prefix_refl _
      · exact hevents ▸ List.prefix_refl _

/-! ## Runs -/

/-- What intake promises about a state: a key has at most one row, a row has exactly one event,
which promises to send it, and no event is about anything else. A submission that returned a
notification returned the one stored under its key. One that failed changed neither table by any
of its calls, and one that found its key stored changed no limiter either. -/
structure State.ExactlyOnce (s : State) : Prop where
  keys : (s.shared.rows.map (·.idempotencyKey)).Nodup
  promised : ∀ n ∈ s.shared.rows, ∃ e,
    s.shared.events.filter (·.notificationId == n.id) = [e] ∧ e.topic = Topic.send.name
  about : ∀ e ∈ s.shared.events, ∃ n ∈ s.shared.rows, n.id = e.notificationId
  answered : ∀ i p n, s.submissions i = some p → p.rest = .done (.ok n) →
    ∃ m ∈ s.shared.rows, m.idempotencyKey = p.request.idempotencyKey ∧ m.id = n.id
  failed : ∀ i p error, s.submissions i = some p → p.rest = .done (.error error) →
    ∀ x ∈ p.log, x.Idle
  found : ∀ i p, s.submissions i = some p → (∃ x ∈ p.log, x.Finds) → ∀ x ∈ p.log, x.Free

namespace Tables

variable {b : Books} {stages : Nat → Stage}

theorem promised (h : Tables b stages) {n : Notification} (hn : n ∈ b.rows) :
    ∃ e, b.events.filter (·.notificationId == n.id) = [e] ∧ e.topic = Topic.send.name := by
  have hids : b.events.map (·.notificationId) = b.rows.map (·.id) := by
    simpa [Function.comp_def] using congrArg (List.map Prod.fst) h.promises
  have hcount : (b.events.filter (·.notificationId == n.id)).length = 1 := by
    rw [← List.countP_eq_length_filter]
    calc b.events.countP (·.notificationId == n.id)
        = (b.events.map (·.notificationId)).count n.id := by
          rw [List.count, List.countP_map]
          rfl
      _ = (b.rows.map (·.id)).count n.id := by rw [hids]
      _ = 1 := List.count_eq_one_of_mem h.ids_nodup (List.mem_map_of_mem hn)
  obtain ⟨e, he⟩ := List.length_eq_one_iff.mp hcount
  have hmem : e ∈ b.events := (List.mem_filter.mp (he ▸ List.mem_singleton_self e)).1
  have hpair : (e.notificationId, e.topic) ∈ b.rows.map fun n => (n.id, Topic.send.name) := by
    rw [← h.promises]
    exact List.mem_map_of_mem hmem
  obtain ⟨m, -, hm⟩ := List.mem_map.mp hpair
  exact ⟨e, he, (Prod.mk.inj hm).2.symm⟩

theorem about (h : Tables b stages) {e : OutboxEvent} (he : e ∈ b.events) :
    ∃ n ∈ b.rows, n.id = e.notificationId := by
  have hpair : (e.notificationId, e.topic) ∈ b.rows.map fun n => (n.id, Topic.send.name) := by
    rw [← h.promises]
    exact List.mem_map_of_mem he
  obtain ⟨n, hn, heq⟩ := List.mem_map.mp hpair
  exact ⟨n, hn, (Prod.mk.inj heq).1⟩

end Tables

/-- A submission that has returned is at its end. -/
theorem Submission.Stands.ending {p : Submission} {s : Shared} {i : Nat} {stage : Stage}
    (h : p.Stands s i stage) {outcome : Except DeliveryError Notification}
    (hrest : p.rest = .done outcome) :
    ∃ ending, stage = .gone ending ∧ ending.outcome = outcome := by
  have hprogram := h.program
  rw [hrest] at hprogram
  cases stage with
  | gone ending => exact ⟨ending, rfl, Prog.done.inj (Option.some.inj hprogram)⟩
  | counting keys => cases keys <;> exact nomatch hprogram
  | _ => exact nomatch hprogram

theorem Submission.Stands.found {p : Submission} {s : Shared} {i : Nat} {stage : Stage}
    (h : p.Stands s i stage) (hfinds : ∃ x ∈ p.log, x.Finds) : ∀ x ∈ p.log, x.Free := by
  obtain ⟨x, hx, hfinds⟩ := hfinds
  have hended {ending : Ending} (h : ending.Accounts p.log) : ∀ x ∈ p.log, x.Free := by
    cases ending with
    | found n => exact h
    | refused error => exact absurd hfinds (h x hx).2
    | accepted n => exact absurd hfinds (h x hx)
  have haccounts := h.accounts
  cases stage with
  | absent => exact nomatch h.program
  | leaving ending | gone ending => exact hended haccounts
  | _ => exact absurd hfinds (haccounts x hx).2

theorem State.Sound.once {services : Service → Prop} {s : State} {stages : Nat → Stage}
    (h : s.Sound services stages) : s.ExactlyOnce where
  keys := h.tables.keys_nodup
  promised := fun _ => h.tables.promised
  about := fun _ => h.tables.about
  answered := by
    intro i p n hp hrest
    have hstands := h.stands i p hp
    obtain ⟨ending, hstage, hending⟩ := hstands.ending hrest
    have hagrees := hstands.agrees
    rw [hstage] at hagrees
    cases ending with
    | refused error => exact nomatch hending
    | found m | accepted m =>
        obtain rfl := Except.ok.inj hending
        obtain ⟨row, hrow, hid, hkey⟩ := hagrees
        exact ⟨row, hrow, hkey, hid⟩
  failed := by
    intro i p error hp hrest
    have hstands := h.stands i p hp
    obtain ⟨ending, hstage, hending⟩ := hstands.ending hrest
    have haccounts := hstands.accounts
    rw [hstage] at haccounts
    cases ending with
    | refused error => exact fun x hx => (haccounts x hx).1
    | found m | accepted m => exact nomatch hending
  found := fun i p hp => (h.stands i p hp).found

/-- No identifier is given back. -/
theorem Step.serial_le {services : Service → Prop} {s s' : State} (h : Step services s s') :
    s.shared.world.serial ≤ s'.shared.world.serial := by
  cases h with
  | comes | drops => exact Nat.le_refl _
  | goes _ hserves => exact hserves.effect.serial_le
  | surroundings hbooks => exact (congrArg Books.serial hbooks).ge

section Runs

variable {services : Service → Prop} {world : World} {limiters : Nat → RateLimiter} {s s' : State}

theorem Steps.sound (h : Steps services s s') (hstart : ∃ stages, s.Sound services stages)
    (hserial : s'.shared.world.serial ≤ Books.serialLimit) :
    (∃ stages, s'.Sound services stages) ∧ s.shared.rows <+: s'.shared.rows ∧
      s.shared.events <+: s'.shared.events := by
  induction h with
  | refl => exact ⟨hstart, List.prefix_refl _, List.prefix_refl _⟩
  | tail _ hstep ih =>
      obtain ⟨⟨stages, hsound⟩, hrows, hevents⟩ := ih (hstep.serial_le.trans hserial)
      obtain ⟨hsound', hrows', hevents'⟩ := hstep.sound hsound hserial
      exact ⟨hsound', hrows.trans hrows', hevents.trans hevents'⟩

theorem Steps.serial_le (h : Steps services s s') :
    s.shared.world.serial ≤ s'.shared.world.serial := by
  induction h with
  | refl => exact Nat.le_refl _
  | tail _ hstep ih => exact ih.trans hstep.serial_le

theorem sound_opened (hrows : world.store.notifications = []) (hevents : world.store.outbox = []) :
    (State.opened world limiters).Sound services fun _ => .absent := by
  have hrows : world.books.rows = [] := hrows
  have hevents : world.books.events = [] := hevents
  refine ⟨⟨?_, ?_, ?_, ?_, nofun, nofun⟩, fun _ _ => rfl, nofun, nofun, nofun⟩
  · simp [State.opened, hrows]
  · simp [State.opened, hrows]
  · simp [State.opened, hrows]
  · simp [State.opened, hrows, hevents]

/-- However submissions overlap, on however many instances, whatever their limiters decide and
whichever writes are made to fail: every key is taken in at most once, nothing taken in is ever
removed or changed, and under a common lock no submission fails because another one has stored its
key. -/
theorem Steps.exactly_once (hrows : world.store.notifications = [])
    (hevents : world.store.outbox = []) (h : Steps services (.opened world limiters) s)
    (h' : Steps services s s') (hserial : s'.shared.world.serial ≤ Books.serialLimit) :
    s'.ExactlyOnce ∧ s.shared.rows <+: s'.shared.rows ∧ s.shared.events <+: s'.shared.events ∧
      ((∃ lock, ∀ service, services service → service.lock = lock) →
        ∀ i p text, s'.submissions i = some p →
          p.rest ≠ .done (.error (.ofStore (.constraintViolation text)))) := by
  obtain ⟨hsound, -, -⟩ := h.sound ⟨_, sound_opened hrows hevents⟩ (h'.serial_le.trans hserial)
  obtain ⟨⟨stages, hsound'⟩, hkept, hkept'⟩ := h'.sound hsound hserial
  refine ⟨hsound'.once, hkept, hkept', ?_⟩
  intro hlock i p text hp hrest
  obtain ⟨ending, hstage, hending⟩ := (hsound'.stands i p hp).ending hrest
  have halone := hsound'.alone hlock i p hp
  rw [hstage] at halone
  cases ending with
  | refused error => exact halone text (Except.error.inj hending)
  | found n | accepted n => exact nomatch hending

end Runs

/-! ## Two submissions of one key -/

/-- Two instances with one lock and a limiter each take in the same request; their calls alternate,
but the second submission has to wait until the first has left. -/
def overlap : State :=
  (List.replicate 20 [0, 1]).flatten.foldl .advance
    (((State.opened (Sample.world []) fun _ => .perSecond 100).arrive 0 Sample.request
      ⟨0, 0⟩).arrive 1 Sample.request ⟨0, 1⟩)

/-- Both return the one notification that is stored, and the second changes nothing. -/
theorem Steps.exactly_once_overlap :
    (∃ n ∈ overlap.shared.rows, overlap.returned? 0 = some (.ok n) ∧
      overlap.returned? 1 = some (.ok n)) ∧ overlap.ExactlyOnce ∧
      ∀ i p text, overlap.submissions i = some p →
        p.rest ≠ .done (.error (.ofStore (.constraintViolation text))) := by
  have hsteps : Steps (·.lock = 0) (.opened (Sample.world []) fun _ => .perSecond 100) overlap := by
    refine .trans ?_ (steps_schedule _ _)
    exact (steps_arrive _ 0 _ (by decide)).trans (steps_arrive _ 1 _ (by decide))
  obtain ⟨honce, -, -, hlock⟩ := Steps.exactly_once rfl rfl hsteps .refl (by decide +kernel)
  exact ⟨by decide +kernel, honce, hlock ⟨0, fun _ h => h⟩⟩

end Courier.Intake
