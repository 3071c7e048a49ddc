import Courier.Proofs.Runs.Protocol
import Courier.Proofs.Runs.Tables
import Courier.World

/-!
What lasts of a world, and what each call does to it. The books are the rows and events of the
store, the logs and cursors of the bus, and the identifiers and how many of them are drawn. Clock,
channels, limits and injected faults are left out: programs may depend on them, but they decide
only which of its answers a call gets, not what that answer does to the books.
-/

namespace Courier

/-- What lasts of a world. Refusals of the bus are faults to come, so there are none here. -/
structure Books where
  rows : List Notification
  events : List OutboxEvent
  bus : Bus
  ids : Uuid.Supply
  serial : Nat

def World.books (w : World) : Books :=
  ⟨w.store.notifications, w.store.outbox, { w.bus with refusals := [] }, w.ids, w.serial⟩

/-- The clock, chance and limits, about which nothing is assumed. -/
def Call.IsAmbient : Call → Prop
  | .now | .jitter _ | .acquire _ => True
  | _ => False

/-- How a world can answer a call. Any call that can fail may fail without an effect, and a
channel may answer anything. -/
inductive World.Answers (w : World) : (c : Call) → c.Answer → World → Prop
  | serves {c a w'} (h : w.answer c = (.done a, w')) : Answers w c a w'
  | fails {c a} (h : c.Fails a) : Answers w c a w
  | varies {c a} (h : c.IsAmbient) : Answers w c a w
  | replies {place n a w'} (h : w'.books = w.books) : Answers w (.send place n) a w'

/-- What an answered call does to the books. -/
inductive Books.Effect (b : Books) : (c : Call) → c.Answer → Books → Prop
  | passes {c a} (h : c.Passes) : Effect b c a b
  | fails {c a serial} (h : c.Fails a) (hserial : b.serial ≤ serial) :
      Effect b c a { b with serial }
  | sends {place n a} : Effect b (.send place n) a b
  | draws : Effect b .newId (b.ids.draw b.serial) { b with serial := b.serial + 1 }
  | finds {id} : Effect b (.findById id) (.ok (b.rows.find? (·.id == id))) b
  | lists {status limit ns} (h : ∀ n ∈ ns, n ∈ b.rows ∧ n.status = status) :
      Effect b (.findByStatus status limit) (.ok ns) b
  | saves {n} : Effect b (.save n) (.ok ()) { b with rows := Store.putInto n b.rows }
  | promises {n topic now} :
      Effect b (.saveWithOutbox n topic)
        (.ok (.pending (b.ids.draw b.serial) n.id topic now))
        { b with
          rows := Store.putInto n b.rows
          events := b.events ++ [.pending (b.ids.draw b.serial) n.id topic now]
          serial := b.serial + 1 }
  | fetches {now limit due} (h : ∀ e ∈ due, e ∈ b.events ∧ e.status = .pending)
      (hnodup : (b.events.map (·.id)).Nodup → (due.map (·.id)).Nodup) :
      Effect b (.dueEvents now limit) (.ok due) b
  | marks {id now events}
      (h : Store.changeEvent id (·.markPublished now) b.events = some events) :
      Effect b (.markPublished id) (.ok ()) { b with events }
  | postpones {id error next now events}
      (h : Store.changeEvent id (·.markFailed error next now) b.events = some events) :
      Effect b (.markFailed id error next) (.ok ()) { b with events }
  | deletes {cutoff count} :
      Effect b (.deletePublished cutoff) (.ok count)
        { b with events := b.events.filter fun e => e.status != .published || cutoff ≤ e.updatedAt }
  | publishes {topic key payload now} :
      Effect b (.publish topic key payload) (.ok ())
        { b with bus := b.bus.append topic key payload now }
  | polls {sub max} : Effect b (.poll sub max) (.ok (b.bus.poll sub max)) b
  | commits {sub offset} :
      Effect b (.commit sub offset) (.ok ()) { b with bus := b.bus.commit sub offset }
  | prunes {topic cutoff count} :
      Effect b (.prune topic cutoff) (.ok count) { b with bus := (b.bus.prune topic cutoff).2 }

/-! ## What a successful call did -/

namespace Books.Effect

variable {b b' : Books}

theorem of_newId {id : Uuid} (h : b.Effect .newId id b') :
    id = b.ids.draw b.serial ∧ b' = { b with serial := b.serial + 1 } := by
  cases h with
  | passes hpasses => exact hpasses.elim
  | fails hfails => exact hfails.elim
  | draws => exact ⟨rfl, rfl⟩

theorem of_findById {id : Uuid} {found : Option Notification}
    (h : b.Effect (.findById id) (.ok found) b') :
    found = b.rows.find? (·.id == id) ∧ b' = b := by
  cases h with
  | passes hpasses => exact hpasses.elim
  | fails hfails => exact nomatch hfails.choose_spec
  | finds => exact ⟨rfl, rfl⟩

theorem of_findByStatus {status : Status} {limit : Nat} {ns : List Notification}
    (h : b.Effect (.findByStatus status limit) (.ok ns) b') :
    (∀ n ∈ ns, n ∈ b.rows ∧ n.status = status) ∧ b' = b := by
  cases h with
  | passes hpasses => exact hpasses.elim
  | fails hfails => exact nomatch hfails.choose_spec
  | lists hmem => exact ⟨hmem, rfl⟩

theorem of_save {n : Notification} (h : b.Effect (.save n) (.ok ()) b') :
    b' = { b with rows := Store.putInto n b.rows } := by
  cases h with
  | passes hpasses => exact hpasses.elim
  | fails hfails => exact nomatch hfails.choose_spec
  | saves => rfl

theorem of_saveWithOutbox {n : Notification} {topic : String} {e : OutboxEvent}
    (h : b.Effect (.saveWithOutbox n topic) (.ok e) b') :
    (∃ now, e = .pending (b.ids.draw b.serial) n.id topic now) ∧
      b' = { b with
        rows := Store.putInto n b.rows
        events := b.events ++ [e]
        serial := b.serial + 1 } := by
  cases h with
  | passes hpasses => exact hpasses.elim
  | fails hfails => exact nomatch hfails.choose_spec
  | promises => exact ⟨⟨_, rfl⟩, rfl⟩

theorem of_dueEvents {now : Instant} {limit : Nat} {due : List OutboxEvent}
    (h : b.Effect (.dueEvents now limit) (.ok due) b') :
    (∀ e ∈ due, e ∈ b.events ∧ e.status = .pending) ∧
      ((b.events.map (·.id)).Nodup → (due.map (·.id)).Nodup) ∧ b' = b := by
  cases h with
  | passes hpasses => exact hpasses.elim
  | fails hfails => exact nomatch hfails.choose_spec
  | fetches hmem hnodup => exact ⟨hmem, hnodup, rfl⟩

theorem of_markPublished {id : Uuid} (h : b.Effect (.markPublished id) (.ok ()) b') :
    ∃ now events, Store.changeEvent id (·.markPublished now) b.events = some events ∧
      b' = { b with events } := by
  cases h with
  | passes hpasses => exact hpasses.elim
  | fails hfails => exact nomatch hfails.choose_spec
  | marks hchange => exact ⟨_, _, hchange, rfl⟩

theorem of_markFailed {id : Uuid} {error : String} {next : Instant}
    (h : b.Effect (.markFailed id error next) (.ok ()) b') :
    ∃ now events, Store.changeEvent id (·.markFailed error next now) b.events = some events ∧
      b' = { b with events } := by
  cases h with
  | passes hpasses => exact hpasses.elim
  | fails hfails => exact nomatch hfails.choose_spec
  | postpones hchange => exact ⟨_, _, hchange, rfl⟩

theorem of_deletePublished {cutoff : Instant} {count : Nat}
    (h : b.Effect (.deletePublished cutoff) (.ok count) b') :
    b' = { b with
      events := b.events.filter fun e => e.status != .published || cutoff ≤ e.updatedAt } := by
  cases h with
  | passes hpasses => exact hpasses.elim
  | fails hfails => exact nomatch hfails.choose_spec
  | deletes => rfl

theorem of_publish {topic : String} {key : Option String} {payload : Bytes}
    (h : b.Effect (.publish topic key payload) (.ok ()) b') :
    ∃ now, b' = { b with bus := b.bus.append topic key payload now } := by
  cases h with
  | passes hpasses => exact hpasses.elim
  | fails hfails => exact nomatch hfails.choose_spec
  | publishes => exact ⟨_, rfl⟩

theorem of_poll {sub : Subscription} {max : Nat} {rs : List Record}
    (h : b.Effect (.poll sub max) (.ok rs) b') : rs = b.bus.poll sub max ∧ b' = b := by
  cases h with
  | passes hpasses => exact hpasses.elim
  | fails hfails => exact nomatch hfails.choose_spec
  | polls => exact ⟨rfl, rfl⟩

theorem of_commit {sub : Subscription} {offset : Int}
    (h : b.Effect (.commit sub offset) (.ok ()) b') :
    b' = { b with bus := b.bus.commit sub offset } := by
  cases h with
  | passes hpasses => exact hpasses.elim
  | fails hfails => exact nomatch hfails.choose_spec
  | commits => rfl

theorem of_prune {topic : String} {cutoff : Instant} {count : Nat}
    (h : b.Effect (.prune topic cutoff) (.ok count) b') :
    b' = { b with bus := (b.bus.prune topic cutoff).2 } := by
  cases h with
  | passes hpasses => exact hpasses.elim
  | fails hfails => exact nomatch hfails.choose_spec
  | prunes => rfl

theorem serial_le {c : Call} {a : c.Answer} (h : b.Effect c a b') : b.serial ≤ b'.serial := by
  cases h with
  | fails _ hserial => exact hserial
  | draws | promises => exact Nat.le_succ _
  | _ => exact Nat.le_refl _

theorem ids_eq {c : Call} {a : c.Answer} (h : b.Effect c a b') : b'.ids = b.ids := by
  cases h <;> rfl

/-- A call that passes, or that fails, leaves the books as they were but for the serial. -/
theorem of_idle {c : Call} {a : c.Answer} (h : b.Effect c a b')
    (hidle : c.Passes ∨ c.Fails a ∨ ∃ place n, c = .send place n) :
    ∃ serial, b.serial ≤ serial ∧ b' = { b with serial } := by
  have hsame : ∃ serial, b.serial ≤ serial ∧ b = { b with serial } := ⟨_, Nat.le_refl _, rfl⟩
  have hok {ε α : Type} {a : α} (h : ∃ error : ε, Except.ok a = .error error) : False :=
    nomatch h.choose_spec
  cases h with
  | passes | sends | finds | lists | fetches | polls => exact hsame
  | fails _ hserial => exact ⟨_, hserial, rfl⟩
  | draws => exact ⟨_, Nat.le_succ _, rfl⟩
  | _ =>
      rcases hidle with hpasses | hfails | ⟨place, n, heq⟩
      · exact hpasses.elim
      · exact (hok hfails).elim
      · exact nomatch heq

end Books.Effect

/-! ## Operations of the store and the bus -/

namespace Store

variable {s s' : Store} {α : Type} {r : Except StoreError α} {run : Store → Result α}

private theorem guarded_cases {slot : Slot} (h : s.guarded slot run = (r, s')) :
    (∃ error, r = .error error) ∧ s'.notifications = s.notifications ∧ s'.outbox = s.outbox ∨
      run s = (r, s') := by
  unfold guarded at h
  split at h
  · obtain ⟨rfl, rfl⟩ := Prod.mk.inj h
    exact Or.inl ⟨⟨_, rfl⟩, by cases slot <;> rfl, by cases slot <;> rfl⟩
  · exact Or.inr h

section

variable {n : Notification} {value : Store → α} {after : Store → Store}

/-- A write as both kinds of them are: it is refused if its key is taken. -/
private def writes (s : Store) (n : Notification) (value : Store → α) (after : Store → Store) :
    Result α :=
  s.guarded .write fun s =>
    if s.keyTaken n then (.error (keyError n), s) else (.ok (value s), after s)

private theorem writes_cases (h : s.writes n value after = (r, s')) :
    (∃ error, r = .error error) ∧ s'.notifications = s.notifications ∧ s'.outbox = s.outbox ∨
      r = .ok (value s) ∧ s' = after s := by
  rcases guarded_cases h with hfails | h
  · exact Or.inl hfails
  · by_cases htaken : s.keyTaken n = true
    · rw [if_pos htaken] at h
      obtain ⟨rfl, rfl⟩ := Prod.mk.inj h
      exact Or.inl ⟨⟨_, rfl⟩, rfl, rfl⟩
    · rw [if_neg htaken] at h
      obtain ⟨rfl, rfl⟩ := Prod.mk.inj h
      exact Or.inr ⟨rfl, rfl⟩

private theorem keyTaken_of_writes {a : α} (h : (s.writes n value after).1 = .ok a) :
    s.keyTaken n = false := by
  unfold writes guarded at h
  split at h
  · exact nomatch h
  · by_cases htaken : s.keyTaken n = true
    · simp [htaken] at h
    · exact Bool.eq_false_iff.mpr htaken

private theorem error_of_writes {error : StoreError}
    (h : (s.writes n value after).1 = .error error) :
    (∃ message, s.saveError = some message ∧ error = .database message) ∨ s.keyTaken n = true := by
  unfold writes guarded at h
  split at h
  · next message hmessage => exact Or.inl ⟨message, hmessage, (Except.error.inj h).symm⟩
  · by_cases htaken : s.keyTaken n = true
    · exact Or.inr htaken
    · simp [htaken] at h

end

section

variable {n : Notification} {topic : String} {id : Uuid} {now : Instant} {e : OutboxEvent}
  {error : StoreError}

private theorem save_eq_writes (s : Store) (n : Notification) :
    s.save n = s.writes n (fun _ => ()) (·.put n) := rfl

private theorem saveWithOutbox_eq_writes (s : Store) (n : Notification) (topic : String)
    (id : Uuid) (now : Instant) :
    s.saveWithOutbox n topic id now = s.writes n (fun _ => .pending id n.id topic now)
      fun s => { s.put n with outbox := s.outbox ++ [.pending id n.id topic now] } := rfl

theorem save_cases {r : Except StoreError Unit} (h : s.save n = (r, s')) :
    (∃ error, r = .error error) ∧ s'.notifications = s.notifications ∧ s'.outbox = s.outbox ∨
      r = .ok () ∧ s'.notifications = putInto n s.notifications ∧ s'.outbox = s.outbox := by
  rcases writes_cases (s.save_eq_writes n ▸ h) with hfails | ⟨rfl, rfl⟩
  · exact Or.inl hfails
  · exact Or.inr ⟨rfl, rfl, rfl⟩

theorem saveWithOutbox_cases {r : Except StoreError OutboxEvent}
    (h : s.saveWithOutbox n topic id now = (r, s')) :
    (∃ error, r = .error error) ∧ s'.notifications = s.notifications ∧ s'.outbox = s.outbox ∨
      r = .ok (.pending id n.id topic now) ∧ s'.notifications = putInto n s.notifications ∧
        s'.outbox = s.outbox ++ [.pending id n.id topic now] := by
  rcases writes_cases (s.saveWithOutbox_eq_writes n topic id now ▸ h) with hfails | ⟨rfl, rfl⟩
  · exact Or.inl hfails
  · exact Or.inr ⟨rfl, rfl, rfl⟩

theorem saveWithOutbox_of_not_keyTaken (herror : s.saveError = none)
    (hkey : s.keyTaken n = false) :
    s.saveWithOutbox n topic id now =
      (.ok (.pending id n.id topic now),
        { s.put n with outbox := s.outbox ++ [.pending id n.id topic now] }) := by
  rw [saveWithOutbox, guarded_of_none .write herror]
  exact if_neg (Bool.not_eq_true _ ▸ hkey)

/-- Only a free key is written to. -/
theorem keyTaken_of_save (h : (s.save n).1 = .ok ()) : s.keyTaken n = false :=
  keyTaken_of_writes (s.save_eq_writes n ▸ h)

theorem keyTaken_of_saveWithOutbox (h : (s.saveWithOutbox n topic id now).1 = .ok e) :
    s.keyTaken n = false :=
  keyTaken_of_writes (s.saveWithOutbox_eq_writes n topic id now ▸ h)

/-- A write fails only if it is made to, or if its key is taken. -/
theorem error_of_save (h : (s.save n).1 = .error error) :
    (∃ message, s.saveError = some message ∧ error = .database message) ∨ s.keyTaken n = true :=
  error_of_writes (s.save_eq_writes n ▸ h)

theorem error_of_saveWithOutbox (h : (s.saveWithOutbox n topic id now).1 = .error error) :
    (∃ message, s.saveError = some message ∧ error = .database message) ∨ s.keyTaken n = true :=
  error_of_writes (s.saveWithOutbox_eq_writes n topic id now ▸ h)

end

theorem dueEvents_cases {now : Instant} {limit : Nat} {r : Except StoreError (List OutboxEvent)}
    (h : s.dueEvents now limit = (r, s')) :
    (∃ error, r = .error error) ∧ s'.notifications = s.notifications ∧ s'.outbox = s.outbox ∨
      ∃ due, r = .ok due ∧ s' = s ∧ (∀ e ∈ due, e ∈ s.outbox ∧ e.status = .pending) ∧
        ((s.outbox.map (·.id)).Nodup → (due.map (·.id)).Nodup) := by
  rcases guarded_cases h with hfails | h
  · exact Or.inl hfails
  · obtain ⟨rfl, rfl⟩ := Prod.mk.inj h
    refine Or.inr ⟨_, rfl, rfl, ?_, ?_⟩
    · intro e he
      have hmem := List.mem_filter.mp (List.mem_mergeSort.mp (List.mem_of_mem_take he))
      have hdue := hmem.2
      simp only [OutboxEvent.isDue, Bool.and_eq_true, beq_iff_eq] at hdue
      exact ⟨hmem.1, hdue.1⟩
    · intro hnodup
      apply ((List.take_sublist _ _).map _).nodup
      apply ((List.mergeSort_perm _ _).map _).nodup_iff.mpr
      exact (List.filter_sublist.map _).nodup hnodup

theorem changing_cases {id : Uuid} {change : OutboxEvent → OutboxEvent}
    {r : Except StoreError Unit} (h : s.changing id change = (r, s')) :
    (∃ error, r = .error error) ∧ s'.notifications = s.notifications ∧ s'.outbox = s.outbox ∨
      r = .ok () ∧ s'.notifications = s.notifications ∧
        changeEvent id change s.outbox = some s'.outbox := by
  rcases guarded_cases h with hfails | h
  · exact Or.inl hfails
  · split at h
    · next events hevents =>
      obtain ⟨rfl, rfl⟩ := Prod.mk.inj h
      exact Or.inr ⟨rfl, rfl, hevents⟩
    · obtain ⟨rfl, rfl⟩ := Prod.mk.inj h
      exact Or.inl ⟨⟨_, rfl⟩, rfl, rfl⟩

theorem changing_of_changeEvent {id : Uuid} {change : OutboxEvent → OutboxEvent}
    {events : List OutboxEvent} (herror : s.outboxError = none)
    (hevents : changeEvent id change s.outbox = some events) :
    s.changing id change = (.ok (), { s with outbox := events }) := by
  rw [changing, guarded_of_none .outbox herror]
  simp only [hevents]

theorem deletePublished_cases {cutoff : Instant} {r : Except StoreError Nat}
    (h : s.deletePublished cutoff = (r, s')) :
    (∃ error, r = .error error) ∧ s'.notifications = s.notifications ∧ s'.outbox = s.outbox ∨
      ∃ count, r = .ok count ∧ s'.notifications = s.notifications ∧
        s'.outbox = s.outbox.filter fun e => e.status != .published || cutoff ≤ e.updatedAt := by
  rcases guarded_cases h with hfails | h
  · exact Or.inl hfails
  · obtain ⟨rfl, rfl⟩ := Prod.mk.inj h
    exact Or.inr ⟨_, rfl, rfl, rfl⟩

theorem mem_findByStatus {status : Status} {limit : Nat} {n : Notification}
    (h : n ∈ s.findByStatus status limit) : n ∈ s.notifications ∧ n.status = status := by
  have hmem := List.mem_filter.mp (List.mem_mergeSort.mp (List.mem_of_mem_take h))
  exact ⟨hmem.1, by simpa using hmem.2⟩

end Store

theorem Bus.publish_cases {b b' : Bus} {topic : String} {key : Option String} {payload : Bytes}
    {now : Instant} {r : Except DeliveryError Unit}
    (h : b.publish topic key payload now = (r, b')) :
    (∃ error, r = .error error) ∧ b'.logs = b.logs ∧ b'.cursors = b.cursors ∨
      r = .ok () ∧ { b' with refusals := [] } =
        Bus.append { b with refusals := [] } topic key payload now := by
  unfold publish at h
  split at h
  · obtain ⟨rfl, rfl⟩ := Prod.mk.inj h
    exact Or.inl ⟨⟨_, rfl⟩, rfl, rfl⟩
  · obtain ⟨rfl, rfl⟩ := Prod.mk.inj h
    exact Or.inr ⟨rfl, rfl⟩

/-- Pruning does not look at the faults to come. -/
theorem Bus.books_prune {b b' : Bus} {topic : String} {cutoff : Instant} {dropped : Nat}
    (h : b.prune topic cutoff = (dropped, b')) :
    { b' with refusals := [] } = (Bus.prune { b with refusals := [] } topic cutoff).2 := by
  unfold prune at h ⊢
  split at h
  · next hlog =>
    obtain ⟨-, rfl⟩ := Prod.mk.inj h
    simp only [hlog]
  · next log hlog =>
    obtain ⟨-, rfl⟩ := Prod.mk.inj h
    simp only [hlog]
    rfl

/-! ## Calls -/

namespace World

variable {w w' : World}

/-- A call that is passed on to the store. -/
private theorem answer_store {α : Type} {x : Store.Result α} {r a : Except StoreError α}
    {s' : Store} (hx : x = (r, s'))
    (h : ((.done (w.withStore x).1, (w.withStore x).2) : Outcome (Except StoreError α) × World) =
      (.done a, w')) : a = r ∧ w' = { w with store := s' } := by
  subst hx
  obtain ⟨hdone, hworld⟩ := Prod.mk.inj h
  exact ⟨(Outcome.done.inj hdone).symm, hworld.symm⟩

private theorem books_withStore {s : Store} {rows : List Notification}
    {events : List OutboxEvent} (hrows : s.notifications = rows) (hevents : s.outbox = events) :
    ({ w with store := s } : World).books = { w.books with rows, events } := by
  subst hrows hevents
  rfl

theorem store_count (w : World) (ledger : Ledger) (what : Tally) :
    (w.count ledger what).store = w.store := by
  cases ledger <;> rfl

theorem books_count (ledger : Ledger) (what : Tally) : (w.count ledger what).books = w.books := by
  cases ledger <;> rfl

/-- Calling a channel changes only what is known of channels. -/
theorem sendAndWait_eq (w : World) (place : Nat) (n : Notification) :
    ∃ channels journal millis, (w.sendAndWait place n).2 =
      { w with channels, journal, channelMillis := millis } := by
  have hstart : ∃ channels journal, (w.startCall place n).2 = { w with channels, journal } := by
    unfold startCall
    split
    · exact ⟨w.channels, w.journal, rfl⟩
    · split
      · exact ⟨w.channels, w.journal, rfl⟩
      · exact ⟨_, _, rfl⟩
  have hfinish (call : PendingCall) (ending : Ending) (w : World) :
      ∃ channels, w.finishCall call ending = { w with channels } := by
    unfold finishCall
    split
    · exact ⟨_, rfl⟩
    · exact ⟨w.channels, rfl⟩
  obtain ⟨channels, journal, hstart⟩ := hstart
  unfold sendAndWait
  dsimp only
  rw [hstart]
  split
  · exact ⟨channels, journal, w.channelMillis, rfl⟩
  · next due ending _ =>
    obtain ⟨channels', hfinish⟩ := hfinish (w.startCall place n).1 ending
      { w with channels, journal, channelMillis := max w.channelMillis due }
    refine ⟨channels', journal, max w.channelMillis due, ?_⟩
    cases ending with
    | returned result => exact hfinish
    | brokenOff text => exact hfinish

theorem books_sendAndWait (w : World) (place : Nat) (n : Notification) :
    (w.sendAndWait place n).2.books = w.books := by
  obtain ⟨channels, journal, millis, heq⟩ := w.sendAndWait_eq place n
  rw [heq]
  rfl

/-- Channels know nothing of the store, the bus and the counts. -/
theorem sendAndWait_with (w : World) (store : Store) (bus : Bus) (pipelineStats loopStats : Stats)
    (place : Nat) (n : Notification) :
    sendAndWait { w with store, bus, pipelineStats, loopStats } place n =
      ((w.sendAndWait place n).1,
        { (w.sendAndWait place n).2 with store, bus, pipelineStats, loopStats }) := by
  have hstart : startCall { w with store, bus, pipelineStats, loopStats } place n =
      ((w.startCall place n).1,
        { (w.startCall place n).2 with store, bus, pipelineStats, loopStats }) := by
    unfold startCall
    dsimp only
    cases w.channels[place]? with
    | none => rfl
    | some channel =>
        have hnow : now { w with store, bus, pipelineStats, loopStats } = w.now := rfl
        dsimp only
        rw [hnow]
        rcases channel.start n w.now with ⟨_ | _, _⟩ <;> rfl
  unfold sendAndWait
  rw [hstart]
  rcases w.startCall place n with ⟨⟨channel, counted, _ | ⟨due, ending⟩⟩, w'⟩
  · rfl
  · cases counted <;> cases ending <;> rfl

theorem effect_of_answer {c : Call} {a : c.Answer} (h : w.answer c = (.done a, w')) :
    w.books.Effect c a w'.books := by
  cases c with
  | now | lock _ | unlock _ | findByIds _ | findByKey _ | note _ =>
      obtain ⟨-, rfl⟩ := Prod.mk.inj h
      exact .passes trivial
  | jitter bound =>
      obtain ⟨-, rfl⟩ := Prod.mk.inj h
      exact .passes trivial
  | acquire key =>
      obtain ⟨-, rfl⟩ := Prod.mk.inj h
      exact .passes trivial
  | tally ledger what =>
      obtain ⟨-, rfl⟩ := Prod.mk.inj h
      rw [books_count]
      exact .passes trivial
  | newId =>
      obtain ⟨hid, rfl⟩ := Prod.mk.inj h
      obtain rfl := Outcome.done.inj hid
      exact .draws
  | findById id =>
      obtain ⟨hfound, rfl⟩ := Prod.mk.inj h
      obtain rfl := Outcome.done.inj hfound
      exact .finds
  | findByStatus status limit =>
      obtain ⟨hfound, rfl⟩ := Prod.mk.inj h
      obtain rfl := Outcome.done.inj hfound
      exact .lists fun n hn => Store.mem_findByStatus hn
  | save n =>
      rcases hsave : w.store.save n with ⟨r, s'⟩
      obtain ⟨rfl, rfl⟩ := answer_store hsave h
      rcases Store.save_cases hsave with ⟨hfails, hrows, hevents⟩ | ⟨rfl, hrows, hevents⟩
      · rw [books_withStore hrows hevents]
        exact .fails hfails (Nat.le_refl w.serial)
      · rw [books_withStore hrows hevents]
        exact .saves
  | saveWithOutbox n topic =>
      rcases hsave : w.store.saveWithOutbox n topic (w.ids.draw w.serial) w.now with ⟨r, s'⟩
      obtain ⟨rfl, rfl⟩ := answer_store (w := w.takeId.2) hsave h
      rcases Store.saveWithOutbox_cases hsave with
        ⟨hfails, hrows, hevents⟩ | ⟨rfl, hrows, hevents⟩
      · rw [books_withStore hrows hevents]
        exact .fails hfails (Nat.le_succ w.serial)
      · rw [books_withStore hrows hevents]
        exact .promises
  | dueEvents now limit =>
      rcases hdue : w.store.dueEvents now limit with ⟨r, s'⟩
      obtain ⟨rfl, rfl⟩ := answer_store hdue h
      rcases Store.dueEvents_cases hdue with
        ⟨hfails, hrows, hevents⟩ | ⟨due, rfl, rfl, hmem, hnodup⟩
      · rw [books_withStore hrows hevents]
        exact .fails hfails (Nat.le_refl w.serial)
      · exact .fetches hmem hnodup
  | markPublished id =>
      rcases hmark : w.store.markPublished id w.now with ⟨r, s'⟩
      obtain ⟨rfl, rfl⟩ := answer_store hmark h
      rcases Store.changing_cases hmark with ⟨hfails, hrows, hevents⟩ | ⟨rfl, hrows, hevents⟩
      · rw [books_withStore hrows hevents]
        exact .fails hfails (Nat.le_refl w.serial)
      · rw [books_withStore hrows rfl]
        exact .marks hevents
  | markFailed id error next =>
      rcases hmark : w.store.markFailed id error next w.now with ⟨r, s'⟩
      obtain ⟨rfl, rfl⟩ := answer_store hmark h
      rcases Store.changing_cases hmark with ⟨hfails, hrows, hevents⟩ | ⟨rfl, hrows, hevents⟩
      · rw [books_withStore hrows hevents]
        exact .fails hfails (Nat.le_refl w.serial)
      · rw [books_withStore hrows rfl]
        exact .postpones hevents
  | deletePublished cutoff =>
      rcases hdelete : w.store.deletePublished cutoff with ⟨r, s'⟩
      obtain ⟨rfl, rfl⟩ := answer_store hdelete h
      rcases Store.deletePublished_cases hdelete with
        ⟨hfails, hrows, hevents⟩ | ⟨count, rfl, hrows, hevents⟩
      · rw [books_withStore hrows hevents]
        exact .fails hfails (Nat.le_refl w.serial)
      · rw [books_withStore hrows hevents]
        exact .deletes
  | publish topic key payload =>
      rcases hpublish : w.bus.publish topic key payload w.now with ⟨r, bus⟩
      simp only [answer, hpublish] at h
      obtain ⟨hdone, rfl⟩ := Prod.mk.inj h
      obtain rfl := Outcome.done.inj hdone
      rcases Bus.publish_cases hpublish with ⟨hfails, hlogs, hcursors⟩ | ⟨rfl, hbus⟩
      · have hbooks : ({ w with bus } : World).books = w.books := by
          simp only [books, hlogs, hcursors]
        rw [hbooks]
        exact .fails hfails (Nat.le_refl w.serial)
      · have hbooks : ({ w with bus } : World).books =
            { w.books with bus := w.books.bus.append topic key payload w.now } := by
          simp only [books, hbus]
        rw [hbooks]
        exact .publishes
  | poll sub max =>
      obtain ⟨hdone, rfl⟩ := Prod.mk.inj h
      obtain rfl := Outcome.done.inj hdone
      exact .polls
  | commit sub offset =>
      obtain ⟨hdone, rfl⟩ := Prod.mk.inj h
      obtain rfl := Outcome.done.inj hdone
      exact .commits
  | prune topic cutoff =>
      rcases hprune : w.bus.prune topic cutoff with ⟨dropped, bus⟩
      simp only [answer, hprune] at h
      obtain ⟨hdone, rfl⟩ := Prod.mk.inj h
      obtain rfl := Outcome.done.inj hdone
      have hbooks : ({ w with bus } : World).books =
          { w.books with bus := (w.books.bus.prune topic cutoff).2 } := by
        simp only [books, Bus.books_prune hprune]
      rw [hbooks]
      exact .prunes
  | send place n =>
      have hbooks := w.books_sendAndWait place n
      rw [show w' = (w.sendAndWait place n).2 from (congrArg Prod.snd h).symm, hbooks]
      exact .sends

theorem Answers.effect {c : Call} {a : c.Answer} (h : w.Answers c a w') :
    w.books.Effect c a w'.books := by
  cases h with
  | serves h => exact effect_of_answer h
  | fails h => exact .fails h (Nat.le_refl _)
  | varies h =>
      refine .passes ?_
      cases c with
      | now | jitter _ | acquire _ => exact trivial
      | _ => exact h.elim
  | replies h =>
      rw [h]
      exact .sends

end World
end Courier
