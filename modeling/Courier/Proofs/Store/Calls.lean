import Courier.Proofs.Runs.Books
import Mathlib.Data.List.Induction

/-!
The store under any sequence of calls. `Store.Changes` lists all that a call can do to the tables;
what a run of calls keeps is derived from it: rows have ids and keys of their own, every event
promises a row, events only move on, and none goes before it has been published.
-/

namespace Courier

/-- A call to a store. The moment and the id that a call draws are told with it. -/
inductive StoreCall where
  | save (n : Notification)
  | saveWithOutbox (n : Notification) (topic : String) (eventId : Uuid) (now : Instant)
  | findById (id : Uuid)
  | findByIds (ids : List Uuid)
  | findByKey (key : String)
  | findByStatus (status : Status) (limit : Nat)
  | dueEvents (now : Instant) (limit : Nat)
  | markPublished (id : Uuid) (now : Instant)
  | markFailed (id : Uuid) (error : String) (next now : Instant)
  | deletePublished (cutoff : Instant)
  /-- The next write, or the next use of the outbox, is made to fail. -/
  | failWrite (message : String)
  | failOutbox (message : String)

namespace StoreCall

/-- The id drawn for a new event. -/
def eventId? : StoreCall → Option Uuid
  | .saveWithOutbox _ _ eventId _ => some eventId
  | _ => none

def drawn (calls : List StoreCall) : List Uuid := calls.filterMap eventId?

theorem drawn_append (calls later : List StoreCall) :
    drawn (calls ++ later) = drawn calls ++ drawn later :=
  List.filterMap_append

theorem drawn_singleton (call : StoreCall) : drawn [call] = call.eventId?.toList := by
  cases call <;> rfl

end StoreCall

namespace Store

/-- Whether an operation succeeded, and the store after it. -/
def Result.ended {α : Type} (r : Result α) : Result Unit := (r.1.map fun _ => (), r.2)

def perform (s : Store) : StoreCall → Result Unit
  | .save n => s.save n
  | .saveWithOutbox n topic eventId now => (s.saveWithOutbox n topic eventId now).ended
  | .findById _ | .findByIds _ | .findByKey _ | .findByStatus _ _ => (.ok (), s)
  | .dueEvents now limit => (s.dueEvents now limit).ended
  | .markPublished id now => s.markPublished id now
  | .markFailed id error next now => s.markFailed id error next now
  | .deletePublished cutoff => (s.deletePublished cutoff).ended
  | .failWrite message => (.ok (), { s with saveError := some message })
  | .failOutbox message => (.ok (), { s with outboxError := some message })

/-- The store after some calls, the failed ones included. -/
def after (s : Store) (calls : List StoreCall) : Store :=
  calls.foldl (fun s call => (s.perform call).2) s

variable {s s' : Store} {call : StoreCall} {calls : List StoreCall}

theorem after_append (s : Store) (calls later : List StoreCall) :
    s.after (calls ++ later) = (s.after calls).after later :=
  List.foldl_append

theorem after_concat (s : Store) (calls : List StoreCall) (call : StoreCall) :
    s.after (calls ++ [call]) = ((s.after calls).perform call).2 :=
  after_append s calls [call]

end Store

/-! ## What a call can do -/

/-- An event later on: about the same promise, still published if it was, with no fewer attempts. -/
structure OutboxEvent.Follows (e e' : OutboxEvent) : Prop where
  id : e'.id = e.id
  notificationId : e'.notificationId = e.notificationId
  topic : e'.topic = e.topic
  createdAt : e'.createdAt = e.createdAt
  published : e.status = .published → e'.status = .published
  attempts : e.attempts ≤ e'.attempts

namespace OutboxEvent

theorem Follows.refl (e : OutboxEvent) : e.Follows e :=
  ⟨rfl, rfl, rfl, rfl, fun h => h, UInt32.le_refl _⟩

theorem Follows.trans {e e' e'' : OutboxEvent} (h : e.Follows e') (h' : e'.Follows e'') :
    e.Follows e'' where
  id := h'.id.trans h.id
  notificationId := h'.notificationId.trans h.notificationId
  topic := h'.topic.trans h.topic
  createdAt := h'.createdAt.trans h.createdAt
  published := fun hpublished => h'.published (h.published hpublished)
  attempts := UInt32.le_trans h.attempts h'.attempts

theorem follows_markPublished (e : OutboxEvent) (now : Instant) :
    e.Follows (e.markPublished now) :=
  ⟨rfl, rfl, rfl, rfl, fun _ => rfl, UInt32.le_refl _⟩

theorem follows_markFailed (e : OutboxEvent) (error : String) (next now : Instant) :
    e.Follows (e.markFailed error next now) := by
  refine ⟨rfl, rfl, rfl, rfl, fun h => h, ?_⟩
  have hbound := e.attempts.toNat_lt
  have hcount := toNat_countUp e.attempts
  exact UInt32.le_iff_toNat_le.mpr (by rw [markFailed, hcount]; omega)

end OutboxEvent

namespace Store

/-- What a call does to the tables. -/
inductive Changes (s : Store) : StoreCall → Store → Prop
  | passes {call s'} (hrows : s'.notifications = s.notifications) (hevents : s'.outbox = s.outbox) :
      Changes s call s'
  | saves {n s'} (hfree : s.keyTaken n = false)
      (hrows : s'.notifications = putInto n s.notifications) (hevents : s'.outbox = s.outbox) :
      Changes s (.save n) s'
  | promises {n topic eventId now s'} (hfree : s.keyTaken n = false)
      (hrows : s'.notifications = putInto n s.notifications)
      (hevents : s'.outbox = s.outbox ++ [.pending eventId n.id topic now]) :
      Changes s (.saveWithOutbox n topic eventId now) s'
  | moves {call id change s'} (hfollows : ∀ e : OutboxEvent, e.Follows (change e))
      (hrows : s'.notifications = s.notifications)
      (hevents : changeEvent id change s.outbox = some s'.outbox) :
      Changes s call s'
  | deletes {cutoff s'} (hrows : s'.notifications = s.notifications)
      (hevents : s'.outbox =
        s.outbox.filter fun e => e.status != .published || cutoff ≤ e.updatedAt) :
      Changes s (.deletePublished cutoff) s'

variable {s s' : Store} {call : StoreCall} {calls : List StoreCall} {r : Except StoreError Unit}

private theorem of_ended {α : Type} {x : Result α} (h : x.ended = (r, s')) :
    ∃ result, x = (result, s') ∧ r = result.map fun _ => () := by
  obtain ⟨rfl, rfl⟩ := Prod.mk.inj h
  exact ⟨x.1, rfl, rfl⟩

/-- A call that fails leaves the tables as they were; one that succeeds is one of `Changes`. -/
theorem perform_cases (h : s.perform call = (r, s')) :
    (∃ error, r = .error error) ∧ s'.notifications = s.notifications ∧ s'.outbox = s.outbox ∨
      r = .ok () ∧ s.Changes call s' := by
  cases call with
  | save n =>
      rcases save_cases h with hfails | ⟨rfl, hrows, hevents⟩
      · exact Or.inl hfails
      · have hfree : s.keyTaken n = false := keyTaken_of_save (congrArg Prod.fst h)
        exact Or.inr ⟨rfl, .saves hfree hrows hevents⟩
  | saveWithOutbox n topic eventId now =>
      obtain ⟨result, hsave, rfl⟩ := of_ended h
      rcases saveWithOutbox_cases hsave with ⟨⟨error, rfl⟩, hsame⟩ | ⟨rfl, hrows, hevents⟩
      · exact Or.inl ⟨⟨error, rfl⟩, hsame⟩
      · have hfree : s.keyTaken n = false :=
          keyTaken_of_saveWithOutbox (congrArg Prod.fst hsave)
        exact Or.inr ⟨rfl, .promises hfree hrows hevents⟩
  | findById _ | findByIds _ | findByKey _ | findByStatus _ _ | failWrite _ | failOutbox _ =>
      obtain ⟨rfl, rfl⟩ := Prod.mk.inj h
      exact Or.inr ⟨rfl, .passes rfl rfl⟩
  | dueEvents now limit =>
      obtain ⟨result, hdue, rfl⟩ := of_ended h
      rcases dueEvents_cases hdue with ⟨⟨error, rfl⟩, hsame⟩ | ⟨due, rfl, rfl, -⟩
      · exact Or.inl ⟨⟨error, rfl⟩, hsame⟩
      · exact Or.inr ⟨rfl, .passes rfl rfl⟩
  | markPublished id now =>
      rcases changing_cases h with hfails | ⟨rfl, hrows, hevents⟩
      · exact Or.inl hfails
      · exact Or.inr ⟨rfl, .moves (·.follows_markPublished now) hrows hevents⟩
  | markFailed id error next now =>
      rcases changing_cases h with hfails | ⟨rfl, hrows, hevents⟩
      · exact Or.inl hfails
      · exact Or.inr ⟨rfl, .moves (·.follows_markFailed error next now) hrows hevents⟩
  | deletePublished cutoff =>
      obtain ⟨result, hdelete, rfl⟩ := of_ended h
      rcases deletePublished_cases hdelete with ⟨⟨error, rfl⟩, hsame⟩ | ⟨count, rfl, hrows, hevents⟩
      · exact Or.inl ⟨⟨error, rfl⟩, hsame⟩
      · exact Or.inr ⟨rfl, .deletes hrows hevents⟩

theorem changes_perform (s : Store) (call : StoreCall) : s.Changes call (s.perform call).2 := by
  rcases hperform : s.perform call with ⟨r, s'⟩
  rcases perform_cases hperform with ⟨-, hrows, hevents⟩ | ⟨-, hchanges⟩
  · exact .passes hrows hevents
  · exact hchanges

/-! ## Rows -/

/-- There is a row with the id. -/
def Holds (s : Store) (id : Uuid) : Prop := ∃ n ∈ s.notifications, n.id = id

/-- Every promise is about a row. -/
def Refers (s : Store) : Prop := ∀ e ∈ s.outbox, s.Holds e.notificationId

theorem exists_mem_putInto {n : Notification} {rows : List Notification} {id : Uuid}
    (h : ∃ m ∈ rows, m.id = id) : ∃ m ∈ putInto n rows, m.id = id := by
  induction rows with
  | nil => exact absurd h (by simp)
  | cons m rows ih =>
      obtain ⟨x, hx, rfl⟩ := h
      rw [putInto]
      split
      · next hid =>
        rcases List.mem_cons.mp hx with rfl | hx
        · exact ⟨n, List.mem_cons_self, hid.symm⟩
        · exact ⟨x, List.mem_cons_of_mem n hx, rfl⟩
      · rcases List.mem_cons.mp hx with rfl | hx
        · exact ⟨x, List.mem_cons_self, rfl⟩
        · obtain ⟨y, hy, hid⟩ := ih ⟨x, hx, rfl⟩
          exact ⟨y, List.mem_cons_of_mem m hy, hid⟩

/-- A row with a key that no other row has. -/
theorem keys_putInto {n : Notification} {rows : List Notification}
    (hids : (rows.map (·.id)).Nodup) (hkeys : (rows.map (·.idempotencyKey)).Nodup)
    (hfree : ∀ m ∈ rows, m.idempotencyKey = n.idempotencyKey → m.id = n.id) :
    ((putInto n rows).map (·.idempotencyKey)).Nodup := by
  induction rows with
  | nil => simp [putInto]
  | cons m rows ih =>
      rw [List.map_cons, List.nodup_cons] at hids hkeys
      have hrest : ∀ x ∈ rows, x.idempotencyKey = n.idempotencyKey → x.id = n.id :=
        fun x hx => hfree x (List.mem_cons_of_mem m hx)
      rw [putInto]
      split
      · next hid =>
        rw [List.map_cons, List.nodup_cons]
        refine ⟨?_, hkeys.2⟩
        intro hmem
        obtain ⟨x, hx, hkey⟩ := List.mem_map.mp hmem
        exact hids.1 (List.mem_map.mpr ⟨x, hx, (hrest x hx hkey).trans hid.symm⟩)
      · next hid =>
        rw [List.map_cons, List.nodup_cons]
        refine ⟨?_, ih hids.2 hkeys.2 hrest⟩
        intro hmem
        obtain ⟨x, hx, hkey⟩ := List.mem_map.mp hmem
        rcases (mem_putInto hids.2).mp hx with rfl | ⟨hx, -⟩
        · exact hid (hfree m List.mem_cons_self hkey.symm)
        · exact hkeys.1 (List.mem_map.mpr ⟨x, hx, hkey⟩)

theorem eq_of_keyTaken {n : Notification} (hfree : s.keyTaken n = false) :
    ∀ m ∈ s.notifications, m.idempotencyKey = n.idempotencyKey → m.id = n.id := by
  intro m hm hkey
  have hother := List.any_eq_false.mp hfree m hm
  simpa [hkey] using hother

/-- Rows are never removed. -/
theorem Changes.holds (h : s.Changes call s') {id : Uuid} (hid : s.Holds id) : s'.Holds id := by
  unfold Holds at hid ⊢
  cases h with
  | passes hrows _ | moves _ hrows _ | deletes hrows _ => rwa [hrows]
  | saves _ hrows _ | promises _ hrows _ =>
      rw [hrows]
      exact exists_mem_putInto hid

/-! ## Events -/

section Events

variable {id : Uuid} {change : OutboxEvent → OutboxEvent} {events events' : List OutboxEvent}
  {e : OutboxEvent}

theorem of_mem_changeEvent (h : changeEvent id change events = some events') (he : e ∈ events') :
    e ∈ events ∨ ∃ e₀ ∈ events, e = change e₀ := by
  induction events generalizing events' with
  | nil => exact nomatch h
  | cons e₁ events ih =>
      rw [changeEvent] at h
      split at h
      · obtain rfl := Option.some.inj h
        rcases List.mem_cons.mp he with rfl | he
        · exact Or.inr ⟨e₁, List.mem_cons_self, rfl⟩
        · exact Or.inl (List.mem_cons_of_mem _ he)
      · obtain ⟨rest, hrest, rfl⟩ := Option.map_eq_some_iff.mp h
        rcases List.mem_cons.mp he with rfl | he
        · exact Or.inl List.mem_cons_self
        · rcases ih hrest he with he | ⟨e₀, he₀, rfl⟩
          · exact Or.inl (List.mem_cons_of_mem _ he)
          · exact Or.inr ⟨e₀, List.mem_cons_of_mem _ he₀, rfl⟩

theorem mem_changeEvent_of_mem (h : changeEvent id change events = some events')
    (he : e ∈ events) : e ∈ events' ∨ change e ∈ events' := by
  induction events generalizing events' with
  | nil => exact nomatch h
  | cons e₁ events ih =>
      rw [changeEvent] at h
      split at h
      · obtain rfl := Option.some.inj h
        rcases List.mem_cons.mp he with rfl | he
        · exact Or.inr List.mem_cons_self
        · exact Or.inl (List.mem_cons_of_mem _ he)
      · obtain ⟨rest, hrest, rfl⟩ := Option.map_eq_some_iff.mp h
        rcases List.mem_cons.mp he with rfl | he
        · exact Or.inl List.mem_cons_self
        · exact (ih hrest he).imp (List.mem_cons_of_mem _) (List.mem_cons_of_mem _)

end Events

/-- An event was there before, or it is new and promises a row. -/
theorem Changes.back (h : s.Changes call s') {e' : OutboxEvent} (he' : e' ∈ s'.outbox) :
    (∃ e ∈ s.outbox, e.Follows e') ∨ call.eventId? = some e'.id ∧ s'.Holds e'.notificationId := by
  have hstays (h : e' ∈ s.outbox) : ∃ e ∈ s.outbox, e.Follows e' := ⟨e', h, .refl e'⟩
  cases h with
  | passes _ hevents | saves _ _ hevents =>
      rw [hevents] at he'
      exact Or.inl (hstays he')
  | promises _ hrows hevents =>
      rw [hevents] at he'
      rcases List.mem_append.mp he' with he' | he'
      · exact Or.inl (hstays he')
      · obtain rfl := List.mem_singleton.mp he'
        refine Or.inr ⟨rfl, ?_⟩
        rw [Holds, hrows]
        exact ⟨_, mem_putInto_self _ _, rfl⟩
  | moves hfollows _ hevents =>
      rcases of_mem_changeEvent hevents he' with he' | ⟨e, he, rfl⟩
      · exact Or.inl (hstays he')
      · exact Or.inl ⟨e, he, hfollows e⟩
  | deletes _ hevents =>
      rw [hevents] at he'
      exact Or.inl (hstays (List.mem_of_mem_filter he'))

/-- An event stays, unless it has been published and is deleted. -/
theorem Changes.forth (h : s.Changes call s') {e : OutboxEvent} (he : e ∈ s.outbox) :
    (∃ e' ∈ s'.outbox, e.Follows e') ∨
      ∃ cutoff, call = .deletePublished cutoff ∧ e.status = .published ∧ e.updatedAt < cutoff := by
  have hstays (h : e ∈ s'.outbox) : ∃ e' ∈ s'.outbox, e.Follows e' := ⟨e, h, .refl e⟩
  cases h with
  | passes _ hevents | saves _ _ hevents => exact Or.inl (hstays (hevents ▸ he))
  | promises _ _ hevents => exact Or.inl (hstays (hevents ▸ List.mem_append_left _ he))
  | moves hfollows _ hevents =>
      rcases mem_changeEvent_of_mem hevents he with he | he
      · exact Or.inl (hstays he)
      · exact Or.inl ⟨_, he, hfollows e⟩
  | @deletes cutoff _ _ hevents =>
      by_cases hkept : (e.status != .published || decide (cutoff ≤ e.updatedAt)) = true
      · exact Or.inl (hstays (hevents ▸ List.mem_filter.mpr ⟨he, hkept⟩))
      · simp only [Bool.or_eq_true, bne_iff_ne, decide_eq_true_eq, not_or, ne_eq, not_not] at hkept
        exact Or.inr ⟨cutoff, rfl, hkept.1, Int.not_le.mp hkept.2⟩

/-- Every promise made or kept is about a row. -/
theorem Changes.refers (h : s.Changes call s') (hs : s.Refers) : s'.Refers := by
  intro e' he'
  rcases h.back he' with ⟨e, he, hfollows⟩ | ⟨-, hholds⟩
  · rw [hfollows.notificationId]
    exact h.holds (hs e he)
  · exact hholds

/-- Ids of events come only from calls, and only at the end. -/
theorem Changes.ids_sublist (h : s.Changes call s') :
    (s'.outbox.map (·.id)).Sublist (s.outbox.map (·.id) ++ call.eventId?.toList) := by
  cases h with
  | passes _ hevents | saves _ _ hevents =>
      rw [hevents]
      exact List.sublist_append_left _ _
  | promises _ _ hevents =>
      rw [hevents, List.map_append]
      exact .refl _
  | moves hfollows _ hevents =>
      rw [ids_changeEvent (fun e => (hfollows e).id) hevents]
      exact List.sublist_append_left _ _
  | deletes _ hevents =>
      rw [hevents]
      exact (List.filter_sublist.map _).trans (List.sublist_append_left _ _)

/-! ## Runs of calls -/

theorem ids_after_sublist (s : Store) (calls : List StoreCall) :
    ((s.after calls).outbox.map (·.id)).Sublist (s.outbox.map (·.id) ++ StoreCall.drawn calls) := by
  induction calls using List.reverseRecOn with
  | nil =>
      rw [StoreCall.drawn, List.filterMap_nil, List.append_nil]
      exact .refl _
  | append_singleton calls call ih =>
      rw [after_concat, StoreCall.drawn_append, StoreCall.drawn_singleton, ← List.append_assoc]
      exact (changes_perform _ call).ids_sublist.trans (ih.append_right _)

theorem holds_after {id : Uuid} (hid : s.Holds id) (calls : List StoreCall) :
    (s.after calls).Holds id := by
  induction calls using List.reverseRecOn with
  | nil => exact hid
  | append_singleton calls call ih =>
      rw [after_concat]
      exact (changes_perform _ call).holds ih

theorem Refers.after (hs : s.Refers) (calls : List StoreCall) : (s.after calls).Refers := by
  induction calls using List.reverseRecOn with
  | nil => exact hs
  | append_singleton calls call ih =>
      rw [after_concat]
      exact (changes_perform _ call).refers ih

/-- The tables agree: ids and keys are unique, and every event promises a row. -/
structure Coherent (s : Store) : Prop where
  ids : (s.notifications.map (·.id)).Nodup
  keys : (s.notifications.map (·.idempotencyKey)).Nodup
  refers : s.Refers
  eventIds : (s.outbox.map (·.id)).Nodup

theorem coherent_empty : ({} : Store).Coherent where
  ids := List.nodup_nil
  keys := List.nodup_nil
  refers := fun _ he => absurd he List.not_mem_nil
  eventIds := List.nodup_nil

theorem Changes.coherent (h : s.Changes call s') (hs : s.Coherent)
    (hevents : (s'.outbox.map (·.id)).Nodup) : s'.Coherent where
  ids := by
    cases h with
    | passes hrows _ | moves _ hrows _ | deletes hrows _ =>
        rw [hrows]
        exact hs.ids
    | saves _ hrows _ | promises _ hrows _ =>
        rw [hrows]
        exact nodup_putInto _ hs.ids
  keys := by
    cases h with
    | passes hrows _ | moves _ hrows _ | deletes hrows _ =>
        rw [hrows]
        exact hs.keys
    | saves hfree hrows _ | promises hfree hrows _ =>
        rw [hrows]
        exact keys_putInto hs.ids hs.keys (eq_of_keyTaken hfree)
  refers := h.refers hs.refers
  eventIds := hevents

/-- The ids drawn for new events are new, and each is drawn once. -/
def Fresh (s : Store) (calls : List StoreCall) : Prop :=
  (s.outbox.map (·.id) ++ StoreCall.drawn calls).Nodup

theorem Fresh.of_append {later : List StoreCall} (h : s.Fresh (calls ++ later)) :
    s.Fresh calls := by
  rw [Fresh, StoreCall.drawn_append, ← List.append_assoc] at h
  exact (List.sublist_append_left _ _).nodup h

theorem Fresh.nodup_after (h : s.Fresh calls) : ((s.after calls).outbox.map (·.id)).Nodup :=
  (ids_after_sublist s calls).nodup h

theorem Coherent.after (hs : s.Coherent) (hfresh : s.Fresh calls) : (s.after calls).Coherent := by
  induction calls using List.reverseRecOn with
  | nil => exact hs
  | append_singleton calls call ih =>
      have hnodup := hfresh.nodup_after
      rw [after_concat] at hnodup ⊢
      exact (changes_perform _ call).coherent (ih hfresh.of_append) hnodup

/-- An event that is there after some calls was there before them, or its id was drawn by one. -/
theorem back_after {e' : OutboxEvent} (he' : e' ∈ (s.after calls).outbox) :
    (∃ e ∈ s.outbox, e.Follows e') ∨ e'.id ∈ StoreCall.drawn calls := by
  induction calls using List.reverseRecOn generalizing e' with
  | nil => exact Or.inl ⟨e', he', .refl e'⟩
  | append_singleton calls call ih =>
      rw [after_concat] at he'
      rw [StoreCall.drawn_append, List.mem_append]
      rcases (changes_perform _ call).back he' with ⟨e₁, he₁, hfollows⟩ | ⟨hnew, -⟩
      · rcases ih he₁ with ⟨e, he, hbefore⟩ | hdrawn
        · exact Or.inl ⟨e, he, hbefore.trans hfollows⟩
        · exact Or.inr (Or.inl (hfollows.id ▸ hdrawn))
      · rw [StoreCall.drawn_singleton, hnew]
        exact Or.inr (Or.inr (List.mem_singleton_self _))

/-- The id of an event is not drawn again, not even once the event has been deleted. -/
theorem Fresh.follows {later : List StoreCall} (hfresh : s.Fresh (calls ++ later))
    {e e' : OutboxEvent} (he : e ∈ (s.after calls).outbox)
    (he' : e' ∈ ((s.after calls).after later).outbox) (hid : e'.id = e.id) : e.Follows e' := by
  rcases back_after he' with ⟨e₀, he₀, hfollows⟩ | hagain
  · have hnodup := hfresh.of_append.nodup_after
    obtain rfl := List.inj_on_of_nodup_map hnodup he₀ he (hfollows.id.symm.trans hid)
    exact hfollows
  · rw [Fresh, StoreCall.drawn_append, ← List.append_assoc] at hfresh
    have hthere := (ids_after_sublist s calls).mem (List.mem_map_of_mem he)
    exact absurd (hid ▸ hagain) (List.disjoint_of_nodup_append hfresh hthere)

/-- One of the calls deletes the event, which has been published by then. -/
def Deletes (s : Store) (calls : List StoreCall) (e : OutboxEvent) : Prop :=
  ∃ earlier cutoff later, calls = earlier ++ .deletePublished cutoff :: later ∧
    ∃ e' ∈ (s.after earlier).outbox, e.Follows e' ∧ e'.status = .published ∧ e'.updatedAt < cutoff

theorem forth_after {e : OutboxEvent} (he : e ∈ s.outbox) (calls : List StoreCall) :
    (∃ e' ∈ (s.after calls).outbox, e.Follows e') ∨ s.Deletes calls e := by
  induction calls using List.reverseRecOn with
  | nil => exact Or.inl ⟨e, he, .refl e⟩
  | append_singleton calls call ih =>
      rw [after_concat]
      rcases ih with ⟨e₁, he₁, hfollows⟩ | ⟨earlier, cutoff, later, rfl, hdeleted⟩
      · rcases (changes_perform _ call).forth he₁ with ⟨e', he', hnext⟩ | ⟨cutoff, rfl, hdeleted⟩
        · exact Or.inl ⟨e', he', hfollows.trans hnext⟩
        · exact Or.inr ⟨calls, cutoff, [], rfl, e₁, he₁, hfollows, hdeleted⟩
      · refine Or.inr ⟨earlier, cutoff, later ++ [call], ?_, hdeleted⟩
        rw [List.append_assoc, List.cons_append]

end Store

end Courier
