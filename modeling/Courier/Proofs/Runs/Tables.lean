import Courier.Bus
import Courier.Store
import Mathlib.Data.List.Nodup
import Mathlib.Tactic.Common

/-!
Tables of the store and the bus under their operations: what a row put in its place, an event
changed, a record appended, a cursor moved and a log pruned leave as it was.
-/

namespace Courier

/-! ## Rows -/

namespace Store

variable {n x y : Notification} {rows : List Notification}

theorem eq_of_id_eq (hnodup : (rows.map (·.id)).Nodup) (hx : x ∈ rows) (hy : y ∈ rows)
    (h : x.id = y.id) : x = y :=
  List.inj_on_of_nodup_map hnodup hx hy h

theorem mem_putInto_self (n : Notification) (rows : List Notification) : n ∈ putInto n rows := by
  induction rows with
  | nil => exact List.mem_singleton_self n
  | cons m rows ih =>
      rw [putInto]
      split
      · exact List.mem_cons_self
      · exact List.mem_cons_of_mem m ih

/-- In the place of a row stands the row put there; the others stay. -/
theorem mem_putInto (hnodup : (rows.map (·.id)).Nodup) :
    x ∈ putInto n rows ↔ x = n ∨ x ∈ rows ∧ x.id ≠ n.id := by
  induction rows with
  | nil => simp [putInto]
  | cons m rows ih =>
      rw [List.map_cons, List.nodup_cons] at hnodup
      obtain ⟨hnew, hnodup⟩ := hnodup
      rw [putInto]
      split
      · next hid =>
        have hrest : x ∈ rows → x.id ≠ n.id := by
          intro hx heq
          exact hnew (List.mem_map.mpr ⟨x, hx, heq.trans hid.symm⟩)
        have hhead : x = m → x.id = n.id := fun hx => hx ▸ hid
        simp only [List.mem_cons]
        tauto
      · next hid =>
        have hhead : x = m → x.id ≠ n.id := fun hx => hx ▸ hid
        simp only [List.mem_cons, ih hnodup]
        tauto

theorem nodup_putInto (n : Notification) (hnodup : (rows.map (·.id)).Nodup) :
    ((putInto n rows).map (·.id)).Nodup := by
  induction rows with
  | nil => simp [putInto]
  | cons m rows ih =>
      have hall := hnodup
      rw [List.map_cons, List.nodup_cons] at hnodup
      obtain ⟨hnew, hnodup⟩ := hnodup
      rw [putInto]
      split
      · next hid =>
        rw [List.map_cons] at hall ⊢
        rwa [← hid]
      · next hid =>
        rw [List.map_cons, List.nodup_cons]
        refine ⟨?_, ih hnodup⟩
        intro hmem
        obtain ⟨x, hx, hxid⟩ := List.mem_map.mp hmem
        rcases (mem_putInto hnodup).mp hx with rfl | ⟨hx, -⟩
        · exact hid hxid.symm
        · exact hnew (List.mem_map.mpr ⟨x, hx, hxid⟩)

/-- A row with a new id comes at the end. -/
theorem putInto_of_not_mem (h : ∀ m ∈ rows, m.id ≠ n.id) : putInto n rows = rows ++ [n] := by
  induction rows with
  | nil => rfl
  | cons m rows ih =>
      rw [List.forall_mem_cons] at h
      rw [putInto, if_neg h.1, ih h.2, List.cons_append]

/-- What a row and the one put in its place have in common stays where it was. -/
theorem map_putInto {β : Type} {f : Notification → β} (hnodup : (rows.map (·.id)).Nodup)
    (hx : x ∈ rows) (hid : n.id = x.id) (hf : f n = f x) : (putInto n rows).map f = rows.map f := by
  induction rows with
  | nil => exact absurd hx List.not_mem_nil
  | cons m rows ih =>
      rw [putInto]
      split
      · next hm =>
        obtain rfl : m = x := eq_of_id_eq hnodup List.mem_cons_self hx (hm.trans hid)
        rw [List.map_cons, List.map_cons, hf]
      · next hm =>
        have hx : x ∈ rows := (List.mem_cons.mp hx).resolve_left fun heq => hm (heq ▸ hid.symm)
        rw [List.map_cons, List.map_cons, ih (List.nodup_cons.mp hnodup).2 hx]

/-- Apart from the row that is replaced, the rows before and after are the same. -/
theorem exists_perm_putInto (hnodup : (rows.map (·.id)).Nodup) (hx : x ∈ rows)
    (hid : n.id = x.id) :
    ∃ others, rows.Perm (x :: others) ∧ (putInto n rows).Perm (n :: others) := by
  induction rows with
  | nil => exact absurd hx List.not_mem_nil
  | cons m rows ih =>
      rw [putInto]
      split
      · next hm =>
        obtain rfl : m = x := eq_of_id_eq hnodup List.mem_cons_self hx (hm.trans hid)
        exact ⟨rows, .refl _, .refl _⟩
      · next hm =>
        have hx : x ∈ rows := (List.mem_cons.mp hx).resolve_left fun heq => hm (heq ▸ hid.symm)
        obtain ⟨others, hbefore, hafter⟩ := ih (List.nodup_cons.mp hnodup).2 hx
        refine ⟨m :: others, ?_, ?_⟩
        · exact (hbefore.cons m).trans (.swap x m others)
        · exact (hafter.cons m).trans (.swap n m others)

/-- A row whose key is its own can be written. -/
theorem keyTaken_eq_false {store : Store}
    (hkeys : (store.notifications.map (·.idempotencyKey)).Nodup)
    (hx : x ∈ store.notifications) (hid : n.id = x.id)
    (hkey : n.idempotencyKey = x.idempotencyKey) : store.keyTaken n = false := by
  simp only [keyTaken, List.any_eq_false, Bool.and_eq_true, beq_iff_eq, bne_iff_ne]
  rintro y hy ⟨hsame, hne⟩
  obtain rfl := List.inj_on_of_nodup_map hkeys hy hx (hsame.trans hkey)
  exact hne hid.symm

theorem find?_some {id : Uuid} (h : rows.find? (·.id == id) = some n) : n ∈ rows ∧ n.id = id :=
  ⟨List.mem_of_find?_eq_some h, by simpa using List.find?_some h⟩

theorem find?_none {id : Uuid} (h : rows.find? (·.id == id) = none) : ∀ n ∈ rows, n.id ≠ id := by
  intro n hn
  simpa using List.find?_eq_none.mp h n hn

/-- A row is what is found by its identifier. -/
theorem find?_of_mem (hnodup : (rows.map (·.id)).Nodup) (hx : x ∈ rows) :
    rows.find? (·.id == x.id) = some x := by
  cases h : rows.find? (·.id == x.id) with
  | none => exact absurd rfl (find?_none h x hx)
  | some y =>
      obtain ⟨hy, hid⟩ := find?_some h
      rw [eq_of_id_eq hnodup hy hx hid]

/-! ## Events -/

variable {id : Uuid} {change : OutboxEvent → OutboxEvent} {events events' : List OutboxEvent}

/-- A change of an event leaves all the others as they are. -/
theorem eq_map_of_changeEvent (hnodup : (events.map (·.id)).Nodup)
    (h : changeEvent id change events = some events') :
    events' = events.map fun e => if e.id = id then change e else e := by
  induction events generalizing events' with
  | nil => exact nomatch h
  | cons e₁ events ih =>
      rw [List.map_cons, List.nodup_cons] at hnodup
      obtain ⟨hnew, hnodup⟩ := hnodup
      rw [changeEvent] at h
      split at h
      · next hid =>
        obtain rfl := Option.some.inj h
        have hrest : events.map (fun e => if e.id = id then change e else e) = events := by
          refine (List.map_congr_left fun e he => if_neg fun heq => ?_).trans (List.map_id events)
          exact hnew (List.mem_map.mpr ⟨e, he, heq.trans hid.symm⟩)
        rw [List.map_cons, if_pos hid, hrest]
      · next hid =>
        obtain ⟨rest, hrest, rfl⟩ := Option.map_eq_some_iff.mp h
        rw [List.map_cons, if_neg hid, ih hnodup hrest]

theorem mem_changeEvent (hnodup : (events.map (·.id)).Nodup)
    (h : changeEvent id change events = some events') {e : OutboxEvent} :
    e ∈ events' ↔ (∃ e₀ ∈ events, e₀.id = id ∧ e = change e₀) ∨ e ∈ events ∧ e.id ≠ id := by
  rw [eq_map_of_changeEvent hnodup h, List.mem_map]
  constructor
  · rintro ⟨e₀, he₀, rfl⟩
    by_cases hid : e₀.id = id
    · rw [if_pos hid]
      exact Or.inl ⟨e₀, he₀, hid, rfl⟩
    · rw [if_neg hid]
      exact Or.inr ⟨he₀, hid⟩
  · rintro (⟨e₀, he₀, hid, rfl⟩ | ⟨he, hid⟩)
    · exact ⟨e₀, he₀, if_pos hid⟩
    · exact ⟨e, he, if_neg hid⟩

/-- An event that is there can be changed. -/
theorem exists_changeEvent (change : OutboxEvent → OutboxEvent) {e : OutboxEvent}
    (he : e ∈ events) :
    ∃ events', changeEvent e.id change events = some events' := by
  induction events with
  | nil => exact absurd he List.not_mem_nil
  | cons e₁ events ih =>
      rw [changeEvent]
      split
      · exact ⟨_, rfl⟩
      · next hne =>
        have hmem := (List.mem_cons.mp he).resolve_left fun heq => hne (heq ▸ rfl)
        obtain ⟨events', hevents⟩ := ih hmem
        exact ⟨e₁ :: events', by rw [hevents]; rfl⟩

/-- A change that keeps the id of an event keeps all ids in their places. -/
theorem ids_changeEvent (hkeeps : ∀ e, (change e).id = e.id)
    (h : changeEvent id change events = some events') :
    events'.map (·.id) = events.map (·.id) := by
  induction events generalizing events' with
  | nil => exact absurd h nofun
  | cons e₁ events ih =>
      rw [changeEvent] at h
      split at h
      · obtain rfl := Option.some.inj h
        rw [List.map_cons, List.map_cons, hkeeps]
      · cases hrest : changeEvent id change events with
        | none =>
            rw [hrest] at h
            exact absurd h nofun
        | some rest =>
            rw [hrest] at h
            obtain rfl := Option.some.inj h
            rw [List.map_cons, List.map_cons, ih hrest]

end Store

/-! ## Logs and cursors -/

namespace Bus

variable {κ β : Type} [DecidableEq κ] {b : Bus} {topic : String} {s : Subscription}

theorem lookup_set_self (key : κ) (value : β) (entries : List (κ × β)) :
    (set key value entries).lookup key = some value := by
  induction entries with
  | nil => simp [set]
  | cons entry entries ih =>
      obtain ⟨other, kept⟩ := entry
      rw [set]
      split
      · simp
      · next hne =>
        have hkey : (key == other) = false := by simpa using Ne.symm hne
        simp only [List.lookup_cons, hkey, ih]

theorem lookup_set_of_ne {key other : κ} (h : other ≠ key) (value : β) (entries : List (κ × β)) :
    (set key value entries).lookup other = entries.lookup other := by
  induction entries with
  | nil =>
      have hkey : (other == key) = false := by simpa using h
      simp only [set, List.lookup_cons, hkey]
  | cons entry entries ih =>
      obtain ⟨place, kept⟩ := entry
      rw [set]
      split
      · next heq =>
        subst heq
        have hkey : (other == place) = false := by simpa using h
        simp only [List.lookup_cons, hkey]
      · simp only [List.lookup_cons, ih]

theorem mem_set {key : κ} {value : β} {entries : List (κ × β)} {entry : κ × β}
    (h : entry ∈ set key value entries) : entry = (key, value) ∨ entry ∈ entries := by
  induction entries with
  | nil => exact Or.inl (List.mem_singleton.mp h)
  | cons first entries ih =>
      obtain ⟨other, kept⟩ := first
      rw [set] at h
      split at h
      · rcases List.mem_cons.mp h with rfl | h
        · exact Or.inl rfl
        · exact Or.inr (List.mem_cons_of_mem _ h)
      · rcases List.mem_cons.mp h with rfl | h
        · exact Or.inr List.mem_cons_self
        · exact (ih h).imp id (List.mem_cons_of_mem _)

theorem mem_set_of_ne {key other : κ} {value kept : β} {entries : List (κ × β)} (h : other ≠ key)
    (hmem : (other, kept) ∈ entries) : (other, kept) ∈ set key value entries := by
  induction entries with
  | nil => exact absurd hmem List.not_mem_nil
  | cons first entries ih =>
      obtain ⟨place, there⟩ := first
      rw [set]
      split
      · next heq =>
        have hne : (other, kept) ≠ (place, there) := fun hsame =>
          h ((Prod.mk.inj hsame).1.trans heq)
        exact List.mem_cons_of_mem _ ((List.mem_cons.mp hmem).resolve_left hne)
      · rcases List.mem_cons.mp hmem with hfirst | hrest
        · exact hfirst ▸ List.mem_cons_self
        · exact List.mem_cons_of_mem _ (ih hrest)

/-- A record at the end of a topic. -/
def append (b : Bus) (topic : String) (key : Option String) (payload : Bytes) (now : Instant) :
    Bus :=
  { b with logs := set topic ⟨(b.log topic).entries ++
      [⟨⟨topic, 0, (b.log topic).head, key, payload⟩, now⟩], (b.log topic).head + 1⟩ b.logs }

section Append

variable (b topic) (key : Option String) (payload : Bytes) (now : Instant)

theorem log_append_self :
    (b.append topic key payload now).log topic =
      ⟨(b.log topic).entries ++ [⟨⟨topic, 0, (b.log topic).head, key, payload⟩, now⟩],
        (b.log topic).head + 1⟩ := by
  simp only [append, log, lookup_set_self, Option.getD_some]

theorem records_append_self :
    (b.append topic key payload now).records topic =
      b.records topic ++ [⟨topic, 0, (b.log topic).head, key, payload⟩] := by
  simp only [records, log_append_self, List.map_append, List.map_cons, List.map_nil]

theorem head_append_self :
    ((b.append topic key payload now).log topic).head = (b.log topic).head + 1 := by
  rw [log_append_self]

theorem log_append_of_ne {other : String} (h : other ≠ topic) :
    (b.append topic key payload now).log other = b.log other := by
  simp only [append, log, lookup_set_of_ne h]

end Append

theorem cursor_commit_self (b : Bus) (s : Subscription) (offset : Int) :
    (b.commit s offset).cursor s = max (b.cursor s) (behind offset) := by
  simp only [commit, cursor, lookup_set_self, Option.getD_some]

theorem cursor_commit_of_ne {s other : Subscription} (h : other ≠ s) (b : Bus) (offset : Int) :
    (b.commit s offset).cursor other = b.cursor other := by
  simp only [commit, cursor, lookup_set_of_ne h]

theorem mem_cursors_of_lookup {place : Int} (h : b.cursors.lookup s = some place) :
    (s, place) ∈ b.cursors := by
  obtain ⟨before, behind, hentries, -⟩ := List.lookup_eq_some_iff.mp h
  rw [hentries]
  exact List.mem_append_right _ List.mem_cons_self

/-- The groups of a topic are done with nothing behind the cursor of one of them. -/
theorem lowWater_le_of_mem {place : Int} (h : (s, place) ∈ b.cursors) :
    b.lowWater s.topic ≤ place := by
  have hmem : place ∈ (b.cursors.filter (·.1.topic == s.topic)).map Prod.snd :=
    List.mem_map.mpr ⟨(s, place), List.mem_filter.mpr ⟨h, by simp⟩, rfl⟩
  rw [lowWater]
  cases hmin : ((b.cursors.filter (·.1.topic == s.topic)).map Prod.snd).min? with
  | none =>
      rw [List.min?_eq_none_iff.mp hmin] at hmem
      exact absurd hmem List.not_mem_nil
  | some low => exact (List.min?_eq_some_iff.mp hmin).2 place hmem

/-- The groups of a topic are done with nothing behind the cursor of its only group. -/
theorem lowWater_le_cursor (hown : ∀ entry ∈ b.cursors, entry.1.topic = s.topic → entry.1 = s) :
    b.lowWater s.topic ≤ b.cursor s := by
  cases hlookup : b.cursors.lookup s with
  | some place =>
      rw [cursor, hlookup, Option.getD_some]
      exact lowWater_le_of_mem (mem_cursors_of_lookup hlookup)
  | none =>
      have hnone : b.cursors.filter (·.1.topic == s.topic) = [] := by
        refine List.filter_eq_nil_iff.mpr fun entry hentry htopic => ?_
        have hs := hown entry hentry (by simpa using htopic)
        have hlast : s ≠ entry.1 := by
          simpa using List.lookup_eq_none_iff.mp hlookup entry hentry
        exact hlast hs.symm
      have hcursor : b.cursor s = 0 := by rw [cursor, hlookup, Option.getD_none]
      rw [hcursor, lowWater, hnone]
      exact Int.le_refl 0

theorem log_prune_self {cutoff : Instant} (b : Bus) (topic : String) :
    (b.prune topic cutoff).2.log topic =
      { b.log topic with
        entries := (b.log topic).entries.filter fun e =>
          b.lowWater topic ≤ e.record.offset || cutoff ≤ e.appendedAt } := by
  unfold prune
  split
  · next hlog =>
    simp only [log, hlog, Option.getD_none, List.filter_nil]
  · next log hlog => simp only [Bus.log, lookup_set_self, Option.getD_some, hlog]

theorem log_prune_of_ne {cutoff : Instant} {other : String} (h : other ≠ topic) (b : Bus) :
    (b.prune topic cutoff).2.log other = b.log other := by
  unfold prune
  split
  · rfl
  · simp only [log, lookup_set_of_ne h]

/-- What pruning keeps of a topic. -/
theorem mem_records_prune {cutoff : Instant} {r : Record} (b : Bus) (topic other : String) :
    (r ∈ (b.prune topic cutoff).2.records other → r ∈ b.records other) ∧
      (r ∈ b.records other → b.lowWater other ≤ r.offset →
        r ∈ (b.prune topic cutoff).2.records other) := by
  by_cases hother : other = topic
  · subst hother
    simp only [records, log_prune_self, List.mem_map, List.mem_filter, Bool.or_eq_true,
      decide_eq_true_eq]
    constructor
    · rintro ⟨entry, ⟨hentry, -⟩, rfl⟩
      exact ⟨entry, hentry, rfl⟩
    · rintro ⟨entry, hentry, rfl⟩ hlow
      exact ⟨entry, ⟨hentry, Or.inl hlow⟩, rfl⟩
  · simp only [records, log_prune_of_ne hother]
    exact ⟨id, fun h _ => h⟩

theorem entries_prune_sublist {cutoff : Instant} (b : Bus) (topic other : String) :
    ((b.prune topic cutoff).2.log other).entries.Sublist (b.log other).entries := by
  by_cases hother : other = topic
  · subst hother
    rw [log_prune_self]
    exact List.filter_sublist
  · rw [log_prune_of_ne hother]

theorem records_prune_sublist {cutoff : Instant} (b : Bus) (topic other : String) :
    ((b.prune topic cutoff).2.records other).Sublist (b.records other) :=
  (entries_prune_sublist b topic other).map _

theorem head_prune {cutoff : Instant} (b : Bus) (topic other : String) :
    ((b.prune topic cutoff).2.log other).head = (b.log other).head := by
  by_cases hother : other = topic
  · subst hother
    rw [log_prune_self]
  · rw [log_prune_of_ne hother]

theorem cursors_prune {cutoff : Instant} (b : Bus) (topic : String) :
    (b.prune topic cutoff).2.cursors = b.cursors := by
  unfold prune
  split <;> rfl

theorem refusals_prune (b : Bus) (topic : String) (cutoff : Instant) :
    (b.prune topic cutoff).2.refusals = b.refusals := by
  unfold prune
  split <;> rfl

end Bus
end Courier
