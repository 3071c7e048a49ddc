import Courier.Proofs.KeyLock
import Mathlib.Data.List.Nodup
import Mathlib.Logic.Function.Basic

/-!
Mutexes by key while some come and others go. A key is known exactly while someone has a lease on
its mutex, so those who want the same key always meet at the same mutex, and stand there in the
order in which they came: `Sound`. Seen by key, this is `KeyLock`.
-/

namespace Courier

variable {α : Type}

namespace Gate

/-- The gate of those who stand in line, the first of whom is inside. -/
def ofLine : List α → Gate α
  | [] => free
  | who :: rest => ⟨some who, rest⟩

variable (line : List α) (who : α)

@[simp]
theorem inside_ofLine : (ofLine line).inside = line.head? := by
  cases line <;> rfl

@[simp]
theorem waiting_ofLine : (ofLine line).waiting = line.tail := by
  cases line <;> rfl

theorem enter_ofLine : (ofLine line).enter who = ofLine (line ++ [who]) := by
  cases line <;> rfl

theorem leave_ofLine [DecidableEq α] : (ofLine line).leave who = ofLine (line.erase who) := by
  cases line with
  | nil => simp [ofLine, free, leave]
  | cons first rest =>
      by_cases hfirst : first = who
      · subst hfirst
        cases rest <;> simp [ofLine, leave]
      · simp [ofLine, leave, hfirst]

end Gate

namespace MutexMap

/-- Those who have a lease on the mutex of a key, in the order in which they came. -/
def line (l : MutexMap α) (key : String) : List α :=
  (l.leases.filter (·.key == key)).map (·.owner)

/-- Leases and entries fit together: each lease is on the mutex at which its key is known. -/
structure Fits (l : MutexMap α) : Prop where
  owners : (l.leases.map (·.owner)).Nodup
  keys : (l.entries.map Prod.fst).Nodup
  numbers : (l.entries.map Prod.snd).Nodup
  made : ∀ entry ∈ l.entries, entry.2 < l.mutexes.length
  leased : ∀ lease ∈ l.leases, (lease.key, lease.mutex) ∈ l.entries

/-- At the mutex of each known key people stand in these lines. -/
def Lines (l : MutexMap α) (lines : String → List α) : Prop :=
  ∀ entry ∈ l.entries, l.mutex entry.2 = .ofLine (lines entry.1)

structure Sound (l : MutexMap α) : Prop extends Fits l where
  wanted : ∀ entry ∈ l.entries, l.line entry.1 ≠ []
  lines : l.Lines l.line

variable {l : MutexMap α} {key other : String} {who someone : α} {number : Nat}

/-! ## Lines and mutexes -/

theorem mem_line : who ∈ l.line key ↔ ∃ lease ∈ l.leases, lease.key = key ∧ lease.owner = who := by
  simp [line, and_assoc]

theorem mutex_change_self {f : Gate α → Gate α} (h : number < l.mutexes.length) :
    (l.change number f).mutex number = f (l.mutex number) := by
  simp [change, mutex, List.getD_eq_getElem?_getD, h]

theorem mutex_change_of_ne {f : Gate α → Gate α} {n : Nat} (h : n ≠ number) :
    (l.change number f).mutex n = l.mutex n := by
  simp [change, mutex, List.getD_eq_getElem?_getD, h.symm]

theorem Fits.change (h : l.Fits) (number : Nat) (f : Gate α → Gate α) :
    (l.change number f).Fits where
  owners := h.owners
  keys := h.keys
  numbers := h.numbers
  made := by
    intro entry hentry
    simpa [MutexMap.change] using h.made entry hentry
  leased := h.leased

/-- A change at the mutex of one key is one of the line of that key. -/
theorem Lines.change {lines : String → List α} {f : Gate α → Gate α} {new : List α} (h : l.Fits)
    (hlines : l.Lines lines) (hkey : (key, number) ∈ l.entries)
    (hf : f (.ofLine (lines key)) = .ofLine new) :
    (l.change number f).Lines (Function.update lines key new) := by
  intro entry hentry
  by_cases hnumber : entry.2 = number
  · have hsame : entry = (key, number) := List.inj_on_of_nodup_map h.numbers hentry hkey hnumber
    subst hsame
    rw [mutex_change_self (h.made _ hentry), hlines _ hentry, hf]
    simp
  · have hother : entry.1 ≠ key := by
      intro heq
      have hsame := List.inj_on_of_nodup_map h.keys hentry hkey heq
      exact hnumber (congrArg Prod.snd hsame)
    rw [mutex_change_of_ne hnumber, Function.update_of_ne hother]
    exact hlines entry hentry

/-! ## Coming -/

/-- The map with one more lease. -/
def lend (l : MutexMap α) (lease : Lease α) : MutexMap α := { l with leases := l.leases ++ [lease] }

/-- The map with a new mutex for a key. -/
def add (l : MutexMap α) (key : String) : MutexMap α :=
  { l with mutexes := l.mutexes ++ [.free], entries := l.entries ++ [(key, l.mutexes.length)] }

theorem line_lend (number : Nat) :
    (l.lend ⟨who, key, number⟩).line = Function.update l.line key (l.line key ++ [who]) := by
  funext other
  by_cases hother : other = key
  · subst hother
    simp [lend, line]
  · simp [lend, line, hother, Ne.symm hother]

theorem Fits.lend (h : l.Fits) (hkey : (key, number) ∈ l.entries)
    (hwho : ∀ lease ∈ l.leases, lease.owner ≠ who) : (l.lend ⟨who, key, number⟩).Fits where
  owners := by
    rw [MutexMap.lend, List.map_append, List.nodup_append]
    refine ⟨h.owners, by simp, ?_⟩
    rintro owner howner _ hnew rfl
    obtain ⟨lease, hlease, rfl⟩ := List.mem_map.mp howner
    exact hwho lease hlease (by simpa using hnew)
  keys := h.keys
  numbers := h.numbers
  made := h.made
  leased := by
    intro lease hlease
    rcases List.mem_append.mp hlease with hlease | hlease
    · exact h.leased lease hlease
    · obtain rfl := List.mem_singleton.mp hlease
      exact hkey

theorem Fits.line_eq_nil (h : l.Fits) (hkey : ∀ entry ∈ l.entries, entry.1 ≠ key) :
    l.line key = [] := by
  rw [List.eq_nil_iff_forall_not_mem]
  intro who hwho
  obtain ⟨lease, hlease, rfl, -⟩ := mem_line.mp hwho
  exact hkey _ (h.leased lease hlease) rfl

theorem Fits.add (h : l.Fits) (hkey : ∀ entry ∈ l.entries, entry.1 ≠ key) : (l.add key).Fits where
  owners := h.owners
  keys := by
    rw [MutexMap.add, List.map_append, List.nodup_append]
    refine ⟨h.keys, by simp, ?_⟩
    rintro other hother _ hsame rfl
    obtain ⟨entry, hentry, rfl⟩ := List.mem_map.mp hother
    exact hkey entry hentry (by simpa using hsame)
  numbers := by
    rw [MutexMap.add, List.map_append, List.nodup_append]
    refine ⟨h.numbers, by simp, ?_⟩
    rintro number hnumber _ hsame rfl
    obtain ⟨entry, hentry, rfl⟩ := List.mem_map.mp hnumber
    have hlt := h.made entry hentry
    simp only [List.map_cons, List.map_nil, List.mem_singleton] at hsame
    omega
  made := by
    intro entry hentry
    rw [MutexMap.add, List.length_append, List.length_singleton]
    rcases List.mem_append.mp hentry with hentry | hentry
    · have hlt := h.made entry hentry
      omega
    · obtain rfl := List.mem_singleton.mp hentry
      exact Nat.lt_succ_self _
  leased := fun lease hlease => List.mem_append_left _ (h.leased lease hlease)

theorem Lines.add {lines : String → List α} (h : l.Fits) (hlines : l.Lines lines)
    (hkey : lines key = []) : (l.add key).Lines lines := by
  intro entry hentry
  rcases List.mem_append.mp hentry with hentry | hentry
  · have hlt := h.made entry hentry
    have hentry := hlines entry hentry
    simpa [MutexMap.add, mutex, List.getD_eq_getElem?_getD, List.getElem?_append_left hlt]
      using hentry
  · obtain rfl := List.mem_singleton.mp hentry
    simp [MutexMap.add, mutex, List.getD_eq_getElem?_getD, hkey, Gate.ofLine]

/-- Whoever gets a lease gets it on the mutex of the key, which is then known. -/
theorem Sound.exists_lease (h : l.Sound) (key : String) (who : α) :
    ∃ (m : MutexMap α) (number : Nat),
      l.lease key who = (⟨who, key, number⟩, m.lend ⟨who, key, number⟩) ∧
      (key, number) ∈ m.entries ∧ m.leases = l.leases ∧ m.Fits ∧ m.Lines l.line ∧
      ∀ entry ∈ m.entries, entry ∈ l.entries ∨ entry.1 = key := by
  cases hlookup : l.entries.lookup key with
  | some number =>
      obtain ⟨before, behind, hentries, -⟩ := List.lookup_eq_some_iff.mp hlookup
      refine ⟨l, number, by simp [lease, hlookup, lend], by simp [hentries], rfl, h.toFits, h.lines,
        fun entry hentry => Or.inl hentry⟩
  | none =>
      have hnew : ∀ entry ∈ l.entries, entry.1 ≠ key := by
        intro entry hentry heq
        have hne := List.lookup_eq_none_iff.mp hlookup entry hentry
        simp [heq] at hne
      refine ⟨l.add key, l.mutexes.length, by simp [lease, hlookup, lend, MutexMap.add],
        by simp [MutexMap.add], rfl, h.toFits.add hnew,
        h.lines.add h.toFits (h.toFits.line_eq_nil hnew), ?_⟩
      intro entry hentry
      exact (List.mem_append.mp hentry).imp_right fun hentry =>
        congrArg Prod.fst (List.mem_singleton.mp hentry)

theorem Sound.leases_enter (h : l.Sound) (key : String) (who : α) :
    ∃ number, (l.enter key who).leases = l.leases ++ [⟨who, key, number⟩] := by
  obtain ⟨m, number, hlease, -, hleases, -⟩ := h.exists_lease key who
  exact ⟨number, by simp [enter, hlease, change, lend, hleases]⟩

theorem line_enter (h : l.Sound) (key : String) (who : α) :
    (l.enter key who).line = Function.update l.line key (l.line key ++ [who]) := by
  obtain ⟨m, number, hlease, -, hleases, -⟩ := h.exists_lease key who
  have hline : m.line = l.line := by
    funext other
    simp [line, hleases]
  simp only [enter, hlease]
  exact hline ▸ line_lend number

/-- Whoever comes stands at the end of the line of the key. -/
theorem Sound.enter (h : l.Sound) (key : String) (hwho : ∀ lease ∈ l.leases, lease.owner ≠ who) :
    (l.enter key who).Sound := by
  have hline := line_enter h key who
  obtain ⟨m, number, hlease, hkey, hleases, hfits, hlines, hentries⟩ := h.exists_lease key who
  have hentered : l.enter key who = (m.lend ⟨who, key, number⟩).change number (·.enter who) := by
    simp only [MutexMap.enter, hlease]
  rw [hentered] at hline ⊢
  have hlent : (m.lend ⟨who, key, number⟩).Fits := hfits.lend hkey (hleases ▸ hwho)
  refine ⟨hlent.change number _, ?_, ?_⟩
  · intro entry hentry
    rw [hline]
    by_cases hsame : entry.1 = key
    · simp [hsame]
    · rw [Function.update_of_ne hsame]
      exact h.wanted entry ((hentries entry hentry).resolve_right hsame)
  · rw [hline]
    have hold : (m.lend ⟨who, key, number⟩).Lines l.line := hlines
    exact hold.change hlent hkey (Gate.enter_ofLine _ who)

/-! ## Going -/

section Going

variable {a b : Lease α}

theorem Fits.eq_of_owner_eq (h : l.Fits) (ha : a ∈ l.leases) (hb : b ∈ l.leases)
    (howner : a.owner = b.owner) : a = b :=
  List.inj_on_of_nodup_map h.owners ha hb howner

/-- Leases on the same mutex are leases on the same key. -/
theorem Fits.mutex_eq_iff (h : l.Fits) (ha : a ∈ l.leases) (hb : b ∈ l.leases) :
    a.mutex = b.mutex ↔ a.key = b.key := by
  have ha := h.leased a ha
  have hb := h.leased b hb
  constructor
  · intro hmutex
    exact congrArg Prod.fst (List.inj_on_of_nodup_map h.numbers ha hb hmutex)
  · intro hkey
    exact congrArg Prod.snd (List.inj_on_of_nodup_map h.keys ha hb hkey)

theorem Fits.nodup_line (h : l.Fits) (key : String) : (l.line key).Nodup :=
  (List.filter_sublist.map _).nodup h.owners

theorem mem_line_key (ha : a ∈ l.leases) : a.owner ∈ l.line a.key :=
  mem_line.mpr ⟨a, ha, rfl, rfl⟩

theorem Sound.inside_eq (h : l.Sound) (ha : a ∈ l.leases) :
    (l.mutex a.mutex).inside = (l.line a.key).head? := by
  rw [h.lines _ (h.leased a ha), Gate.inside_ofLine]

/-- The mutex of a lease is referred to by the map and by all who stand in its line. -/
theorem Fits.references_eq (h : l.Fits) (ha : a ∈ l.leases) :
    l.references a.mutex = (l.line a.key).length + 1 := by
  have hentries : l.entries.countP (·.2 == a.mutex) = 1 := by
    have hmem : a.mutex ∈ l.entries.map Prod.snd := List.mem_map_of_mem (h.leased a ha)
    have hcount := List.count_eq_one_of_mem h.numbers hmem
    rwa [List.count, List.countP_map] at hcount
  have hleases : l.leases.countP (·.mutex == a.mutex) = (l.line a.key).length := by
    rw [line, List.length_map, List.countP_eq_length_filter]
    congr 1
    apply List.filter_congr
    intro b hb
    simp [h.mutex_eq_iff hb ha]
  rw [references, hentries, hleases, Nat.add_comm]

variable [DecidableEq α]

theorem Fits.leaseOf_eq (h : l.Fits) (ha : a ∈ l.leases) : l.leaseOf? a.owner = some a := by
  cases hfind : l.leaseOf? a.owner with
  | none => simpa using List.find?_eq_none.mp hfind a ha
  | some b =>
      have hb : b ∈ l.leases := List.mem_of_find?_eq_some hfind
      have howner : b.owner = a.owner := by simpa using List.find?_some hfind
      rw [h.eq_of_owner_eq hb ha howner]

theorem Fits.leases_takeBack (h : l.Fits) (ha : a ∈ l.leases) :
    (l.takeBack a).leases = l.leases.filter (·.owner != a.owner) := by
  have hnodup : l.leases.Nodup := h.owners.of_map
  rw [takeBack, hnodup.erase_eq_filter]
  apply List.filter_congr
  intro b hb
  by_cases hsame : b = a
  · simp [hsame]
  · have hother : b.owner ≠ a.owner := fun howner => hsame (h.eq_of_owner_eq hb ha howner)
    rw [bne_iff_ne.mpr hsame, bne_iff_ne.mpr hother]

theorem Fits.line_takeBack (h : l.Fits) (ha : a ∈ l.leases) :
    (l.takeBack a).line = Function.update l.line a.key ((l.line a.key).erase a.owner) := by
  have hleft := h.leases_takeBack ha
  funext key
  by_cases hkey : key = a.key
  · subst hkey
    rw [Function.update_self, (h.nodup_line a.key).erase_eq_filter, line, hleft, line,
      List.filter_map, List.filter_filter, List.filter_filter]
    congr 1
    apply List.filter_congr
    intro b hb
    exact Bool.and_comm _ _
  · rw [Function.update_of_ne hkey, line, hleft, line, List.filter_filter]
    congr 1
    apply List.filter_congr
    intro b hb
    by_cases howner : b.owner = a.owner
    · have hsame := h.eq_of_owner_eq hb ha howner
      simp [hsame, Ne.symm hkey]
    · simp [howner]

/-- A key is forgotten exactly when its line becomes empty. -/
theorem Fits.mem_entries_takeBack (h : l.Fits) (ha : a ∈ l.leases) {entry : String × Nat} :
    entry ∈ (l.takeBack a).entries ↔
      entry ∈ l.entries ∧ (entry.1 = a.key → (l.takeBack a).line a.key ≠ []) := by
  have hlength : (l.takeBack a).line a.key = [] ↔ l.references a.mutex = 2 := by
    have hmem : a.owner ∈ l.line a.key := mem_line_key ha
    have hpos := List.length_pos_of_mem hmem
    rw [h.line_takeBack ha, Function.update_self, h.references_eq ha,
      ← List.length_eq_zero_iff, List.length_erase_of_mem hmem]
    omega
  rw [Ne, hlength, takeBack]
  by_cases htwo : l.references a.mutex = 2
  · simp [htwo]
  · simp [htwo]

theorem Fits.takeBack (h : l.Fits) (ha : a ∈ l.leases) : (l.takeBack a).Fits where
  owners := (List.erase_sublist.map _).nodup h.owners
  keys := by
    rw [MutexMap.takeBack]
    split
    · exact (List.filter_sublist.map _).nodup h.keys
    · exact h.keys
  numbers := by
    rw [MutexMap.takeBack]
    split
    · exact (List.filter_sublist.map _).nodup h.numbers
    · exact h.numbers
  made := fun entry hentry => h.made entry ((h.mem_entries_takeBack ha).mp hentry).1
  leased := by
    intro b hb
    refine (h.mem_entries_takeBack ha).mpr ⟨h.leased b (List.mem_of_mem_erase hb), ?_⟩
    intro hkey hempty
    have hmem : b.owner ∈ (l.takeBack a).line b.key := mem_line_key hb
    simp only at hkey
    rw [hkey, hempty] at hmem
    exact List.not_mem_nil hmem

/-- Those are inside who stand first in line for a key. -/
theorem Sound.holds_iff (h : l.Sound) :
    l.holds who = true ↔ ∃ key, (l.line key).head? = some who := by
  constructor
  · intro hholds
    rw [holds] at hholds
    split at hholds
    · next a hlease =>
      have ha : a ∈ l.leases := List.mem_of_find?_eq_some hlease
      rw [h.inside_eq ha] at hholds
      exact ⟨a.key, by simpa using hholds⟩
    · exact nomatch hholds
  · rintro ⟨key, hhead⟩
    obtain ⟨a, ha, rfl, rfl⟩ := mem_line.mp (List.mem_of_head? hhead)
    rw [holds, h.leaseOf_eq ha]
    simp [h.inside_eq ha, hhead]

theorem Fits.leave_eq (h : l.Fits) (ha : a ∈ l.leases) :
    (l.leave a.owner).2 = (l.change a.mutex (·.leave a.owner)).takeBack a := by
  simp [MutexMap.leave, h.leaseOf_eq ha]

theorem Fits.leases_leave (h : l.Fits) (ha : a ∈ l.leases) :
    (l.leave a.owner).2.leases = l.leases.filter (·.owner != a.owner) := by
  rw [h.leave_eq ha]
  exact (h.change a.mutex _).leases_takeBack ha

theorem Fits.line_leave (h : l.Fits) (ha : a ∈ l.leases) :
    (l.leave a.owner).2.line = Function.update l.line a.key ((l.line a.key).erase a.owner) := by
  rw [h.leave_eq ha]
  exact (h.change a.mutex _).line_takeBack ha

/-- Whoever goes leaves their line, and nobody else does. -/
theorem Sound.leave (h : l.Sound) (ha : a ∈ l.leases) : (l.leave a.owner).2.Sound := by
  have hline := h.line_leave ha
  rw [h.leave_eq ha] at hline ⊢
  have hchanged := h.toFits.change a.mutex (·.leave a.owner)
  refine ⟨hchanged.takeBack ha, ?_, ?_⟩
  · intro entry hentry
    obtain ⟨hknown, hwanted⟩ := (hchanged.mem_entries_takeBack (a := a) ha).mp hentry
    by_cases hkey : entry.1 = a.key
    · rw [hkey]
      exact hwanted hkey
    · rw [hline, Function.update_of_ne hkey]
      exact h.wanted entry hknown
  · intro entry hentry
    rw [hline]
    have hlines := h.lines.change (f := (·.leave a.owner)) h.toFits (h.leased a ha)
      (Gate.leave_ofLine _ a.owner)
    exact hlines entry ((hchanged.mem_entries_takeBack (a := a) ha).mp hentry).1

/-- If those who go were inside, the next in line goes in. -/
theorem Sound.next_eq (h : l.Sound) (ha : a ∈ l.leases) :
    (l.leave a.owner).1 =
      if (l.line a.key).head? = some a.owner then (l.line a.key).tail.head? else none := by
  have hholds : l.holds a.owner = true ↔ (l.line a.key).head? = some a.owner := by
    simp [holds, h.leaseOf_eq ha, h.inside_eq ha]
  simp only [MutexMap.leave, h.leaseOf_eq ha, hholds, h.lines _ (h.leased a ha)]
  split
  · next hhead =>
    obtain ⟨rest, hline⟩ := List.head?_eq_some_iff.mp hhead
    simp [Gate.leave_ofLine, hline]
  · rfl

/-- Whoever comes is inside at once if nobody stands in line. -/
theorem Sound.holds_enter (h : l.Sound) (key : String)
    (hwho : ∀ lease ∈ l.leases, lease.owner ≠ who) :
    (l.enter key who).holds someone = true ↔
      l.holds someone = true ∨ someone = who ∧ l.line key = [] := by
  rw [(h.enter key hwho).holds_iff, h.holds_iff, line_enter h]
  constructor
  · rintro ⟨other, hhead⟩
    by_cases hother : other = key
    · subst hother
      rw [Function.update_self, List.head?_append] at hhead
      cases hline : l.line other with
      | nil => exact Or.inr ⟨by simpa [hline, eq_comm] using hhead, rfl⟩
      | cons first rest => exact Or.inl ⟨other, by simpa [hline] using hhead⟩
    · rw [Function.update_of_ne hother] at hhead
      exact Or.inl ⟨other, hhead⟩
  · rintro (⟨other, hhead⟩ | ⟨rfl, hempty⟩)
    · refine ⟨other, ?_⟩
      by_cases hother : other = key
      · subst hother
        simp [List.head?_append, hhead]
      · rwa [Function.update_of_ne hother]
    · exact ⟨key, by simp [hempty]⟩

/-- The head of a line that someone leaves. -/
private theorem head?_erase (line : List α) :
    (line.erase who).head? = some someone ↔
      line.head? = some someone ∧ someone ≠ who ∨
        (if line.head? = some who then line.tail.head? else none) = some someone := by
  cases line with
  | nil => simp
  | cons first rest =>
      by_cases hfirst : first = who
      · subst hfirst
        simp +contextual [eq_comm]
      · simp only [List.erase_cons_tail (beq_iff_eq.not.mpr hfirst), List.head?_cons,
          Option.some.injEq, hfirst, if_false, reduceCtorEq, or_false]
        constructor
        · rintro rfl
          exact ⟨rfl, hfirst⟩
        · exact And.left

/-- When someone goes, the others who were inside stay there, and the next in line goes in. -/
theorem Sound.holds_leave (h : l.Sound) (ha : a ∈ l.leases) :
    (l.leave a.owner).2.holds someone = true ↔
      l.holds someone = true ∧ someone ≠ a.owner ∨ (l.leave a.owner).1 = some someone := by
  have halone {other : String} (hhead : (l.line other).head? = some a.owner) : other = a.key := by
    obtain ⟨b, hb, rfl, howner⟩ := mem_line.mp (List.mem_of_head? hhead)
    rw [h.eq_of_owner_eq hb ha howner]
  rw [(h.leave ha).holds_iff, h.holds_iff, h.line_leave ha, h.next_eq ha]
  constructor
  · rintro ⟨other, hhead⟩
    by_cases hother : other = a.key
    · rw [hother, Function.update_self, head?_erase] at hhead
      exact hhead.imp_left fun ⟨hhead, hne⟩ => ⟨⟨a.key, hhead⟩, hne⟩
    · rw [Function.update_of_ne hother] at hhead
      refine Or.inl ⟨⟨other, hhead⟩, ?_⟩
      rintro rfl
      exact hother (halone hhead)
  · rintro (⟨⟨other, hhead⟩, hne⟩ | hnext)
    · refine ⟨other, ?_⟩
      by_cases hother : other = a.key
      · subst hother
        rw [Function.update_self, head?_erase]
        exact Or.inl ⟨hhead, hne⟩
      · rwa [Function.update_of_ne hother]
    · refine ⟨a.key, ?_⟩
      rw [Function.update_self, head?_erase]
      exact Or.inr hnext

end Going

end MutexMap

/-! ## Seen by key -/

namespace KeyLock

variable {k : KeyLock α} {l : MutexMap α} {key : String} {who : α}

/-- The gates of the keys are those at which the lines of the map stand. -/
def Shows (k : KeyLock α) (l : MutexMap α) : Prop := ∀ key, k.gate key = .ofLine (l.line key)

theorem gate_enter (k : KeyLock α) (key : String) (who : α) :
    (k.enter key who).2.gate = Function.update k.gate key ((k.gate key).enter who) := by
  funext other
  unfold enter Gate.enter
  dsimp only
  by_cases hother : other = key
  · subst hother
    split <;> simp
  · rw [Function.update_of_ne hother]
    split <;> exact gate_setGate_of_ne k hother _

theorem gate_leave [DecidableEq α] (k : KeyLock α) (key : String) (who : α) :
    (k.leave key who).2.gate = Function.update k.gate key ((k.gate key).leave who) := by
  funext other
  unfold leave Gate.leave
  dsimp only
  by_cases hother : other = key
  · subst hother
    split
    · split <;> simp [Gate.free]
    · simp
  · rw [Function.update_of_ne hother]
    split
    · split <;> exact gate_setGate_of_ne k hother _
    · exact gate_setGate_of_ne k hother _

private theorem shows_update {k' : KeyLock α} {l' : MutexMap α} {gate : Gate α} {line : List α}
    (h : k.Shows l) (hgate : k'.gate = Function.update k.gate key gate)
    (hline : l'.line = Function.update l.line key line) (hsame : gate = .ofLine line) :
    k'.Shows l' := by
  intro other
  rw [hgate, hline, hsame]
  by_cases hother : other = key
  · simp [hother]
  · rw [Function.update_of_ne hother, Function.update_of_ne hother]
    exact h other

/-- Seen by key, those who come are let in, or wait, as at the mutexes. -/
theorem Shows.enter [DecidableEq α] (h : k.Shows l) (hl : l.Sound) (key : String)
    (hwho : ∀ lease ∈ l.leases, lease.owner ≠ who) :
    (k.enter key who).2.Shows (l.enter key who) ∧
      (k.enter key who).1 = (l.enter key who).holds who := by
  have hline := MutexMap.line_enter hl key who
  constructor
  · refine shows_update h (k.gate_enter key who) hline ?_
    rw [h key, Gate.enter_ofLine]
  · have habsent : ¬ l.holds who = true := by
      rw [hl.holds_iff]
      rintro ⟨other, hhead⟩
      obtain ⟨lease, hlease, -, howner⟩ := MutexMap.mem_line.mp (List.mem_of_head? hhead)
      exact hwho lease hlease howner
    rw [Bool.eq_iff_iff, hl.holds_enter key hwho, KeyLock.enter, h key]
    cases l.line key <;> simp [Gate.ofLine, Gate.free, habsent]

theorem Shows.leave [DecidableEq α] {a : Lease α} (h : k.Shows l) (hl : l.Sound)
    (ha : a ∈ l.leases) :
    (k.leave a.key a.owner).2.Shows (l.leave a.owner).2 ∧
      (k.leave a.key a.owner).1 = (l.leave a.owner).1 := by
  constructor
  · refine shows_update h (k.gate_leave a.key a.owner) (hl.line_leave ha) ?_
    rw [h a.key, Gate.leave_ofLine]
  · rw [hl.next_eq ha, KeyLock.leave, h a.key]
    cases hline : l.line a.key with
    | nil => simp [Gate.ofLine, Gate.free]
    | cons first rest => cases rest <;> simp [Gate.ofLine] <;> split <;> rfl

end KeyLock
end Courier
