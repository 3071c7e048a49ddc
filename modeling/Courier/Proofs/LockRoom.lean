import Courier.Proofs.MutexMap
import Mathlib.Data.List.Dedup
import Mathlib.Data.List.Induction
import Mathlib.Logic.Relation

/-!
Tasks at a lock by key. Whatever tasks start, end or are dropped, the leases that are out are those
of the live tasks, so of the tasks that want a key the one that started first is inside, and the
lock knows the keys that are wanted. After each step every task that can go on has done so.
-/

namespace Courier.LockRoom

variable {r r' : LockRoom} {i j number : Nat} {key : String} {task : LockTask}

/-! ## What is said of a room -/

/-- A live task wants its key. -/
def Wants (r : LockRoom) (i : Nat) (key : String) : Prop :=
  ∃ task, r.tasks[i]? = some task ∧ task.live = true ∧ task.key = key

/-- The body of a task runs: the task is inside the mutex that it has a lease on. -/
def Inside (r : LockRoom) (i : Nat) : Prop := r.lock.holds i = true

/-- A task stands in the queue of a mutex in which another one is. -/
def WaitsFor (r : LockRoom) (i j : Nat) : Prop :=
  ∃ lease ∈ r.lock.leases, lease.owner = i ∧ i ∈ (r.lock.mutex lease.mutex).waiting ∧
    (r.lock.mutex lease.mutex).inside = some j

def wantedKeys (r : LockRoom) : List String := (r.tasks.filter (·.live)).map (·.key)

/-- Those who want a key are served in the order in which they started, one at a time. -/
structure Served (r : LockRoom) : Prop where
  one_inside : ∀ i j key, r.Wants i key → r.Wants j key → r.Inside i → r.Inside j → i = j
  first_inside : ∀ i key, r.Wants i key → (r.Inside i ↔ ∀ j, r.Wants j key → i ≤ j)
  someone_inside : ∀ i key, r.Wants i key → ∃ j, r.Wants j key ∧ r.Inside j
  inside_wants : ∀ i, r.Inside i → ∃ key, r.Wants i key
  others_wait : ∀ i key, r.Wants i key → ¬ r.Inside i → ∃ j, r.WaitsFor i j
  waits_for_key : ∀ i j, r.WaitsFor i j → j < i ∧ ∃ key, r.Wants i key ∧ r.Wants j key
  active_keys : r.lock.activeKeys = r.wantedKeys.dedup.length

/-- Every task has gone as far as it can: nobody is inside whose body may end. -/
def Settled (r : LockRoom) : Prop :=
  ∀ i task, r.tasks[i]? = some task → r.Inside i → task.released = false

/-- Nobody is inside whose body may end, but for the one whose turn it is to go. -/
def SettledBut (r : LockRoom) (number : Nat) : Prop :=
  ∀ i task, r.tasks[i]? = some task → r.Inside i → i ≠ number → task.released = false

/-- What can happen to the tasks. A task that goes ends its body, or is dropped wherever it is. -/
inductive Happens (r : LockRoom) : LockRoom → Prop
  | starts (name key : String) :
      Happens r
        { lock := r.lock.enter key r.tasks.length
          tasks := r.tasks ++ [{ name := name, key := key }] }
  | allows (number : Nat) : Happens r (r.modify number fun t => { t with released := true })
  | goes {number : Nat} {task : LockTask} (htask : r.tasks[number]? = some task)
      (hlive : task.live = true) : Happens r (r.dismiss number).2

abbrev Leads : LockRoom → LockRoom → Prop := Relation.ReflTransGen Happens

/-! ## Live tasks and leases -/

/-- The key that a task wants as long as it lives. -/
def wanted? (r : LockRoom) (i : Nat) : Option String :=
  (r.tasks[i]?).bind fun task => if task.live then some task.key else none

/-- The live tasks and their keys, in the order in which they started. -/
def wanting (r : LockRoom) : List (Nat × String) :=
  (List.range r.tasks.length).filterMap fun i => (r.wanted? i).map (i, ·)

theorem wanted?_eq_some : r.wanted? i = some key ↔ r.Wants i key := by
  simp [wanted?, Wants, Option.bind_eq_some_iff]

theorem mem_wanting : (i, key) ∈ r.wanting ↔ r.Wants i key := by
  rw [wanting, List.mem_filterMap, ← wanted?_eq_some]
  constructor
  · rintro ⟨n, -, hn⟩
    obtain ⟨other, hother, hsame⟩ := Option.map_eq_some_iff.mp hn
    obtain ⟨rfl, rfl⟩ := Prod.mk.inj hsame
    exact hother
  · intro hwanted
    obtain ⟨task, htask, -⟩ := Option.bind_eq_some_iff.mp hwanted
    obtain ⟨hlt, -⟩ := List.getElem?_eq_some_iff.mp htask
    exact ⟨i, List.mem_range.mpr hlt, by simp [hwanted]⟩

theorem sorted_wanting (r : LockRoom) : r.wanting.Pairwise (·.1 < ·.1) := by
  apply List.Pairwise.filterMap _ _ List.pairwise_lt_range
  intro a b hlt x hx y hy
  obtain ⟨-, -, rfl⟩ := Option.map_eq_some_iff.mp hx
  obtain ⟨-, -, rfl⟩ := Option.map_eq_some_iff.mp hy
  exact hlt

theorem wanting_concat (task : LockTask) (hlive : task.live = true) (lock : MutexMap Nat) :
    LockRoom.wanting ⟨lock, r.tasks ++ [task]⟩ = r.wanting ++ [(r.tasks.length, task.key)] := by
  rw [wanting, List.length_append, List.length_singleton, List.range_succ, List.filterMap_append]
  congr 1
  · apply List.filterMap_congr
    intro n hn
    rw [wanted?, List.getElem?_append_left (List.mem_range.mp hn), wanted?]
  · simp [wanted?, hlive]

/-- What tasks have besides their keys and lives does not matter. -/
theorem wanting_allow (number : Nat) :
    (r.modify number fun t => { t with released := true }).wanting = r.wanting := by
  rw [wanting, wanting, modify, List.length_modify]
  apply List.filterMap_congr
  intro n _
  congr 1
  rw [wanted?, wanted?, List.getElem?_modify]
  cases r.tasks[n]? with
  | none => rfl
  | some task => by_cases hn : number = n <;> simp [hn]

theorem tasks_dismiss (number : Nat) :
    (r.dismiss number).2.tasks = r.tasks.modify number fun t => { t with live := false } := rfl

/-- A task that goes wants nothing any more. -/
theorem wanting_dismiss (number : Nat) :
    (r.dismiss number).2.wanting = r.wanting.filter (·.1 != number) := by
  rw [wanting, wanting, List.filter_filterMap, tasks_dismiss, List.length_modify]
  apply List.filterMap_congr
  intro n _
  rw [wanted?, wanted?, tasks_dismiss, List.getElem?_modify]
  cases htask : r.tasks[n]? with
  | none => rfl
  | some task =>
      by_cases hn : number = n
      · subst hn
        cases hlive : task.live <;> simp [hlive, Option.filter_some]
      · cases hlive : task.live <;> simp [hn, hlive, Option.filter_some, Ne.symm hn]

theorem wants_unique {other : String} (hi : r.Wants i key) (hother : r.Wants i other) :
    key = other := by
  rw [← wanted?_eq_some] at hi hother
  exact Option.some.inj (hi.symm.trans hother)

theorem mem_wantedKeys : key ∈ r.wantedKeys ↔ ∃ i, r.Wants i key := by
  simp only [wantedKeys, List.mem_map, List.mem_filter, Wants]
  constructor
  · rintro ⟨task, ⟨htask, hlive⟩, rfl⟩
    obtain ⟨i, hi⟩ := List.mem_iff_getElem?.mp htask
    exact ⟨i, task, hi, hlive, rfl⟩
  · rintro ⟨i, task, hi, hlive, rfl⟩
    exact ⟨task, ⟨List.mem_of_getElem? hi, hlive⟩, rfl⟩

/-- The leases that are out are those of the live tasks. -/
structure Sound (r : LockRoom) : Prop where
  lock : r.lock.Sound
  leases : r.lock.leases.map (fun lease => (lease.owner, lease.key)) = r.wanting

theorem sound_empty : ({} : LockRoom).Sound where
  lock := by
    refine ⟨⟨List.nodup_nil, List.nodup_nil, List.nodup_nil, ?_, ?_⟩, ?_, ?_⟩ <;>
      exact fun _ h => absurd h List.not_mem_nil
  leases := rfl

namespace Sound

variable (h : r.Sound)

include h

theorem exists_lease (hwants : r.Wants i key) :
    ∃ lease ∈ r.lock.leases, lease.owner = i ∧ lease.key = key := by
  have hmem := mem_wanting.mpr hwants
  rw [← h.leases] at hmem
  obtain ⟨lease, hlease, hsame⟩ := List.mem_map.mp hmem
  obtain ⟨rfl, rfl⟩ := Prod.mk.inj hsame
  exact ⟨lease, hlease, rfl, rfl⟩

theorem wants_of_lease {lease : Lease Nat} (hlease : lease ∈ r.lock.leases) :
    r.Wants lease.owner lease.key := by
  rw [← mem_wanting, ← h.leases]
  exact List.mem_map.mpr ⟨lease, hlease, rfl⟩

theorem mem_line : i ∈ r.lock.line key ↔ r.Wants i key := by
  rw [MutexMap.mem_line]
  constructor
  · rintro ⟨lease, hlease, rfl, rfl⟩
    exact h.wants_of_lease hlease
  · intro hwants
    obtain ⟨lease, hlease, rfl, rfl⟩ := h.exists_lease hwants
    exact ⟨lease, hlease, rfl, rfl⟩

/-- In line for a key stand those who started earlier before those who started later. -/
theorem sorted_line (key : String) : (r.lock.line key).Pairwise (· < ·) := by
  have hsorted := r.sorted_wanting
  rw [← h.leases, List.pairwise_map] at hsorted
  exact List.pairwise_map.mpr (hsorted.filter _)

/-- The first in line is the one who started first. -/
theorem head_line_iff :
    (r.lock.line key).head? = some i ↔ r.Wants i key ∧ ∀ j, r.Wants j key → i ≤ j := by
  have hsorted := h.sorted_line key
  have hmem {j : Nat} : j ∈ r.lock.line key ↔ r.Wants j key := h.mem_line
  cases hline : r.lock.line key with
  | nil =>
      rw [hline] at hmem
      simp [← hmem]
  | cons first rest =>
      rw [hline] at hmem hsorted
      have hfirst := (List.pairwise_cons.mp hsorted).1
      simp only [← hmem, List.head?_cons, Option.some.injEq]
      constructor
      · rintro rfl
        refine ⟨List.mem_cons_self, ?_⟩
        intro j hj
        rcases List.mem_cons.mp hj with rfl | hj
        · exact Nat.le_refl _
        · exact Nat.le_of_lt (hfirst j hj)
      · rintro ⟨hi, hleast⟩
        rcases List.mem_cons.mp hi with rfl | hi
        · rfl
        · have hle := hleast first List.mem_cons_self
          have hlt := hfirst i hi
          omega

theorem inside_iff : r.Inside i ↔ ∃ key, r.Wants i key ∧ ∀ j, r.Wants j key → i ≤ j := by
  rw [Inside, h.lock.holds_iff]
  simp only [h.head_line_iff]

/-- The mutex of a lease, with those in line for its key. -/
theorem mutex_eq {lease : Lease Nat} (hlease : lease ∈ r.lock.leases) :
    r.lock.mutex lease.mutex = .ofLine (r.lock.line lease.key) :=
  h.lock.lines _ (h.lock.leased lease hlease)

theorem waitsFor_iff : r.WaitsFor i j ↔
    ∃ key, i ∈ (r.lock.line key).tail ∧ (r.lock.line key).head? = some j := by
  constructor
  · rintro ⟨lease, hlease, -, hwaiting, hinside⟩
    rw [h.mutex_eq hlease, Gate.waiting_ofLine] at hwaiting
    rw [h.mutex_eq hlease, Gate.inside_ofLine] at hinside
    exact ⟨lease.key, hwaiting, hinside⟩
  · rintro ⟨key, htail, hhead⟩
    have hwants := h.mem_line.mp (List.mem_of_mem_tail htail)
    obtain ⟨lease, hlease, rfl, rfl⟩ := h.exists_lease hwants
    refine ⟨lease, hlease, rfl, ?_, ?_⟩
    · rwa [h.mutex_eq hlease, Gate.waiting_ofLine]
    · rwa [h.mutex_eq hlease, Gate.inside_ofLine]

theorem mem_keys : key ∈ r.lock.entries.map Prod.fst ↔ ∃ i, r.Wants i key := by
  constructor
  · intro hkey
    obtain ⟨entry, hentry, rfl⟩ := List.mem_map.mp hkey
    obtain ⟨i, hi⟩ := List.exists_mem_of_ne_nil _ (h.lock.wanted entry hentry)
    exact ⟨i, h.mem_line.mp hi⟩
  · rintro ⟨i, hwants⟩
    obtain ⟨lease, hlease, rfl, rfl⟩ := h.exists_lease hwants
    exact List.mem_map_of_mem (h.lock.leased lease hlease)

theorem served : r.Served where
  one_inside := by
    intro i j key hi hj hinside hinside'
    obtain ⟨keyᵢ, hwants, hleast⟩ := h.inside_iff.mp hinside
    obtain ⟨keyⱼ, hwants', hleast'⟩ := h.inside_iff.mp hinside'
    obtain rfl := wants_unique hwants hi
    obtain rfl := wants_unique hwants' hj
    exact Nat.le_antisymm (hleast j hj) (hleast' i hi)
  first_inside := by
    intro i key hi
    rw [h.inside_iff]
    constructor
    · rintro ⟨other, hother, hleast⟩
      rwa [wants_unique hi hother]
    · exact fun hleast => ⟨key, hi, hleast⟩
  someone_inside := by
    intro i key hi
    have hline : r.lock.line key ≠ [] := List.ne_nil_of_mem (h.mem_line.mpr hi)
    obtain ⟨hwants, hleast⟩ := h.head_line_iff.mp (List.head?_eq_some_head hline)
    exact ⟨_, hwants, h.inside_iff.mpr ⟨key, hwants, hleast⟩⟩
  inside_wants := by
    intro i hinside
    obtain ⟨key, hwants, -⟩ := h.inside_iff.mp hinside
    exact ⟨key, hwants⟩
  others_wait := by
    intro i key hi hinside
    have hmem := h.mem_line.mpr hi
    cases hline : r.lock.line key with
    | nil =>
        rw [hline] at hmem
        exact absurd hmem List.not_mem_nil
    | cons first rest =>
        have hhead : (r.lock.line key).head? = some first := by rw [hline, List.head?_cons]
        refine ⟨first, h.waitsFor_iff.mpr ⟨key, ?_, hhead⟩⟩
        rw [hline] at hmem ⊢
        refine (List.mem_cons.mp hmem).resolve_left ?_
        rintro rfl
        exact hinside (h.inside_iff.mpr ⟨key, h.head_line_iff.mp hhead⟩)
  waits_for_key := by
    intro i j hwaits
    obtain ⟨key, htail, hhead⟩ := h.waitsFor_iff.mp hwaits
    have hi : r.Wants i key := h.mem_line.mp (List.mem_of_mem_tail htail)
    have hj : r.Wants j key := h.mem_line.mp (List.mem_of_head? hhead)
    refine ⟨?_, key, hi, hj⟩
    have hsorted := h.sorted_line key
    obtain ⟨rest, hline⟩ := List.head?_eq_some_iff.mp hhead
    rw [hline, List.tail_cons] at htail
    rw [hline] at hsorted
    exact (List.pairwise_cons.mp hsorted).1 i htail
  active_keys := by
    have hperm : (r.lock.entries.map Prod.fst).Perm r.wantedKeys.dedup := by
      apply (List.perm_ext_iff_of_nodup h.lock.keys (List.nodup_dedup _)).mpr
      intro key
      rw [List.mem_dedup, mem_wantedKeys, h.mem_keys]
    rw [MutexMap.activeKeys, ← hperm.length_eq, List.length_map]

theorem lease_new : ∀ lease ∈ r.lock.leases, lease.owner ≠ r.tasks.length := by
  intro lease hlease heq
  obtain ⟨task, htask, -⟩ := h.wants_of_lease hlease
  obtain ⟨hlt, -⟩ := List.getElem?_eq_some_iff.mp htask
  omega

end Sound

/-! ## What happens -/

theorem Sound.start (h : r.Sound) (name key : String) :
    Sound { lock := r.lock.enter key r.tasks.length,
            tasks := r.tasks ++ [{ name := name, key := key }] } where
  lock := h.lock.enter key h.lease_new
  leases := by
    obtain ⟨number, hleases⟩ := h.lock.leases_enter key r.tasks.length
    rw [wanting_concat _ rfl, ← h.leases, hleases, List.map_append, List.map_singleton]

theorem Sound.allow (h : r.Sound) (number : Nat) :
    (r.modify number fun t => { t with released := true }).Sound where
  lock := h.lock
  leases := by rw [wanting_allow, ← h.leases, modify]

theorem Sound.dismiss (h : r.Sound) (hwants : r.Wants number key) :
    (r.dismiss number).2.Sound := by
  obtain ⟨lease, hlease, rfl, rfl⟩ := h.exists_lease hwants
  refine ⟨h.lock.leave hlease, ?_⟩
  rw [wanting_dismiss, ← h.leases, List.filter_map]
  exact congrArg _ (h.lock.leases_leave hlease)

theorem Sound.happens (h : r.Sound) (hhappens : Happens r r') : r'.Sound := by
  cases hhappens with
  | starts name key => exact h.start name key
  | allows number => exact h.allow number
  | goes htask hlive => exact h.dismiss ⟨_, htask, hlive, rfl⟩

theorem Sound.leads (h : r.Sound) (hleads : Leads r r') : r'.Sound := by
  induction hleads with
  | refl => exact h
  | tail _ hhappens ih => exact ih.happens hhappens

/-! ## Steps -/

theorem Sound.inside_dismiss (h : r.Sound) (hwants : r.Wants number key) :
    (r.dismiss number).2.Inside i ↔
      r.Inside i ∧ i ≠ number ∨ (r.dismiss number).1 = some i := by
  obtain ⟨lease, hlease, rfl, -⟩ := h.exists_lease hwants
  exact h.lock.holds_leave hlease

theorem released_dismiss (htask : (r.dismiss number).2.tasks[i]? = some task) :
    ∃ before, r.tasks[i]? = some before ∧ before.released = task.released := by
  rw [tasks_dismiss, List.getElem?_modify] at htask
  obtain ⟨before, hbefore, rfl⟩ := Option.map_eq_some_iff.mp htask
  refine ⟨before, hbefore, ?_⟩
  split <;> rfl

theorem length_wanting_dismiss (hwants : r.Wants number key) :
    (r.dismiss number).2.wanting.length < r.wanting.length := by
  rw [wanting_dismiss, List.length_filter_lt_length_iff_exists]
  exact ⟨(number, key), mem_wanting.mpr hwants, by simp⟩

theorem Settled.but (h : r.Settled) (number : Nat) : r.SettledBut number :=
  fun i task htask hinside _ => h i task htask hinside

theorem SettledBut.settled (h : r.SettledBut number)
    (hturn : ∀ task, r.tasks[number]? = some task → r.Inside number → task.released = false) :
    r.Settled := by
  intro i task htask hinside
  by_cases hne : i = number
  · subst hne
    exact hturn task htask hinside
  · exact h i task htask hinside hne

/-- Who was inside before and is not let in by the one who goes is not released. -/
theorem SettledBut.released_dismiss (hbut : r.SettledBut number) (h : r.Sound)
    (hwants : r.Wants number key) (htask : (r.dismiss number).2.tasks[i]? = some task)
    (hinside : (r.dismiss number).2.Inside i) (hnext : (r.dismiss number).1 ≠ some i) :
    task.released = false := by
  obtain ⟨before, hbefore, hreleased⟩ := LockRoom.released_dismiss htask
  obtain ⟨hold, hne⟩ := ((h.inside_dismiss hwants).mp hinside).resolve_right hnext
  rw [← hreleased]
  exact hbut i before hbefore hold hne

/-- When one goes the turn passes to the one who is let in. -/
theorem SettledBut.dismiss {next : Nat} (hbut : r.SettledBut number) (h : r.Sound)
    (hwants : r.Wants number key) (hnext : (r.dismiss number).1 = some next) :
    (r.dismiss number).2.SettledBut next := by
  intro i task htask hinside hne
  refine hbut.released_dismiss h hwants htask hinside ?_
  rw [hnext]
  exact fun heq => hne (Option.some.inj heq).symm

theorem SettledBut.settled_dismiss (hbut : r.SettledBut number) (h : r.Sound)
    (hwants : r.Wants number key) (hnone : (r.dismiss number).1 = none) :
    (r.dismiss number).2.Settled := by
  intro i task htask hinside
  refine hbut.released_dismiss h hwants htask hinside ?_
  rw [hnone]
  exact nofun

/-- While tasks go one after the other, only the one whose turn it is may end its body. So when no
more go, nobody inside may. -/
theorem settled_depart {fuel : Nat} (h : r.Sound) (hwants : r.Wants number key)
    (hfuel : r.wanting.length ≤ fuel) (hbut : r.SettledBut number) :
    Leads r (r.depart fuel number).2 ∧ (r.depart fuel number).2.Settled := by
  induction fuel generalizing r number key with
  | zero =>
      have hmem := mem_wanting.mpr hwants
      rw [List.eq_nil_of_length_eq_zero (Nat.le_zero.mp hfuel)] at hmem
      exact absurd hmem List.not_mem_nil
  | succ fuel ih =>
      have hsound := h.dismiss hwants
      have hgoes : Happens r (r.dismiss number).2 := by
        obtain ⟨task, htask, hlive, -⟩ := hwants
        exact .goes htask hlive
      have hfewer := length_wanting_dismiss hwants
      simp only [depart]
      cases hnext : (r.dismiss number).1 with
      | none => exact ⟨.single hgoes, hbut.settled_dismiss h hwants hnext⟩
      | some next =>
          have hturn := hbut.dismiss h hwants hnext
          have hinside : (r.dismiss number).2.Inside next :=
            (h.inside_dismiss hwants).mpr (Or.inr hnext)
          obtain ⟨nextKey, hwantsNext⟩ := hsound.served.inside_wants next hinside
          obtain ⟨t, ht, -⟩ := id hwantsNext
          rw [Option.bind_some, ht, Option.map_some]
          dsimp only
          by_cases hreleased : t.released = true
          · rw [if_pos hreleased]
            obtain ⟨hleads, hsettled⟩ := ih hsound hwantsNext (by omega) hturn
            exact ⟨.head hgoes hleads, hsettled⟩
          · rw [if_neg hreleased]
            refine ⟨.single hgoes, hturn.settled fun task htask _ => ?_⟩
            rw [ht] at htask
            rw [← Option.some.inj htask]
            exact Bool.eq_false_iff.mpr hreleased

theorem length_wanting_le (r : LockRoom) : r.wanting.length ≤ r.tasks.length := by
  have hle := List.length_filterMap_le (fun i => (r.wanted? i).map (i, ·))
    (List.range r.tasks.length)
  rwa [List.length_range] at hle

theorem getElem?_of_latest {name : String} (h : r.latest? name = some (number, task)) :
    r.tasks[number]? = some task := by
  obtain ⟨entry, hfind, hentry⟩ := Option.map_eq_some_iff.mp h
  obtain ⟨rfl, rfl⟩ := Prod.mk.inj hentry
  have hmem := List.mem_reverse.mp (List.mem_of_find?_eq_some hfind)
  exact List.mem_zipIdx_iff_getElem?.mp hmem

theorem wants_allow : (r.modify number fun t => { t with released := true }).Wants i key ↔
    r.Wants i key := by
  rw [← mem_wanting, wanting_allow, mem_wanting]

theorem getElem?_allow_of_ne (hne : i ≠ number) :
    (r.modify number fun t => { t with released := true }).tasks[i]? = r.tasks[i]? := by
  simp [modify, Ne.symm hne]

/-- Only the one who is allowed to go may have to. -/
theorem Settled.allow (h : r.Settled) (number : Nat) :
    (r.modify number fun t => { t with released := true }).SettledBut number := by
  intro i task htask hinside hne
  rw [getElem?_allow_of_ne hne] at htask
  exact h i task htask hinside

private theorem settled_start (h : r.Sound) (hsettled : r.Settled) (name key : String) :
    (r.step (.start name key)).2.Settled := by
  intro i task htask hinside
  rcases (h.lock.holds_enter key h.lease_new).mp hinside with hinside | ⟨rfl, -⟩
  · obtain ⟨-, before, hbefore, -⟩ := h.served.inside_wants i hinside
    obtain ⟨hlt, -⟩ := List.getElem?_eq_some_iff.mp hbefore
    rw [LockRoom.step, List.getElem?_append_left hlt] at htask
    exact hsettled i task htask hinside
  · rw [LockRoom.step, List.getElem?_concat_length] at htask
    rw [← Option.some.inj htask]

/-- A step consists of things that happen, after which every task has gone as far as it can. -/
theorem settled_step (h : r.Sound) (hsettled : r.Settled) (step : LockStep) :
    Leads r (r.step step).2 ∧ (r.step step).2.Settled := by
  cases step with
  | start name key => exact ⟨.single (.starts name key), settled_start h hsettled name key⟩
  | release name =>
      rw [LockRoom.step]
      cases hlatest : r.latest? name with
      | none => exact ⟨.refl, hsettled⟩
      | some entry =>
          obtain ⟨number, task⟩ := entry
          have htask := getElem?_of_latest hlatest
          have hallows : Happens r (r.modify number fun t => { t with released := true }) :=
            .allows number
          have hbut := hsettled.allow number
          dsimp only
          split
          · next hgoes =>
            have hwants : r.Wants number task.key := ⟨task, htask, hgoes.1, rfl⟩
            obtain ⟨hleads, hsettled⟩ := settled_depart (h.allow number)
              (wants_allow.mpr hwants) (length_wanting_le _) hbut
            exact ⟨.head hallows hleads, hsettled⟩
          · next hstays =>
            refine ⟨.single hallows, hbut.settled fun _ _ hinside => ?_⟩
            obtain ⟨key, before, hbefore, hlive, -⟩ := h.served.inside_wants number hinside
            rw [htask] at hbefore
            obtain rfl := Option.some.inj hbefore
            exact absurd ⟨hlive, hinside⟩ hstays
  | abort name =>
      rw [LockRoom.step]
      cases hlatest : r.latest? name with
      | none => exact ⟨.refl, hsettled⟩
      | some entry =>
          obtain ⟨number, task⟩ := entry
          dsimp only
          split
          · next hlive =>
            have hwants : r.Wants number task.key := ⟨task, getElem?_of_latest hlatest, hlive, rfl⟩
            exact settled_depart h hwants (length_wanting_le r) (hsettled.but number)
          · exact ⟨.refl, hsettled⟩
  | look => exact ⟨.refl, hsettled⟩

/-- The room after some steps, at first without any task. -/
def after (steps : List LockStep) : LockRoom := steps.foldl (fun r step => (r.step step).2) {}

theorem settled_after (steps : List LockStep) :
    (after steps).Sound ∧ Leads {} (after steps) ∧ (after steps).Settled := by
  induction steps using List.reverseRecOn with
  | nil =>
      refine ⟨sound_empty, .refl, ?_⟩
      intro i task htask
      exact nomatch htask
  | append_singleton steps step ih =>
      obtain ⟨hsound, hleads, hsettled⟩ := ih
      obtain ⟨hstep, hnext⟩ := settled_step hsound hsettled step
      have hafter : after (steps ++ [step]) = ((after steps).step step).2 := List.foldl_append
      rw [hafter]
      exact ⟨hsound.leads hstep, hleads.trans hstep, hnext⟩

/-- Whatever steps tasks take at a lock, those who want a key are served in the order in which they
started, one at a time and apart from all other keys, and the lock knows the keys that are wanted
and no others. This holds when every task has gone as far as it can, as each has after a step, and
at each moment until then. -/
theorem after_served (steps : List LockStep) :
    (after steps).Served ∧ (after steps).Settled ∧ Leads {} (after steps) ∧
      ∀ r, Leads (after steps) r → r.Served := by
  obtain ⟨hsound, hleads, hsettled⟩ := settled_after steps
  exact ⟨hsound.served, hsettled, hleads, fun r hr => (hsound.leads hr).served⟩

/-- Three tasks want a key. The second is dropped while it waits, and the first one ends. -/
private def handingOver : List LockStep :=
  [.start "a" "order", .start "b" "order", .start "c" "order", .start "d" "refund", .abort "b",
    .release "a"]

theorem after_served_handingOver :
    (after handingOver).tasks.map (·.live) = [false, false, true, true] ∧
      (after handingOver).Inside 2 ∧ (∀ j, (after handingOver).Wants j "order" → 2 ≤ j) ∧
      (after handingOver).lock.activeKeys = 2 := by
  have hserved := (after_served handingOver).1
  have hwants : (after handingOver).Wants 2 "order" := ⟨_, rfl, rfl, rfl⟩
  have hinside : (after handingOver).lock.holds 2 = true := by decide
  have hkeys : (after handingOver).wantedKeys.dedup.length = 2 := by decide
  refine ⟨by decide, hinside, (hserved.first_inside 2 "order" hwants).mp hinside, ?_⟩
  rw [hserved.active_keys, hkeys]

end Courier.LockRoom
