import Courier.KeyLock
import Mathlib.Tactic.Common

/-!
Gates of a lock while some come and others go. Main rule: whoever is inside a key stays inside
until they leave it themselves, so a key never has two inside.
-/

namespace Courier.KeyLock

variable {α : Type}

private theorem lookup_others {key other : String} (h : other ≠ key)
    (gates : List (String × Gate α)) :
    (gates.filter (·.1 != key)).lookup other = gates.lookup other := by
  induction gates with
  | nil => rfl
  | cons entry gates ih =>
      obtain ⟨place, gate⟩ := entry
      by_cases hplace : place = key
      · subst hplace
        have hother : (other == place) = false := by simpa using h
        simp [List.lookup_cons, hother, ih]
      · simp [hplace, List.lookup_cons, ih]

private theorem lookup_own (key : String) (gates : List (String × Gate α)) :
    (gates.filter (·.1 != key)).lookup key = none := by
  rw [List.lookup_eq_none_iff]
  intro entry hentry
  have hne := (List.mem_filter.mp hentry).2
  simp only [bne_iff_ne, ne_eq] at hne
  simpa using Ne.symm hne

variable (l : KeyLock α) {key other : String} {who someone : α}

@[simp]
theorem gate_setGate_self (gate : Gate α) : (l.setGate key gate).gate key = gate := by
  obtain ⟨inside, waiting⟩ := gate
  unfold setGate KeyLock.gate
  dsimp only
  split
  · next hempty =>
    simp only [Bool.and_eq_true, Option.isNone_iff_eq_none, List.isEmpty_iff] at hempty
    obtain ⟨rfl, rfl⟩ := hempty
    rw [lookup_own, Option.getD_none]
  · simp [List.lookup_append, lookup_own]

theorem gate_setGate_of_ne (h : other ≠ key) (gate : Gate α) :
    (l.setGate key gate).gate other = l.gate other := by
  have hother : (other == key) = false := by simpa using h
  unfold setGate KeyLock.gate
  dsimp only
  split
  · rw [lookup_others h]
  · simp [List.lookup_append, lookup_others h, List.lookup_cons, hother]

/-- Nobody inside is displaced by someone who comes. -/
theorem inside_enter (h : (l.gate other).inside = some someone) :
    ((l.enter key who).2.gate other).inside = some someone := by
  by_cases hkey : other = key
  · subst hkey
    unfold enter
    simp [h]
  · unfold enter
    dsimp only
    split <;> rwa [gate_setGate_of_ne l hkey]

/-- Nobody inside is displaced by someone else who goes. -/
theorem inside_leave [DecidableEq α] (h : (l.gate other).inside = some someone)
    (hne : someone ≠ who) : ((l.leave key who).2.gate other).inside = some someone := by
  by_cases hkey : other = key
  · subst hkey
    have hwho : (l.gate other).inside ≠ some who := by
      rw [h]
      exact fun heq => hne (Option.some.inj heq)
    unfold leave
    dsimp only
    rw [if_neg hwho, gate_setGate_self]
    exact h
  · unfold leave
    dsimp only
    split
    · split <;> rwa [gate_setGate_of_ne l hkey]
    · rwa [gate_setGate_of_ne l hkey]

end Courier.KeyLock
