import Courier.Time.Instant
import Mathlib.Tactic.Common

/-!
Moments moved by spans. What a span leads to lies in range, so spans that are too long to move any
moment lead nowhere, and from the last moment nothing later is reached. Main rule: a span leads to
the moment at which just that much time has passed, if there is such a moment.
-/

namespace Courier.Instant

variable {s later : Instant} {d : Duration}

private theorem parts_of_ofNanos {secs : Int} {nanos : Nat}
    (h : add?.ofNanos secs nanos = some later) :
    later.secs = secs + (nanos / 1_000_000_000 : Nat) ∧ later.frac = nanos % 1_000_000_000 := by
  unfold add?.ofNanos of? at h
  split at h
  · obtain rfl := Option.some.inj h
    exact ⟨rfl, rfl⟩
  · cases h

/-- The parts of a moment that a span leads to. Only within a leap second the seconds stay. -/
theorem parts_of_add? (h : s.add? d = some later) :
    (∃ nanos, d.nanos < nanos + 1_000_000_000 ∧
        later.secs = s.secs + (nanos / 1_000_000_000 : Nat) ∧
        later.frac = nanos % 1_000_000_000) ∨
      1_000_000_000 ≤ s.frac ∧ d.nanos < 1_000_000_000 ∧ later.secs = s.secs := by
  unfold add? at h
  split at h
  · next hleap =>
    split at h
    · exact Or.inl ⟨_, by omega, parts_of_ofNanos h⟩
    · next hwithin =>
      refine Or.inr ⟨hleap, by omega, ?_⟩
      unfold of? at h
      split at h
      · obtain rfl := Option.some.inj h
        rfl
      · cases h
  · exact Or.inl ⟨_, by omega, parts_of_ofNanos h⟩

/-- A span that moves some moment is short enough for it. -/
theorem canShiftBy_of_add? (h : s.add? d = some later) : canShiftBy d = true := by
  apply decide_eq_true
  have hfirst := s.first_le
  have hlast := later.le_last
  unfold maxShift
  rcases parts_of_add? h with ⟨nanos, hnanos, hsecs, -⟩ | ⟨-, hshort, -⟩
  · omega
  · omega

/-- Nothing behind the last moment is reached from a moment up to it. -/
theorem le_last_of_add? (hs : s ≤ last) (h : s.add? d = some later) : later ≤ last := by
  change s.key ≤ last.key at hs
  change later.key ≤ last.key
  have hlast := later.le_last
  unfold key last at hs ⊢
  dsimp only at hs ⊢
  rcases parts_of_add? h with ⟨nanos, -, -, hfrac⟩ | ⟨hleap, -, hsecs⟩
  · omega
  · have hfrac := later.frac_lt
    omega

/-! ## The time that passes -/

/-- The nanoseconds from one moment to a later one. A leap second that the first one lies in is
still to end before the next second begins. -/
def elapsedTo (t later : Instant) : Int :=
  later.nanosSinceEpoch - t.nanosSinceEpoch +
    if 1_000_000_000 ≤ t.frac ∧ t.secs < later.secs then 1_000_000_000 else 0

/-- A moment is reached when a span has passed. It lies in a leap second only if that had already
begun. -/
structure Follows (t : Instant) (d : Duration) (later : Instant) : Prop where
  elapsed : t.elapsedTo later = d.nanos
  begun : 1_000_000_000 ≤ later.frac → 1_000_000_000 ≤ t.frac ∧ later.secs = t.secs

theorem of?_eq_some_iff {secs : Int} {frac : Nat} :
    of? secs frac = some later ↔ later.secs = secs ∧ later.frac = frac := by
  unfold of?
  constructor
  · intro h
    split at h
    · obtain rfl := Option.some.inj h
      exact ⟨rfl, rfl⟩
    · cases h
  · rintro ⟨rfl, rfl⟩
    exact dif_pos ⟨later.frac_lt, later.first_le, later.le_last⟩

/-- Within its leap second a moment moves on without a new second. -/
private theorem follows_within_iff (hleap : 1_000_000_000 ≤ s.frac)
    (hwithin : s.frac + d.nanos < 2_000_000_000) :
    s.Follows d later ↔ later.secs = s.secs ∧ later.frac = s.frac + d.nanos := by
  have hfrac := later.frac_lt
  constructor
  · rintro ⟨helapsed, hbegun⟩
    unfold elapsedTo nanosSinceEpoch at helapsed
    split at helapsed <;> omega
  · rintro ⟨hsecs, hparts⟩
    refine ⟨?_, fun _ => ⟨hleap, hsecs⟩⟩
    unfold elapsedTo nanosSinceEpoch
    rw [if_neg (by omega)]
    omega

/-- Elsewhere, and past a leap second, each second is as long as any other. -/
private theorem follows_beyond_iff (nanos : Nat)
    (hnanos : if 1_000_000_000 ≤ s.frac then nanos + 1_000_000_000 = s.frac + d.nanos ∧
        1_000_000_000 ≤ nanos else nanos = s.frac + d.nanos) :
    s.Follows d later ↔ later.secs = s.secs + (nanos / 1_000_000_000 : Nat) ∧
      later.frac = nanos % 1_000_000_000 := by
  have hfrac := later.frac_lt
  constructor
  · rintro ⟨helapsed, hbegun⟩
    unfold elapsedTo nanosSinceEpoch at helapsed
    split at helapsed <;> split at hnanos <;> omega
  · rintro ⟨hsecs, hparts⟩
    refine ⟨?_, by omega⟩
    unfold elapsedTo nanosSinceEpoch
    split at hnanos <;> split <;> omega

/-- A span leads to the moment that follows by it. -/
theorem add?_eq_some_iff : s.add? d = some later ↔ s.Follows d later := by
  unfold add? add?.ofNanos
  split
  · next hleap =>
    split
    · next hpast =>
      rw [of?_eq_some_iff, follows_beyond_iff (s.frac - 1_000_000_000 + d.nanos)]
      rw [if_pos hleap]
      omega
    · next hwithin => rw [of?_eq_some_iff, follows_within_iff hleap (by omega)]
  · next hplain =>
    rw [of?_eq_some_iff, follows_beyond_iff (s.frac + d.nanos)]
    rw [if_neg hplain]

/-! ## Outside of leap seconds -/

theorem nanosSinceEpoch_le (h : s ≤ later) (hwhole : s.frac < 1_000_000_000) :
    s.nanosSinceEpoch ≤ later.nanosSinceEpoch := by
  change s.key ≤ later.key at h
  have hfrac := later.frac_lt
  unfold key at h
  unfold nanosSinceEpoch
  omega

/-- Time passes evenly there. -/
theorem since_eq (hwhole : s.frac < 1_000_000_000) (hlater : later.frac < 1_000_000_000) :
    later.since s = later.nanosSinceEpoch - s.nanosSinceEpoch := by
  rw [since, if_neg (by omega), if_neg (by omega)]
  exact Int.add_zero _

theorem exists_of?_iff {secs : Int} {frac : Nat} (hwhole : frac < 1_000_000_000) :
    (∃ t, of? secs frac = some t) ↔ firstSecs ≤ secs ∧ secs ≤ lastSecs := by
  unfold of? firstSecs lastSecs
  constructor
  · rintro ⟨t, ht⟩
    split at ht
    · next hparts => exact hparts.2
    · cases ht
  · intro hrange
    exact ⟨_, dif_pos ⟨by omega, hrange⟩⟩

/-- A span leads to a later moment unless that lies behind the last one. -/
theorem exists_plus_iff (hwhole : s.frac < 1_000_000_000) (d : Duration) :
    (∃ later, s.plus d = .ok later) ↔
      s.nanosSinceEpoch + d.nanos ≤ last.nanosSinceEpoch := by
  have hplus : (∃ later, s.plus d = .ok later) ↔ ∃ later, s.add? d = some later := by
    unfold plus
    cases s.add? d <;> simp
  have hfirst := s.first_le
  unfold add? add?.ofNanos at hplus
  rw [if_neg (Nat.not_le.mpr hwhole), exists_of?_iff (Nat.mod_lt _ (by decide))] at hplus
  rw [hplus]
  unfold nanosSinceEpoch last firstSecs lastSecs
  dsimp only
  omega

/-- A span leads to an earlier moment unless that lies before the first one. -/
theorem exists_minus_iff (hwhole : s.frac < 1_000_000_000) (d : Duration) :
    (∃ earlier, s.minus d = .ok earlier) ↔
      first.nanosSinceEpoch ≤ s.nanosSinceEpoch - d.nanos := by
  have hminus : (∃ earlier, s.minus d = .ok earlier) ↔ ∃ earlier, s.sub? d = some earlier := by
    unfold minus
    cases s.sub? d <;> simp
  have hlast := s.le_last
  unfold sub? sub?.ofNanos at hminus
  rw [if_neg (Nat.not_le.mpr hwhole), exists_of?_iff (by omega)] at hminus
  rw [hminus]
  unfold nanosSinceEpoch first firstSecs lastSecs
  dsimp only
  omega

end Courier.Instant
