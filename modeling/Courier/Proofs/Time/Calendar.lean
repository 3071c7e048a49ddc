import Courier.Time.Calendar
import Mathlib.Tactic

/-!
Counting days and naming dates undo each other. A day of an era is taken apart into centuries,
spans of four years, years and days; the closed formula for its year is the one that these parts
give, and the leap days are exactly the days that stand behind 365 others of their year.
-/

namespace Courier
namespace Calendar

/-- So many centuries, spans of four years, years and days from the beginning of an era. The last
year of a span has a day more, unless the span ends a century that does not end the era. -/
structure EraParts (centuries spans years days : Int) : Prop where
  centuries_nonneg : 0 ≤ centuries
  centuries_le : centuries ≤ 3
  spans_nonneg : 0 ≤ spans
  spans_le : spans ≤ 24
  years_nonneg : 0 ≤ years
  years_le : years ≤ 3
  days_nonneg : 0 ≤ days
  days_le : days ≤ 365
  leap_day : days = 365 → years = 3 ∧ (spans = 24 → centuries = 3)

/-- The day of an era that parts make up. -/
def dayOfEra (centuries spans years days : Int) : Int :=
  36524 * centuries + 1461 * spans + 365 * years + days

theorem exists_eraParts {d : Int} (hlow : 0 ≤ d) (hhigh : d < 146097) :
    ∃ c q k s, EraParts c q k s ∧ d = dayOfEra c q k s := by
  obtain ⟨c, r, hc, hr, hd⟩ : ∃ c r : Int, (0 ≤ c ∧ c ≤ 3) ∧
      (0 ≤ r ∧ r < 36524 ∨ c = 3 ∧ r = 36524) ∧ d = 36524 * c + r :=
    ⟨min (d / 36524) 3, d - 36524 * min (d / 36524) 3, by omega, by omega, by omega⟩
  obtain ⟨q, t, hq, ht, hr'⟩ : ∃ q t : Int, (0 ≤ q ∧ q ≤ 24) ∧
      (0 ≤ t ∧ t < 1461 ∧ (q = 24 → c = 3 ∨ t < 1460)) ∧ r = 1461 * q + t :=
    ⟨r / 1461, r % 1461, by omega, by omega, by omega⟩
  obtain ⟨k, s, hk, hs, ht'⟩ : ∃ k s : Int, (0 ≤ k ∧ k ≤ 3) ∧
      (0 ≤ s ∧ s ≤ 365 ∧ (s = 365 → k = 3)) ∧ t = 365 * k + s :=
    ⟨min (t / 365) 3, t - 365 * min (t / 365) 3, by omega, by omega, by omega⟩
  refine ⟨c, q, k, s, ⟨hc.1, hc.2, hq.1, hq.2, hk.1, hk.2, hs.1, hs.2.1, ?_⟩, ?_⟩
  · intro hday
    have hyears := hs.2.2 hday
    exact ⟨hyears, fun hspans => (ht.2.2 hspans).resolve_right (by omega)⟩
  · rw [dayOfEra]
    omega

/-- The formula for the year of an era gives the years of the parts. -/
theorem yearOfEra_eq {c q k s d : Int} (h : EraParts c q k s) (hd : d = dayOfEra c q k s) :
    (d - d / 1460 + d / 36524 - d / 146096) / 365 = 100 * c + 4 * q + k := by
  obtain ⟨hc, hc', hq, hq', hk, hk', hs, hs', hleap⟩ := h
  rw [dayOfEra] at hd
  obtain ⟨x, hx, hx'⟩ : ∃ x : Int, d / 1460 = 25 * c + q + x ∧
      (x = 0 ∧ s < 365 ∨ x = 1 ∧ 1 ≤ s) := by
    by_cases hcarry : 1460 ≤ 24 * c + q + 365 * k + s
    · exact ⟨1, by omega, by omega⟩
    · exact ⟨0, by omega, by omega⟩
  have hlast : d / 36524 - d / 146096 = c := by
    obtain ⟨r, hr⟩ : ∃ r, r = 1461 * q + 365 * k + s := ⟨_, rfl⟩
    have hlast : r < 36524 ∨ r = 36524 ∧ c = 3 := by omega
    have hr' : 0 ≤ r := by omega
    have hd : d = 36524 * c + r := by omega
    rcases hlast with hrest | ⟨hrest, hcentury⟩
    · have hnone : d / 146096 = 0 := by omega
      omega
    · omega
  omega

/-- The year in which the leap day of some parts falls is a leap year. -/
theorem isLeap_of_leap_day {c q k s : Int} (h : EraParts c q k s) (era : Int) (hs : s = 365) :
    isLeap (400 * era + 100 * c + 4 * q + k + 1) = true := by
  obtain ⟨hc, hc', hq, hq', -, -, -, -, hleap⟩ := h
  obtain ⟨hk, hcentury⟩ := hleap hs
  simp only [isLeap, Bool.and_eq_true, Bool.or_eq_true, beq_iff_eq, bne_iff_ne]
  refine ⟨by omega, ?_⟩
  by_cases hspans : q = 24
  · have := hcentury hspans
    exact Or.inr (by omega)
  · exact Or.inl (by omega)

end Calendar

namespace Date

open Calendar

/-- The day of a year that begins in March, for the day of a month counted from March. -/
private theorem month_bounds {s m : Int} (hs : 0 ≤ s) (hs' : s ≤ 365) (hm : m = (5 * s + 2) / 153) :
    0 ≤ m ∧ m ≤ 11 ∧ 1 ≤ s - (153 * m + 2) / 5 + 1 ∧ s - (153 * m + 2) / 5 + 1 ≤ 31 ∧
      (m = 11 → s - (153 * m + 2) / 5 + 1 ≤ s - 336) ∧
      (m = 1 ∨ m = 3 ∨ m = 6 ∨ m = 8 → s - (153 * m + 2) / 5 + 1 ≤ 30) ∧
      (10 ≤ m ↔ 306 ≤ s) := by
  refine ⟨by omega, by omega, by omega, by omega, by omega, by omega, by omega⟩

/-- A date by the parts of its day: its year, month and day. -/
private theorem ofDays_eq {era c q k s : Int} (h : EraParts c q k s) {m : Int}
    (hm : m = (5 * s + 2) / 153) :
    ofDays (era * 146097 + dayOfEra c q k s - 719468) =
      if m < 10 then
        ⟨400 * era + 100 * c + 4 * q + k, (m + 3).toNat, (s - (153 * m + 2) / 5 + 1).toNat⟩
      else
        ⟨400 * era + 100 * c + 4 * q + k + 1, (m - 9).toNat,
          (s - (153 * m + 2) / 5 + 1).toNat⟩ := by
  have hyear := yearOfEra_eq h rfl
  have hparts := h
  obtain ⟨hc, hc', hq, hq', hk, hk', hs, hs', hleap⟩ := hparts
  have hrange : 0 ≤ dayOfEra c q k s ∧ dayOfEra c q k s < 146097 := by
    rw [dayOfEra]
    omega
  have hshift : era * 146097 + dayOfEra c q k s - 719468 + 719468 =
      era * 146097 + dayOfEra c q k s := by omega
  have hera : (era * 146097 + dayOfEra c q k s) / 146097 = era := by omega
  have hday : (era * 146097 + dayOfEra c q k s) % 146097 = dayOfEra c q k s := by omega
  have hspans : (100 * c + 4 * q + k) / 4 = 25 * c + q := by omega
  have hcenturies : (100 * c + 4 * q + k) / 100 = c := by omega
  have hdayOfYear : dayOfEra c q k s - (365 * (100 * c + 4 * q + k) + (25 * c + q) - c) = s := by
    rw [dayOfEra]
    omega
  have hmonth := month_bounds hs hs' hm
  simp only [ofDays, hshift, hera, hday, hyear, hspans, hcenturies, hdayOfYear, ← hm]
  by_cases hlate : m < 10
  · have hmonths : ¬ m + 3 ≤ 2 := by omega
    simp only [if_pos hlate, if_neg hmonths]
    congr 1
    omega
  · have hmonths : m - 9 ≤ 2 := by omega
    simp only [if_neg hlate, if_pos hmonths]
    congr 1
    omega

/-- Every day is that of some parts in some era. -/
private theorem exists_parts (days : Int) : ∃ era c q k s, EraParts c q k s ∧
    days = era * 146097 + dayOfEra c q k s - 719468 := by
  obtain ⟨c, q, k, s, hparts, hd⟩ :=
    exists_eraParts (d := (days + 719468) % 146097) (by omega) (by omega)
  exact ⟨(days + 719468) / 146097, c, q, k, s, hparts, by omega⟩

theorem toDays_ofDays (days : Int) : (ofDays days).toDays = days := by
  obtain ⟨era, c, q, k, s, hparts, rfl⟩ := exists_parts days
  obtain ⟨m, hm⟩ : ∃ m, m = (5 * s + 2) / 153 := ⟨_, rfl⟩
  obtain ⟨hm0, hm11, hd1, hd31, -, -, hlate⟩ :=
    month_bounds hparts.days_nonneg hparts.days_le hm
  rw [ofDays_eq hparts hm]
  obtain ⟨hc, hc', hq, hq', hk, hk', hs, hs', hleap⟩ := hparts
  by_cases hearly : m < 10
  · have hmonth : ¬ (m + 3).toNat ≤ 2 := by omega
    have hfrom : ((m + 3).toNat : Int) - 3 = m := by omega
    simp only [if_pos hearly, toDays, if_neg hmonth, hfrom, dayOfEra]
    omega
  · have hmonth : (m - 9).toNat ≤ 2 := by omega
    have hfrom : ((m - 9).toNat : Int) + 9 = m := by omega
    simp only [if_neg hearly, toDays, if_pos hmonth, hfrom, dayOfEra]
    omega

theorem isValid_ofDays (days : Int) : (ofDays days).IsValid := by
  obtain ⟨era, c, q, k, s, hparts, rfl⟩ := exists_parts days
  obtain ⟨m, hm⟩ : ∃ m, m = (5 * s + 2) / 153 := ⟨_, rfl⟩
  obtain ⟨hm0, hm11, hd1, hd31, hfeb, hshort, hlate⟩ :=
    month_bounds hparts.days_nonneg hparts.days_le hm
  rw [ofDays_eq hparts hm]
  by_cases hearly : m < 10
  · rw [if_pos hearly]
    refine ⟨by simp only; omega, by simp only; omega, by simp only; omega, ?_⟩
    simp only
    interval_cases m <;> simp [daysIn] <;> omega
  · rw [if_neg hearly]
    refine ⟨by simp only; omega, by simp only; omega, by simp only; omega, ?_⟩
    simp only
    rcases (by omega : m = 10 ∨ m = 11) with rfl | rfl
    · simp [daysIn]
      omega
    · have hleap := isLeap_of_leap_day hparts era
      have hfeb := hfeb rfl
      have hdays := hparts.days_le
      simp only [daysIn]
      rw [if_pos (by decide)]
      split
      · omega
      · next hcommon =>
        have hday : s ≠ 365 := fun h => hcommon (hleap h)
        omega

/-- The years of the days between two moments of the years -262143 and 262142. -/
theorem year_ofDays (days : Int) (hlow : -96465293 < days) (hhigh : days < 95026237) :
    -262143 ≤ (ofDays days).year ∧ (ofDays days).year ≤ 262142 := by
  obtain ⟨era, c, q, k, s, hparts, rfl⟩ := exists_parts days
  obtain ⟨m, hm⟩ : ∃ m, m = (5 * s + 2) / 153 := ⟨_, rfl⟩
  obtain ⟨-, -, -, -, -, -, hlate⟩ := month_bounds hparts.days_nonneg hparts.days_le hm
  rw [ofDays_eq hparts hm]
  obtain ⟨hc, hc', hq, hq', hk, hk', hs, hs', -⟩ := hparts
  rw [dayOfEra] at hlow hhigh
  have hera : era < 655 ∨ era = 655 ∨ 655 < era := by omega
  by_cases hearly : m < 10
  · rw [if_pos hearly]
    simp only
    omega
  · rw [if_neg hearly]
    simp only
    rcases hera with hera | rfl | hera <;> omega

end Date
end Courier
