import Courier.Proofs.Time.Calendar
import Courier.Proofs.Time.Instant
import Courier.Time.Rfc3339
import Mathlib.Data.List.TakeWhile

/-!
What becomes of a moment that is written and read back. Every part is written with a fixed number
of digits, or is followed by something that is no digit, so the reader of the part stops just
behind it. Only at the end of a minute is there a text for the second half of a leap second: that
of second 60. Elsewhere it is written as the second that follows, and read as that. So a moment is
read as its text tells, and of every text that is read the moment is one that texts can tell.
-/

namespace Courier
namespace Rfc3339

/-! ## Digits -/

/-- What a number may stand in front of: nothing, or something that is no digit. -/
def Ends (rest : List Char) : Prop := ∀ c ∈ rest.head?, c.isDigit = false

theorem digitsValue_padded (width n : Nat) : digitsValue (padded width n) = n := by
  have hvalue (ds : List Char) : digitsValue ds = Nat.ofDigitChars 10 ds 0 := by
    simp only [digitsValue, Nat.ofDigitChars_eq_foldl, Nat.mul_comm]
  rw [hvalue, padded, Nat.ofDigitChars_append, Nat.ofDigitChars_replicate_zero, Nat.mul_zero,
    Nat.ofDigitChars_ten_toDigits]

theorem isDigit_of_mem_padded {width n : Nat} {c : Char} (h : c ∈ padded width n) :
    c.isDigit = true := by
  rcases List.mem_append.mp h with h | h
  · rw [List.eq_of_mem_replicate h]
    decide
  · exact Nat.isDigit_of_mem_toDigits (by decide) (by decide) h

theorem length_padded {width n : Nat} (hpos : 0 < width) (h : n < 10 ^ width) :
    (padded width n).length = width := by
  have hle : (Nat.toDigits 10 n).length ≤ width :=
    (Nat.length_toDigits_le_iff (by decide) hpos).mpr h
  simp only [padded, List.length_append, List.length_replicate]
  omega

theorem padded_eq_cons (width n : Nat) : ∃ c cs, padded width n = c :: cs := by
  refine List.exists_cons_of_ne_nil fun hnil => ?_
  exact Nat.toDigits_ne_nil (List.append_eq_nil_iff.mp hnil).2

/-- Leading digits end where no digit follows, or where there may be no more of them. -/
theorem leadingDigits_append {limit : Nat} {ds rest : List Char}
    (hdigits : ∀ c ∈ ds, c.isDigit = true)
    (hend : ds.length = limit ∨ ds.length ≤ limit ∧ Ends rest) :
    leadingDigits limit (ds ++ rest) = ds := by
  rcases hend with hlimit | ⟨hlimit, hrest⟩
  · rw [leadingDigits, List.take_left' hlimit, List.takeWhile_eq_self_iff]
    exact hdigits
  · have hstop : (rest.take (limit - ds.length)).takeWhile Char.isDigit = [] := by
      cases hr : rest.take (limit - ds.length) with
      | nil => rfl
      | cons c cs =>
          have hhead : c ∈ rest.head? := by
            cases rest with
            | nil => simp at hr
            | cons d rest =>
                cases hcount : limit - ds.length with
                | zero => simp [hcount] at hr
                | succ count =>
                    rw [hcount, List.take_succ_cons] at hr
                    rw [(List.cons.inj hr).1]
                    rfl
          rw [List.takeWhile_cons_of_neg]
          rw [hrest c hhead]
          decide
    rw [leadingDigits, List.take_append, List.take_of_length_le hlimit,
      List.takeWhile_append_of_pos hdigits, hstop, List.append_nil]

theorem number_padded {limit width n : Nat} {rest : List Char} (hn : n < 0x8000_0000_0000_0000)
    (hend : (padded width n).length = limit ∨ (padded width n).length ≤ limit ∧ Ends rest) :
    number limit (padded width n ++ rest) = .ok (n, rest) := by
  obtain ⟨c, cs, hcs⟩ := padded_eq_cons width n
  rw [number, leadingDigits_append (fun d hd => isDigit_of_mem_padded hd) hend, hcs]
  simp only
  rw [← hcs, digitsValue_padded, if_pos hn, List.drop_left]

/-! ## Parts -/

private theorem not_blank_of_digit {c : Char} (h : c.isDigit = true) :
    Text.isBlank c = false := by
  simp only [Char.isDigit, Bool.and_eq_true, decide_eq_true_eq, ge_iff_le,
    UInt32.le_iff_toNat_le] at h
  obtain ⟨hlow, hhigh⟩ := h
  change 48 ≤ c.toNat at hlow
  change c.toNat ≤ 57 at hhigh
  simp only [Text.isBlank, Bool.or_eq_false_iff, Bool.and_eq_false_iff, decide_eq_false_iff_not,
    beq_eq_false_iff_ne]
  omega

private theorem skipBlanks_cons {c : Char} (h : Text.isBlank c = false) (cs : List Char) :
    Text.skipBlanks (c :: cs) = c :: cs :=
  List.dropWhile_cons_of_neg (by rw [h]; decide)

private theorem skipBlanks_padded (width n : Nat) (rest : List Char) :
    Text.skipBlanks (padded width n ++ rest) = padded width n ++ rest := by
  obtain ⟨c, cs, hcs⟩ := padded_eq_cons width n
  have hdigit : c.isDigit = true := isDigit_of_mem_padded (hcs ▸ List.mem_cons_self ..)
  rw [hcs, List.cons_append]
  exact skipBlanks_cons (not_blank_of_digit hdigit) _

theorem part_padded {low high n : Nat} (hlow : low ≤ n) (hhigh : n ≤ high) (hmax : high < 100)
    (rest : List Char) : part low high (padded 2 n ++ rest) = .ok (n, rest) := by
  have hlength : (padded 2 n).length = 2 := length_padded (by decide) (by omega)
  rw [part, skipBlanks_padded, number_padded (by omega) (Or.inl hlength)]
  change (if low ≤ n ∧ n ≤ high then Except.ok (n, rest) else .error Fault.outOfRange) = _
  rw [if_pos ⟨hlow, hhigh⟩]

theorem separator_cons {c : Char} (h : Text.isBlank c = false) (rest : List Char) :
    separator c (c :: rest) = .ok rest := by
  rw [separator, skipBlanks_cons h]
  simp only [if_pos]

/-- The year of a moment, in front of the hyphen behind it. -/
theorem year_yearText {y : Int} (hlow : -262143 ≤ y) (hhigh : y ≤ 262142) (rest : List Char) :
    year (yearText y ++ '-' :: rest) = .ok (y, '-' :: rest) := by
  have hends : Ends ('-' :: rest) := by
    intro c hc
    obtain rfl : '-' = c := by simpa using hc
    decide
  have hbounded : ∀ tail, year.bounded y tail = .ok (y, tail) := by
    intro tail
    rw [year.bounded, if_pos (by omega)]
  have hsigned (n : Nat) (hn : n < 0x8000_0000_0000_0000) :
      number (padded 4 n ++ '-' :: rest).length (padded 4 n ++ '-' :: rest) =
        .ok (n, '-' :: rest) :=
    number_padded hn (Or.inr ⟨by simp, hends⟩)
  rw [yearText]
  split
  · next hfour =>
    have hlength : (padded 4 y.toNat).length = 4 := length_padded (by decide) (by omega)
    obtain ⟨c, cs, hcs⟩ := padded_eq_cons 4 y.toNat
    have hdigit : c.isDigit = true := isDigit_of_mem_padded (hcs ▸ List.mem_cons_self ..)
    have hread := @number_padded 4 4 y.toNat ('-' :: rest) (by omega) (Or.inl hlength)
    have hvalue : ((y.toNat : Nat) : Int) = y := by omega
    rw [year, skipBlanks_padded]
    rw [hcs, List.cons_append] at hread ⊢
    split
    · next heq =>
      rw [(List.cons.inj heq).1] at hdigit
      exact absurd hdigit (by decide)
    · next heq =>
      rw [(List.cons.inj heq).1] at hdigit
      exact absurd hdigit (by decide)
    · simp only [hread, bind, Except.bind, hvalue, hbounded]
  · split
    · rw [List.cons_append, year, skipBlanks_cons (by decide)]
      have hvalue : -((y.natAbs : Nat) : Int) = y := by omega
      simp only [hsigned y.natAbs (by omega), bind, Except.bind, hvalue, hbounded]
    · rw [List.cons_append, year, skipBlanks_cons (by decide)]
      have hvalue : ((y.toNat : Nat) : Int) = y := by omega
      simp only [hsigned y.toNat (by omega), bind, Except.bind, hvalue, hbounded]

/-- The digits of a fraction, in front of the mark of universal time. -/
private theorem fraction_padded {width n : Nat} (hpos : 0 < width) (hwidth : width ≤ 9)
    (hn : n < 10 ^ width) :
    fraction ('.' :: padded width n ++ ['Z']) = .ok (n * 10 ^ (9 - width), ['Z']) := by
  have hlength := length_padded hpos hn
  have hmax : n < 0x8000_0000_0000_0000 := by
    have := Nat.pow_le_pow_right (n := 10) (by decide) hwidth
    omega
  have hread : number 9 (padded width n ++ ['Z']) = .ok (n, ['Z']) := by
    refine number_padded hmax (Or.inr ⟨by omega, ?_⟩)
    intro c hc
    obtain rfl : 'Z' = c := by simpa using hc
    decide
  have hcount : (padded width n ++ ['Z']).length - ['Z'].length = width := by simp [hlength]
  rw [List.cons_append, fraction]
  simp only
  rw [hread]
  change Except.ok (n * Nat.pow 10 (9 - ((padded width n ++ ['Z']).length - ['Z'].length)),
    ['Z'].dropWhile Char.isDigit) = _
  rw [hcount]
  rfl

theorem fraction_fractionText {n : Nat} (h : n < 1_000_000_000) :
    fraction (fractionText n ++ ['Z']) = .ok (n, ['Z']) := by
  rw [fractionText]
  split
  · next hzero =>
    subst hzero
    rfl
  · split
    · rw [fraction_padded (by decide) (by decide) (by omega)]
      congr 2
      omega
    · split
      · rw [fraction_padded (by decide) (by decide) (by omega)]
        congr 2
        omega
      · rw [fraction_padded (by decide) (by decide) h, Nat.sub_self, pow_zero, Nat.mul_one]

end Rfc3339

/-! ## Moments -/

namespace Instant

/-- Texts can tell the moment: it lies in the second half of a leap second only at the end of a
minute. -/
def IsTold (t : Instant) : Prop := 1_000_000_000 ≤ t.frac → t.secs % 60 = 59

/-- The moment that the text of a moment tells. -/
def told (t : Instant) : Instant :=
  if h : 1_000_000_000 ≤ t.frac ∧ t.secs % 60 ≠ 59 then
    ⟨t.secs + 1, t.frac - 1_000_000_000, by have := t.frac_lt; omega, by have := t.first_le; omega,
      by have := t.le_last; omega⟩
  else t

variable {t : Instant}

theorem told_eq_self (h : t.IsTold) : t.told = t := dif_neg fun hpast => hpast.2 (h hpast.1)

theorem told_of_not_isTold (h : ¬ t.IsTold) :
    t.told.secs = t.secs + 1 ∧ t.told.frac + 1_000_000_000 = t.frac := by
  obtain ⟨hleap, hother⟩ := Classical.not_imp.mp h
  rw [told, dif_pos ⟨hleap, hother⟩]
  exact ⟨rfl, Nat.sub_add_cancel hleap⟩

theorem isTold_told (t : Instant) : t.told.IsTold := by
  by_cases h : t.IsTold
  · rwa [told_eq_self h]
  · intro hleap
    have hfrac := t.frac_lt
    have hparts := told_of_not_isTold h
    omega

theorem told_eq_self_iff : t.told = t ↔ t.IsTold :=
  ⟨fun h => h ▸ t.isTold_told, told_eq_self⟩

/-- A moment and the one that is told of it are as far from 1970. -/
theorem nanosSinceEpoch_told (t : Instant) : t.told.nanosSinceEpoch = t.nanosSinceEpoch := by
  by_cases h : t.IsTold
  · rw [told_eq_self h]
  · have hparts := told_of_not_isTold h
    unfold nanosSinceEpoch
    omega

/-- What is told of a moment is no earlier. -/
theorem le_told (t : Instant) : t ≤ t.told := by
  by_cases h : t.IsTold
  · rw [told_eq_self h]
    exact Int.le_refl _
  · have hparts := told_of_not_isTold h
    change t.key ≤ t.told.key
    unfold key
    omega

end Instant

namespace Rfc3339

/-- A moment has the text of the one that is told of it. -/
theorem write_told (t : Instant) : write t.told = write t := by
  by_cases h : t.IsTold
  · rw [Instant.told_eq_self h]
  · obtain ⟨hleap, hother⟩ := Classical.not_imp.mp h
    obtain ⟨hsecs, hfrac⟩ := Instant.told_of_not_isTold h
    have hlimit := t.frac_lt
    -- the next second is of the same minute, so only its own two digits differ
    obtain ⟨second, hsecond⟩ : ∃ second, second = (t.secs % 86400).toNat := ⟨_, rfl⟩
    have hdays : (t.secs + 1) / 86400 = t.secs / 86400 := by omega
    have hnext : ((t.secs + 1) % 86400).toNat = second + 1 := by omega
    have hhour : (second + 1) / 3600 = second / 3600 := by omega
    have hminute : (second + 1) / 60 % 60 = second / 60 % 60 := by omega
    have htext : (second + 1) % 60 + t.told.frac / 1_000_000_000 =
        second % 60 + t.frac / 1_000_000_000 := by omega
    have hfraction : t.told.frac % 1_000_000_000 = t.frac % 1_000_000_000 := by omega
    simp only [write, hsecs, hdays, hnext, ← hsecond, hhour, hminute, htext, hfraction]

/-- The date and time of a moment, with its leap second if it is in one, name the moment. -/
private theorem moment_eq {t : Instant} (hleap : t.IsTold) :
    moment (Date.ofDays (t.secs / 86400)) ((t.secs % 86400).toNat / 3600)
      ((t.secs % 86400).toNat / 60 % 60) ((t.secs % 86400).toNat % 60 + t.frac / 1_000_000_000)
      (t.frac % 1_000_000_000) 0 = .ok t := by
  have hfrac := t.frac_lt
  have hfirst := t.first_le
  have hlast := t.le_last
  have hyear := Date.year_ofDays (t.secs / 86400) (by omega) (by omega)
  have hvalid := Date.isValid_ofDays (t.secs / 86400)
  obtain ⟨second, hsecond⟩ : ∃ second, second = (t.secs % 86400).toNat := ⟨_, rfl⟩
  obtain ⟨leap, hvalue⟩ : ∃ leap, leap = t.frac / 1_000_000_000 := ⟨_, rfl⟩
  rw [← hsecond, ← hvalue]
  have hmark : (if second % 60 + leap = 60 then 1 else 0) = leap := by
    by_cases hin : 1_000_000_000 ≤ t.frac
    · have := hleap hin
      rw [if_pos (by omega)]
      omega
    · rw [if_neg (by omega)]
      omega
  have hfraction : t.frac % 1_000_000_000 + leap * 1_000_000_000 = t.frac := by omega
  have hsecs : (Date.ofDays (t.secs / 86400)).toDays * 86400 +
      ((second / 3600 * 3600 + second / 60 % 60 * 60 + (second % 60 + leap - leap) : Nat) : Int)
        - 0 = t.secs := by
    rw [Date.toDays_ofDays]
    omega
  rw [moment, if_neg (not_not.mpr ⟨hyear.1, hyear.2, hvalid⟩), if_neg (by decide)]
  simp only [hmark, hfraction, hsecs]
  rw [Instant.of?, dif_pos ⟨hfrac, hfirst, hlast⟩]

private theorem read_write_of_isTold {t : Instant} (hleap : t.IsTold) :
    read (write t) = .ok t := by
  have hfrac := t.frac_lt
  have hfirst := t.first_le
  have hlast := t.le_last
  have hyear := Date.year_ofDays (t.secs / 86400) (by omega) (by omega)
  have hvalid := Date.isValid_ofDays (t.secs / 86400)
  obtain ⟨hmonth, hmonth', hday, hday'⟩ := hvalid
  have hdays : (Date.ofDays (t.secs / 86400)).day ≤ 31 := by
    apply hday'.trans
    rw [Calendar.daysIn]
    split_ifs <;> decide
  have hhour : (t.secs % 86400).toNat / 3600 ≤ 23 := by omega
  have hminute : (t.secs % 86400).toNat / 60 % 60 ≤ 59 := by omega
  have hsecond : (t.secs % 86400).toNat % 60 + t.frac / 1_000_000_000 ≤ 60 := by omega
  have hmark (rest : List Char) : dateTimeMark ('T' :: rest) = .ok rest := rfl
  have hoffset : offset (Text.skipBlanks ['Z']) = .ok (0, []) := by decide
  simp only [read, write, List.append_assoc, List.cons_append, bind, Except.bind,
    year_yearText hyear.1 hyear.2, separator_cons (c := '-') (by decide),
    part_padded hmonth hmonth' (by decide), part_padded hday hdays (by decide), hmark,
    part_padded (Nat.zero_le _) hhour (by decide), separator_cons (c := ':') (by decide),
    part_padded (Nat.zero_le _) hminute (by decide),
    part_padded (Nat.zero_le _) hsecond (by decide),
    fraction_fractionText (Nat.mod_lt t.frac (by decide : 0 < 1_000_000_000)), hoffset]
  rw [if_neg (by decide)]
  exact moment_eq hleap

/-- A moment is read as its text tells. -/
theorem read_write (t : Instant) : read (write t) = .ok t.told := by
  rw [← write_told, read_write_of_isTold t.isTold_told]

/-! ## What is read -/

private theorem ok_of_bind {α β : Type} {x : Except Fault α} {f : α → Except Fault β} {b : β}
    (h : (x >>= f) = .ok b) : ∃ a, x = .ok a ∧ f a = .ok b := by
  cases x with
  | error fault => exact nomatch h
  | ok a => exact ⟨a, rfl, h⟩

private theorem digitsValue_lt {ds : List Char} (h : ∀ d ∈ ds, d.isDigit = true) :
    digitsValue ds < 10 ^ ds.length := by
  induction ds using List.reverseRecOn with
  | nil => decide
  | append_singleton ds d ih =>
      have hvalue := ih fun c hc => h c (List.mem_append_left [d] hc)
      have hdigit := h d List.mem_concat_self
      simp only [Char.isDigit, Bool.and_eq_true, decide_eq_true_eq, ge_iff_le,
        UInt32.le_iff_toNat_le] at hdigit
      have hhigh : d.toNat ≤ 57 := hdigit.2
      have hzero : '0'.toNat = 48 := rfl
      rw [digitsValue, List.foldl_append, List.length_append, List.length_singleton, pow_succ]
      change digitsValue ds * 10 + (d.toNat - '0'.toNat) < _
      omega

/-- A number that is read is the value of the digits that are taken for it. -/
private theorem digits_of_number {limit n : Nat} {cs rest : List Char}
    (h : number limit cs = .ok (n, rest)) :
    n = digitsValue (leadingDigits limit cs) ∧
      cs.length - rest.length = (leadingDigits limit cs).length := by
  have hlength : (leadingDigits limit cs).length ≤ cs.length :=
    ((List.takeWhile_sublist _).trans (List.take_sublist _ _)).length_le
  unfold number at h
  split at h
  · split at h <;> exact nomatch h
  · split at h
    · obtain ⟨rfl, rfl⟩ := Prod.mk.inj (Except.ok.inj h)
      rw [List.length_drop]
      exact ⟨rfl, by omega⟩
    · exact nomatch h

/-- A fraction that is read is less than a second. -/
private theorem fraction_lt {cs rest : List Char} {n : Nat} (h : fraction cs = .ok (n, rest)) :
    n < 1_000_000_000 := by
  unfold fraction at h
  split at h
  · next cs =>
    obtain ⟨⟨value, after⟩, hnumber, h⟩ := ok_of_bind h
    obtain ⟨rfl, -⟩ := Prod.mk.inj (Except.ok.inj h)
    obtain ⟨rfl, hcount⟩ := digits_of_number hnumber
    have hdigits : (leadingDigits 9 cs).length ≤ 9 :=
      (List.takeWhile_sublist _).length_le.trans (List.length_take_le 9 cs)
    have hvalue := digitsValue_lt fun d (hd : d ∈ leadingDigits 9 cs) =>
      List.mem_takeWhile_imp hd
    rw [hcount]
    calc digitsValue (leadingDigits 9 cs) * 10 ^ (9 - (leadingDigits 9 cs).length)
        < 10 ^ (leadingDigits 9 cs).length * 10 ^ (9 - (leadingDigits 9 cs).length) :=
          Nat.mul_lt_mul_of_pos_right hvalue (by positivity)
      _ = 1_000_000_000 := by
          rw [← pow_add, Nat.add_sub_cancel' hdigits]
          rfl
  · obtain ⟨rfl, -⟩ := Prod.mk.inj (Except.ok.inj h)
    decide

private theorem offsetSize_mod {cs rest : List Char} {size : Nat}
    (h : offsetSize cs = .ok (size, rest)) : size % 60 = 0 := by
  obtain ⟨⟨h1, h2, after⟩, -, h⟩ := ok_of_bind h
  dsimp only at h
  split at h
  · exact nomatch h
  · obtain ⟨⟨m1, m2, after⟩, -, h⟩ := ok_of_bind h
    dsimp only at h
    split at h
    · exact nomatch h
    · split at h
      · exact nomatch h
      · obtain ⟨rfl, -⟩ := Prod.mk.inj (Except.ok.inj h)
        omega

/-- Offsets are whole minutes. -/
private theorem offset_mod {cs rest : List Char} {size : Int} (h : offset cs = .ok (size, rest)) :
    size % 60 = 0 := by
  unfold offset at h
  split at h
  · obtain ⟨rfl, -⟩ := Prod.mk.inj (Except.ok.inj h)
    rfl
  · split at h
    · exact nomatch h
    · split_ifs at h
      · obtain ⟨rfl, -⟩ := Prod.mk.inj (Except.ok.inj h)
        rfl
      all_goals
        obtain ⟨⟨nat, after⟩, hsize, h⟩ := ok_of_bind h
        obtain ⟨rfl, -⟩ := Prod.mk.inj (Except.ok.inj h)
        have hwhole := offsetSize_mod hsize
        omega

private theorem isTold_of_moment {date : Date} {hour minute second nanos : Nat} {offset : Int}
    {t : Instant} (hnanos : nanos < 1_000_000_000) (hoffset : offset % 60 = 0)
    (h : moment date hour minute second nanos offset = .ok t) : t.IsTold := by
  intro hleap
  unfold moment at h
  split_ifs at h
  all_goals
    dsimp only at h
    split at h
    · next t' hparts =>
      obtain rfl := Except.ok.inj h
      obtain ⟨hsecs, hfrac⟩ := Instant.of?_eq_some_iff.mp hparts
      omega
    · exact nomatch h

/-- What is read can be told. -/
theorem isTold_of_read {cs : List Char} {t : Instant} (h : read cs = .ok t) : t.IsTold := by
  unfold read at h
  iterate 11 obtain ⟨_, -, h⟩ := ok_of_bind h
  obtain ⟨⟨nanos, after⟩, hnanos, h⟩ := ok_of_bind h
  obtain ⟨⟨size, rest⟩, hoffset, h⟩ := ok_of_bind h
  dsimp only at h
  split at h
  · exact nomatch h
  · exact isTold_of_moment (fraction_lt hnanos) (offset_mod hoffset) h

end Rfc3339

namespace Instant

theorem ofText_text (t : Instant) : ofText t.text = .ok t.told := by
  rw [ofText, text, String.toList_ofList, Rfc3339.read_write]

theorem text_told (t : Instant) : t.told.text = t.text :=
  congrArg String.ofList (Rfc3339.write_told t)

theorem isTold_of_ofText {s : String} {t : Instant} (h : ofText s = .ok t) : t.IsTold :=
  Rfc3339.isTold_of_read h

end Instant
end Courier
