import Courier.Uuid
import Mathlib.Tactic

/-!
An identifier is read back from its text.
-/

namespace Courier.Uuid

/-! ## Digits -/

private theorem digitValue_digit : ∀ n < 16, digitValue (digit n) = some n := by
  decide

theorem length_digits (count n : Nat) : (digits count n).length = count := by
  induction count with
  | zero => rfl
  | succ count ih => simp [digits, ih]

/-- Digits behind others add their number to that of the others. -/
private theorem foldl_digits (count n acc : Nat) :
    (digits count n).foldl (fun acc c => do return (← acc) * 16 + (← digitValue c)) (some acc) =
      some (acc * 16 ^ count + n % 16 ^ count) := by
  induction count generalizing acc with
  | zero => simp [digits, Nat.mod_one]
  | succ count ih =>
      have hdigit := digitValue_digit (n / 16 ^ count % 16) (Nat.mod_lt _ (by decide))
      have hsplit : n % 16 ^ (count + 1) =
          16 ^ count * (n / 16 ^ count % 16) + n % 16 ^ count := by
        rw [pow_succ, Nat.mod_mul, Nat.add_comm]
      have hstep : (do return (← some acc) * 16 + (← digitValue (digit (n / 16 ^ count % 16)))) =
          some (acc * 16 + n / 16 ^ count % 16) := by
        rw [hdigit]
        rfl
      have hpow : Nat.pow 16 count = 16 ^ count := rfl
      rw [digits, hpow, List.foldl_cons, hstep, ih, hsplit]
      congr 1
      ring

theorem value_digits (count n : Nat) : value (digits count n) = some (n % 16 ^ count) := by
  rw [value, foldl_digits, Nat.zero_mul, Nat.zero_add]

theorem ofDigits?_digits (u : Uuid) : ofDigits? (digits 32 u.bits.toNat) = some u := by
  have hbits : u.bits.toNat % 16 ^ 32 = u.bits.toNat := Nat.mod_eq_of_lt u.bits.isLt
  rw [ofDigits?, if_pos (length_digits _ _), value_digits, hbits]
  simp

/-! ## Groups -/

/-- Cutting into groups is undone by taking the hyphens out. -/
theorem ungroup_grouped {ns : List Nat} {cs : List Char} (hne : ns ≠ [])
    (h : cs.length = ns.sum) : ungroup ns (grouped ns cs) = some cs := by
  induction ns generalizing cs with
  | nil => exact absurd rfl hne
  | cons n ns ih =>
      rw [List.sum_cons] at h
      cases ns with
      | nil =>
          have hlength : cs.length = n := by simpa using h
          rw [grouped, List.take_of_length_le (by omega), ungroup, if_pos hlength]
      | cons m ns =>
          have htaken : (cs.take n).length = n := by
            rw [List.length_take]
            omega
          have hdrop : (grouped (n :: m :: ns) cs).drop n =
              '-' :: grouped (m :: ns) (cs.drop n) := by
            rw [grouped, List.drop_left' htaken]
            simp
          have htake : (grouped (n :: m :: ns) cs).take n = cs.take n := by
            rw [grouped, List.take_left' htaken]
            simp
          have hrest := @ih (cs.drop n) (by simp) (by rw [List.length_drop]; omega)
          rw [ungroup, hdrop]
          · simp only [hrest, htake, Option.map_some, List.take_append_drop]
          · simp

private theorem digit_plain : ∀ n < 16, (digit n).toLower ≠ 'u' ∧ digit n ≠ '\x7b' := by
  decide

/-- A text that begins with a digit stands alone. -/
private theorem unwrap_digit {n : Nat} (h : n < 16) (cs : List Char) :
    unwrap (digit n :: cs) = (digit n :: cs, 0, true) := by
  obtain ⟨hlower, hbrace⟩ := digit_plain n h
  have hurn : ((digit n :: cs).take 9).map Char.toLower ≠ urn := by
    intro heq
    exact hlower (List.cons.inj heq).1
  rw [unwrap, if_neg hurn]
  intro rest heq
  exact hbrace (List.cons.inj heq).1

/-! ## Texts -/

theorem ofText_text (u : Uuid) : ofText u.text = .ok u := by
  have hungroup : ungroup groupLengths u.chars = some (digits 32 u.bits.toNat) :=
    ungroup_grouped (by decide) (length_digits _ _)
  have hunwrap : unwrap u.chars = (u.chars, 0, true) :=
    unwrap_digit (Nat.mod_lt _ (by decide)) _
  simp only [ofText, text, String.toList_ofList, hunwrap, hungroup, ofDigits?_digits]

end Courier.Uuid
