import Courier.Json.Codec
import Courier.Proofs.Json.Reading
import Mathlib.Tactic

/-!
Strings survive being written and read. Every byte of a text stands in a JSON string by itself or
behind a backslash, and the reader of the string's body gives the byte back either way; so a
quoted text is taken up to its closing quote and no further, whatever follows.
-/

namespace Courier.Json

open Reader

namespace Reader

/-- A code unit below 32 stands for the byte of the same value. -/
private theorem utf8_control : ∀ n < 32, utf8 n = [n.toUInt8] := by
  decide

private theorem hexValue_digit : ∀ n < 16, hexValue (byte (Nat.digitChar n)) = some n := by
  decide

theorem takes_hexEscape {a b d e : UInt8} {va vb vd ve : Nat} (rest : Bytes)
    (ha : hexValue a = some va) (hb : hexValue b = some vb) (hd : hexValue d = some vd)
    (he : hexValue e = some ve) :
    hexEscape.Takes [a, b, d, e] rest (((va * 16 + vb) * 16 + vd) * 16 + ve) := by
  intro i
  simp only [hexEscape, get_bind, set_bind, List.cons_append, List.nil_append, ha, hb, hd, he]
  rfl

/-- The escape of a control character by its code unit, behind the backslash. -/
theorem takes_escape_control {b : UInt8} (h : b < 32) (rest : Bytes) :
    escape.Takes ([byte 'u', byte '0', byte '0'] ++ controlDigits b) rest [b] := by
  have hb : b.toNat < 32 := h
  apply takes_bind (t := [byte 'u']) (takes_next _ _)
  have hunit : hexEscape.Takes ([byte '0', byte '0'] ++ controlDigits b) rest b.toNat := by
    have hzero : hexValue (byte '0') = some 0 := by decide
    have hread := takes_hexEscape rest hzero hzero
      (hexValue_digit (b.toNat / 16) (by omega)) (hexValue_digit (b.toNat % 16) (by omega))
    have hvalue : ((0 * 16 + 0) * 16 + b.toNat / 16) * 16 + b.toNat % 16 = b.toNat := by omega
    rwa [hvalue] at hread
  have hbytes : utf8 b.toNat = [b] := by
    rw [utf8_control b.toNat hb]
    simp
  apply takes_last hunit
  rw [if_neg (by omega), if_pos (Or.inl (by omega)), hbytes]
  exact takes_pure _ _

/-- An escape by a letter, behind the backslash. -/
theorem takes_escape_simple {letter b : UInt8} (hletter : letter ≠ byte 'u')
    (h : simpleEscape letter = some b) (rest : Bytes) : escape.Takes [letter] rest [b] := by
  apply takes_last (takes_next _ _)
  simp only [if_neg hletter, h]
  exact takes_pure _ _

/-- What stands for a byte in a string gives the byte back. -/
theorem takes_escapeByte {fuel : Nat} {b : UInt8} {gathered text rest result : Bytes}
    (h : (stringBody fuel (b :: gathered)).Takes text rest result) :
    (stringBody (fuel + 1) gathered).Takes (escapeByte b ++ text) rest result := by
  have escaped {code : Bytes} (hcode : escape.Takes code (text ++ rest) [b]) :
      (stringBody (fuel + 1) gathered).Takes (byte '\\' :: (code ++ text)) rest result := by
    apply takes_bind (t := [byte '\\']) (takes_next _ _)
    dsimp only
    rw [if_neg (by decide), if_pos rfl]
    exact takes_bind hcode h
  unfold escapeByte
  split_ifs with hquote hslash hb ht hn hf hr hcontrol
  · subst hquote
    exact escaped (takes_escape_simple (by decide) (by decide) _)
  · subst hslash
    exact escaped (takes_escape_simple (by decide) (by decide) _)
  · subst hb
    exact escaped (takes_escape_simple (by decide) (by decide) _)
  · subst ht
    exact escaped (takes_escape_simple (by decide) (by decide) _)
  · subst hn
    exact escaped (takes_escape_simple (by decide) (by decide) _)
  · subst hf
    exact escaped (takes_escape_simple (by decide) (by decide) _)
  · subst hr
    exact escaped (takes_escape_simple (by decide) (by decide) _)
  · exact escaped (takes_escape_control hcontrol _)
  · apply takes_bind (takes_next _ _)
    dsimp only
    rw [if_neg hquote, if_neg hslash, if_neg hcontrol]
    exact h

/-- The body of a string that holds these bytes, up to its closing quote. -/
theorem takes_stringBody (bytes : Bytes) {fuel : Nat} (hfuel : bytes.length < fuel)
    (gathered rest : Bytes) :
    (stringBody fuel gathered).Takes (bytes.flatMap escapeByte ++ [byte '"']) rest
      (gathered.reverse ++ bytes) := by
  induction bytes generalizing fuel gathered with
  | nil =>
      obtain ⟨fuel, rfl⟩ := Nat.exists_eq_succ_of_ne_zero (by simp at hfuel; omega : fuel ≠ 0)
      apply takes_last (takes_next _ _)
      dsimp only
      rw [if_pos rfl, List.append_nil]
      exact takes_pure _ _
  | cons b bytes ih =>
      obtain ⟨fuel, rfl⟩ := Nat.exists_eq_succ_of_ne_zero (by simp at hfuel; omega : fuel ≠ 0)
      have hrest := @ih fuel (by simpa using hfuel) (b :: gathered)
      rw [List.flatMap_cons, List.append_assoc]
      simpa using takes_escapeByte hrest

end Reader

theorem length_le_escaped (bytes : Bytes) : bytes.length ≤ (bytes.flatMap escapeByte).length := by
  induction bytes with
  | nil => simp
  | cons b bytes ih =>
      have hone : 1 ≤ (escapeByte b).length := by
        unfold escapeByte
        split_ifs <;> simp
      simp only [List.flatMap_cons, List.length_append, List.length_cons]
      omega

/-- A quoted text behind its opening quote. -/
theorem Reader.takes_string (s : String) (rest : Bytes) :
    Reader.string.Takes ((Bytes.ofString s).flatMap escapeByte ++ [byte '"']) rest s := by
  refine takes_get fun i => ?_
  have hlong := length_le_escaped (Bytes.ofString s)
  refine takes_last (takes_stringBody (Bytes.ofString s) ?_ [] rest) ?_
  · simp only [List.length_append]
    omega
  · simp only [List.reverse_nil, List.nil_append, Bytes.toString?_ofString]
    exact takes_pure _ _

end Courier.Json
