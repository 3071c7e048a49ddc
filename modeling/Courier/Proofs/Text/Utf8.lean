import Courier.Text.Utf8
import Mathlib.Tactic.Common

/-!
Bytes that are a text are shown as that text. The reader that replaces what it cannot read goes
over the form of a character byte by byte: the first byte says how many more there are and how the
next one is bounded, and each of them adds six bits. A character never comes out of these bounds.
-/

namespace Courier.Bytes

variable {bits lacks low high n : Nat} {p : Unfinished} {rest : Bytes}

private theorem toNat_ofNat (h : n < 0x100) : (UInt8.ofNat n).toNat = n := by
  rw [UInt8.toNat_ofNat']
  omega

/-! ## First bytes -/

theorem lossyChars_first (hn : n < 0x100) (h : start n = some (.inr p)) :
    lossyChars none (UInt8.ofNat n :: rest) = lossyChars (some p) rest := by
  rw [lossyChars, lossyChars.opening, toNat_ofNat hn, h]

theorem lossyChars_single (h : n < 0x80) :
    lossyChars none (UInt8.ofNat n :: rest) = Char.ofNat n :: lossyChars none rest := by
  rw [lossyChars, lossyChars.opening, toNat_ofNat (by omega), start, if_pos h]

theorem start_of_two (hlow : 2 ≤ n) (hhigh : n < 0x20) :
    start (n + 0xc0) = some (.inr ⟨n, 1, 0x80, 0xbf⟩) := by
  rw [start, if_neg (by omega), if_neg (by omega), if_pos (by omega), Nat.add_sub_cancel]

/-- The bounds on the second byte leave out overlong forms and surrogates. -/
theorem start_of_three (h : n < 0x10) :
    start (n + 0xe0) = some (.inr ⟨n, 2, if n = 0 then 0xa0 else 0x80,
      if n = 0xd then 0x9f else 0xbf⟩) := by
  rw [start, if_neg (by omega), if_neg (by omega), if_neg (by omega), if_pos (by omega),
    Nat.add_sub_cancel]
  simp

/-- The bounds on the second byte leave out overlong forms and numbers that are too large. -/
theorem start_of_four (h : n < 5) :
    start (n + 0xf0) = some (.inr ⟨n, 3, if n = 0 then 0x90 else 0x80,
      if n = 4 then 0x8f else 0xbf⟩) := by
  rw [start, if_neg (by omega), if_neg (by omega), if_neg (by omega), if_neg (by omega),
    if_pos (by omega), Nat.add_sub_cancel]
  simp

/-! ## Further bytes -/

/-- A further byte adds its six bits. -/
theorem lossyChars_more (hlow : low ≤ n % 0x40 + 0x80) (hhigh : n % 0x40 + 0x80 ≤ high) :
    lossyChars (some ⟨bits, lacks + 2, low, high⟩) (UInt8.ofNat (n % 0x40 + 0x80) :: rest) =
      lossyChars (some ⟨bits * 64 + n % 0x40, lacks + 1, 0x80, 0xbf⟩) rest := by
  rw [lossyChars, toNat_ofNat (by omega), if_pos ⟨hlow, hhigh⟩, if_neg (by simp),
    Nat.add_sub_cancel]
  rfl

/-- The last one completes the character. -/
theorem lossyChars_last (hlow : low ≤ n % 0x40 + 0x80) (hhigh : n % 0x40 + 0x80 ≤ high) :
    lossyChars (some ⟨bits, 1, low, high⟩) (UInt8.ofNat (n % 0x40 + 0x80) :: rest) =
      Char.ofNat (bits * 64 + n % 0x40) :: lossyChars none rest := by
  rw [lossyChars, toNat_ofNat (by omega), if_pos ⟨hlow, hhigh⟩, if_pos (Nat.le_refl 1),
    Nat.add_sub_cancel]

/-! ## Characters and texts -/

/-- The form of a character is read as that character, whatever follows. -/
theorem lossyChars_utf8EncodeChar (c : Char) (rest : Bytes) :
    lossyChars none (String.utf8EncodeChar c ++ rest) = c :: lossyChars none rest := by
  have hvalid : c.val.toNat < 0xd800 ∨ 0xdfff < c.val.toNat ∧ c.val.toNat < 0x110000 := c.valid
  have hchar : Char.ofNat c.val.toNat = c := Char.ofNat_toNat c
  unfold String.utf8EncodeChar
  generalize c.val.toNat = v at hvalid hchar ⊢
  dsimp only
  split_ifs with hone htwo hthree
  · exact hchar ▸ lossyChars_single (by omega)
  · have hlead : v / 64 % 0x20 = v / 64 := by omega
    have hbits : v / 64 * 64 + v % 0x40 = v := by omega
    simp only [List.cons_append, List.nil_append]
    rw [hlead, lossyChars_first (by omega) (start_of_two (by omega) (by omega)),
      lossyChars_last (by omega) (by omega), hbits, hchar]
  · have hlead : v / 4096 % 0x10 = v / 4096 := by omega
    have hbits : (v / 4096 * 64 + v / 64 % 0x40) * 64 + v % 0x40 = v := by omega
    simp only [List.cons_append, List.nil_append]
    rw [hlead, lossyChars_first (by omega) (start_of_three (by omega)),
      lossyChars_more (by split <;> omega) (by split <;> omega),
      lossyChars_last (by omega) (by omega), hbits, hchar]
  · have hlead : v / 262144 % 0x08 = v / 262144 := by omega
    have hbits :
        ((v / 262144 * 64 + v / 4096 % 0x40) * 64 + v / 64 % 0x40) * 64 + v % 0x40 = v := by omega
    simp only [List.cons_append, List.nil_append]
    rw [hlead, lossyChars_first (by omega) (start_of_four (by omega)),
      lossyChars_more (by split <;> omega) (by split <;> omega),
      lossyChars_more (by omega) (by omega), lossyChars_last (by omega) (by omega), hbits, hchar]

theorem ofString_eq (s : String) : ofString s = s.toList.flatMap String.utf8EncodeChar := by
  conv_lhs => rw [← String.ofList_toList (s := s)]
  simp only [ofString, String.toByteArray_ofList, List.utf8Encode, List.toList_data_toByteArray]

/-- A text is shown as it is. -/
theorem toStringLossy_ofString (s : String) : toStringLossy (ofString s) = s := by
  have hchars (cs : List Char) : lossyChars none (cs.flatMap String.utf8EncodeChar) = cs := by
    induction cs with
    | nil => rw [List.flatMap_nil, lossyChars]
    | cons c cs ih => rw [List.flatMap_cons, lossyChars_utf8EncodeChar, ih]
  rw [toStringLossy, ofString_eq, hchars, String.ofList_toList]

/-- Bytes are the form of the text that they are read as. -/
theorem ofString_of_toString? {bytes : Bytes} {s : String} (h : toString? bytes = some s) :
    ofString s = bytes := by
  unfold toString? String.fromUTF8? at h
  split at h
  · obtain rfl := Option.some.inj h
    rfl
  · exact nomatch h

/-- Bytes that are a text are shown in full. -/
theorem ofString_toStringLossy {bytes : Bytes} (h : (toString? bytes).isSome) :
    ofString (toStringLossy bytes) = bytes := by
  obtain ⟨s, hs⟩ := Option.isSome_iff_exists.mp h
  rw [← ofString_of_toString? hs, toStringLossy_ofString]

end Courier.Bytes
