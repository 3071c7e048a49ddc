/-!
Texts as bytes. A text is written as its UTF-8 bytes and read back from them; bytes that are not
the form of any text can still be shown, with a replacement character for each part that has to be
given up. Main statement: a text reads back from its bytes.
-/

namespace Courier

/-- A sequence of bytes, as it travels on the bus. -/
abbrev Bytes := List UInt8

namespace Bytes

def ofString (s : String) : Bytes := s.toByteArray.data.toList

/-- The text whose UTF-8 form these bytes are, if they are one. -/
def toString? (bytes : Bytes) : Option String := String.fromUTF8? ⟨bytes.toArray⟩

theorem toString?_ofString (s : String) : toString? (ofString s) = some s := by
  simp [toString?, ofString, String.fromUTF8?, String.fromUTF8, s.isValidUTF8]

/-- An unfinished character: its bits so far, how many bytes it lacks, and the bounds on the next
of them. -/
structure Unfinished where
  bits : Nat
  lacks : Nat
  low : Nat
  high : Nat

/-- How a character begins that has this byte first, or its only byte. The bounds on the second
byte leave out overlong forms, surrogates and numbers that are too large. -/
def start (b : Nat) : Option (Char ⊕ Unfinished) :=
  if b < 0x80 then some (.inl (Char.ofNat b))
  else if b < 0xc2 then none
  else if b < 0xe0 then some (.inr ⟨b - 0xc0, 1, 0x80, 0xbf⟩)
  else if b < 0xf0 then
    some (.inr ⟨b - 0xe0, 2, if b = 0xe0 then 0xa0 else 0x80, if b = 0xed then 0x9f else 0xbf⟩)
  else if b < 0xf5 then
    some (.inr ⟨b - 0xf0, 3, if b = 0xf0 then 0x90 else 0x80, if b = 0xf4 then 0x8f else 0xbf⟩)
  else none

/-- The character that stands for a part that cannot be read. -/
def replacement : Char := Char.ofNat 0xfffd

/-- The characters of the bytes, where each longest unfinished character, and each byte that can
begin none, gives one replacement character. -/
def lossyChars : Option Unfinished → Bytes → List Char
  | none, [] => []
  | some _, [] => [replacement]
  | none, b :: rest => opening b.toNat rest
  | some p, b :: rest =>
    if p.low ≤ b.toNat ∧ b.toNat ≤ p.high then
      let bits := p.bits * 64 + (b.toNat - 0x80)
      if p.lacks ≤ 1 then Char.ofNat bits :: lossyChars none rest
      else lossyChars (some ⟨bits, p.lacks - 1, 0x80, 0xbf⟩) rest
    else replacement :: opening b.toNat rest
where
  opening (b : Nat) (rest : Bytes) : List Char :=
    match start b with
    | some (.inl c) => c :: lossyChars none rest
    | some (.inr p) => lossyChars (some p) rest
    | none => replacement :: lossyChars none rest

/-- How many bytes stand before the first one that is no part of a character. `complete` bytes are
known to be characters, and `begun` more to begin one. -/
def validLength (complete begun : Nat) : Option Unfinished → Bytes → Nat
  | _, [] => complete
  | none, b :: rest =>
    match start b.toNat with
    | some (.inl _) => validLength (complete + 1) 0 none rest
    | some (.inr p) => validLength complete 1 (some p) rest
    | none => complete
  | some p, b :: rest =>
    if p.low ≤ b.toNat ∧ b.toNat ≤ p.high then
      if p.lacks ≤ 1 then validLength (complete + begun + 1) 0 none rest
      else validLength complete (begun + 1) (some ⟨0, p.lacks - 1, 0x80, 0xbf⟩) rest
    else complete

/-- The bytes as a text, with replacement characters where they are none. -/
def toStringLossy (bytes : Bytes) : String := String.ofList (lossyChars none bytes)

end Bytes
end Courier
