/-!
Letters beyond ASCII in the names of hosts. A label is written as its ASCII characters and a row
of numbers that say where the others belong. The numbers are written in base 36 with digits whose
weights adapt to the sizes seen so far.
-/

namespace Courier.Url.Punycode

def digit (n : Nat) : Char := if n < 26 then Char.ofNat (97 + n) else Char.ofNat (22 + n)

def digitValue (c : Char) : Option Nat :=
  if 'a' ≤ c ∧ c ≤ 'z' then some (c.toNat - 97)
  else if 'A' ≤ c ∧ c ≤ 'Z' then some (c.toNat - 65)
  else if c.isDigit then some (c.toNat - 22)
  else none

theorem digitValue_digit {n : Nat} (h : n < 36) : digitValue (digit n) = some n := by
  have all : ∀ m < 36, digitValue (digit m) = some m := by decide
  exact all n h

/-- A digit below this ends a number. It depends on the place of the digit. -/
def threshold (place bias : Nat) : Nat := min 26 (max 1 (place - bias))

/-- Halves a difference, so to speak, until it is small, counting places. -/
def settle (delta places : Nat) : Nat × Nat :=
  if 455 < delta then settle (delta / 35) (places + 36) else (delta, places)
termination_by delta
decreasing_by exact Nat.div_lt_self (by omega) (by omega)

/-- The bias after a number, when so many characters are placed. -/
def adapt (delta count : Nat) (isFirst : Bool) : Nat :=
  let delta := if isFirst then delta / 700 else delta / 2
  let (delta, places) := settle (delta + delta / count) 0
  places + 36 * delta / (delta + 38)

theorem threshold_bounds (place bias : Nat) :
    1 ≤ threshold place bias ∧ threshold place bias ≤ 26 := by
  unfold threshold
  omega

/-- The digits of a number from a place on. -/
def writeNumber (bias place n : Nat) : List Char :=
  let t := threshold place bias
  if n < t then [digit n]
  else digit (t + (n - t) % (36 - t)) :: writeNumber bias (place + 36) ((n - t) / (36 - t))
termination_by n
decreasing_by
  have := threshold_bounds place bias
  exact Nat.lt_of_le_of_lt (Nat.div_le_self _ _) (by omega)

/-- What has been written, and what the next number depends on. -/
structure Progress where
  written : List Char
  delta : Nat
  bias : Nat
  placed : Nat

/-- Goes past a character of the label while those of one code point are placed. -/
def pass (basic codePoint : Nat) (p : Progress) (c : Char) : Progress :=
  if c.toNat < codePoint then { p with delta := p.delta + 1 }
  else if c.toNat = codePoint then
    { written := p.written ++ writeNumber p.bias 36 p.delta
      delta := 0
      bias := adapt p.delta (p.placed + 1) (p.placed == basic)
      placed := p.placed + 1 }
  else p

/-- Places the characters of one code point after another, in ascending order. -/
def place (label : List Char) (basic : Nat) : List Nat → Nat → Progress → List Char
  | [], _, p => p.written
  | codePoint :: rest, reached, p =>
    let p := { p with delta := p.delta + (codePoint - reached) * (p.placed + 1) }
    let p := label.foldl (pass basic codePoint) p
    place label basic rest (codePoint + 1) { p with delta := p.delta + 1 }

/-- The written form of a label, without the mark that says that it is one. -/
def encode (label : List Char) : List Char :=
  let basic := label.filter (·.toNat < 128)
  let others := (label.filter (128 ≤ ·.toNat)).map Char.toNat
  let start := if basic.isEmpty then [] else basic ++ ['-']
  place label basic.length (others.mergeSort.eraseDups) 128 ⟨start, 0, 72, basic.length⟩

/-- Reads a number from a place on: its value added to `sum`, and the digits behind it. -/
def readNumber (bias : Nat) : List Char → Nat → Nat → Nat → Option (Nat × List Char)
  | [], _, _, _ => none
  | c :: rest, place, weight, sum => do
    let n ← digitValue c
    let t := threshold place bias
    if n < t then some (sum + n * weight, rest)
    else readNumber bias rest (place + 36) (weight * (36 - t)) (sum + n * weight)

/-- Inserts the characters that the numbers place. -/
def insert : Nat → Nat → Nat → Nat → List Char → List Char → Option (List Char)
  | 0, _, _, _, _, _ => none
  | _, _, _, _, label, [] => some label
  | fuel + 1, bias, codePoint, shift, label, numbers => do
    let (sum, rest) ← readNumber bias numbers 36 1 shift
    let count := label.length + 1
    let codePoint := codePoint + sum / count
    if codePoint.isValidChar then
      insert fuel (adapt (sum - shift) count (shift == 0)) codePoint (sum % count + 1)
        (label.insertIdx (sum % count) (Char.ofNat codePoint)) rest
    else none

/-- The label of a written form. -/
def decode (cs : List Char) : Option (List Char) :=
  let numbers := (cs.reverse.takeWhile (· ≠ '-')).reverse
  let basic := (cs.take (cs.length - numbers.length)).dropLast
  if basic.any (128 ≤ ·.toNat) then none
  else insert (numbers.length + 1) 72 128 0 basic numbers

end Courier.Url.Punycode
