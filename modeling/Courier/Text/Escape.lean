/-!
Characters spelled behind a backslash, as quoted texts in settings have them: a letter for a
control character, or a number of four or eight hexadecimal digits.
-/

namespace Courier.Text

/-- A reader of the beginning of a text: what it read and the text behind it, or nothing. -/
abbrev Reader (α : Type) := List Char → Option (α × List Char)

/-- The value of a digit below a base up to sixteen. -/
def digitBelow (base : Nat) (c : Char) : Option Nat :=
  let n :=
    if c.isDigit then c.toNat - 48
    else if 'a' ≤ c ∧ c ≤ 'f' then c.toNat - 87
    else if 'A' ≤ c ∧ c ≤ 'F' then c.toNat - 55
    else base
  if n < base then some n else none

/-- The value of digits in a base, if there are only such. -/
def numeral (base : Nat) (cs : List Char) : Option Nat :=
  cs.foldl (fun value c => do return (← value) * base + (← digitBelow base c)) (some 0)

/-- The character with the number that so many hexadecimal digits spell. -/
def codePoint (count : Nat) : Reader Char := fun cs => do
  if cs.length < count then none
  let value ← numeral 16 (cs.take count)
  if value.isValidChar then some (Char.ofNat value, cs.drop count) else none

/-- The character that a single one stands for behind a backslash. -/
def letterEscape (c : Char) : Option Char :=
  if c = 'b' then some '\x08'
  else if c = 't' then some '\t'
  else if c = 'n' then some '\n'
  else if c = 'f' then some '\x0c'
  else if c = 'r' then some '\r'
  else if c = '"' ∨ c = '\\' then some c
  else none

/-- The character spelled behind a backslash. -/
def escape : Reader Char
  | [] => none
  | c :: rest =>
    if c = 'u' then codePoint 4 rest
    else if c = 'U' then codePoint 8 rest
    else (letterEscape c).map (·, rest)

end Courier.Text
