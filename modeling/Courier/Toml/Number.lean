import Courier.Settings.Setting
import Courier.Text.Escape

/-!
Numbers of TOML. Underscores may stand between digits. Whole numbers are written in base ten, or
without a sign in base sixteen, eight or two, and have 64 bits; a number with a fraction or an
exponent is a floating-point number, which must not be too large.
-/

namespace Courier.Toml

open Text (Reader)

/-- Whether a character is a digit of a base. -/
def isDigitOf (base : Nat) (c : Char) : Bool := (Text.digitBelow base c).isSome

/-- The digits that follow another. An underscore stands before a digit only. -/
def moreDigits (base : Nat) : Reader (List Char)
  | '_' :: c :: rest =>
    if isDigitOf base c then (moreDigits base rest).map fun (ds, rest) => (c :: ds, rest)
    else none
  | c :: rest =>
    if c = '_' then none
    else if isDigitOf base c then (moreDigits base rest).map fun (ds, rest) => (c :: ds, rest)
    else some ([], c :: rest)
  | [] => some ([], [])

/-- Digits of a base, at least one. -/
def digits (base : Nat) : Reader (List Char)
  | [] => none
  | c :: rest =>
    if isDigitOf base c then (moreDigits base rest).map fun (ds, rest) => (c :: ds, rest)
    else none

/-- A sign, if there is one: whether it is a minus. -/
def sign : List Char → Bool × List Char
  | '-' :: rest => (true, rest)
  | '+' :: rest => (false, rest)
  | cs => (false, cs)

/-- Digits of base ten that begin with no zero, or a zero alone. -/
def wholeDigits : Reader (List Char)
  | '0' :: rest => some (['0'], rest)
  | cs => digits 10 cs

/-- A whole number without a sign, in a base. -/
def based (base : Nat) : Reader Int := fun cs => do
  let (ds, rest) ← digits base cs
  let n ← Text.numeral base ds
  return ((n : Int), rest)

def decimal : Reader Int := fun cs => do
  let (negative, cs) := sign cs
  let (ds, rest) ← wholeDigits cs
  let n ← Text.numeral 10 ds
  return (if negative then -(n : Int) else n, rest)

/-- A whole number of any size. -/
def wholeNumber : Reader Int
  | '0' :: 'x' :: rest => based 16 rest
  | '0' :: 'o' :: rest => based 8 rest
  | '0' :: 'b' :: rest => based 2 rest
  | cs => decimal cs

/-- A whole number, if it fits in 64 bits. -/
def integer : Reader Int := fun cs => do
  let (value, rest) ← wholeNumber cs
  if -0x8000_0000_0000_0000 ≤ value ∧ value < 0x8000_0000_0000_0000 then some (value, rest)
  else none

/-- The exponent of a number. -/
def exponent : Reader Int
  | [] => none
  | e :: rest =>
    if e = 'e' ∨ e = 'E' then do
      let (negative, rest) := sign rest
      let (ds, rest) ← digits 10 rest
      let n ← Text.numeral 10 ds
      return (if negative then -(n : Int) else n, rest)
    else none

/-- A number with a fraction, an exponent or both. -/
def float : Reader Real := fun cs => do
  let (negative, cs) := sign cs
  match cs with
  | 'i' :: 'n' :: 'f' :: rest => some (.infinite negative, rest)
  | 'n' :: 'a' :: 'n' :: rest => some (.notANumber, rest)
  | _ =>
    let (whole, rest) ← wholeDigits cs
    let (fraction, power, rest) ← match rest with
      | '.' :: rest => do
        let (fraction, rest) ← digits 10 rest
        match exponent rest with
        | some (power, rest) => some (fraction, power, rest)
        | none => some (fraction, 0, rest)
      | rest => (exponent rest).map fun (power, rest) => ([], power, rest)
    let n ← Text.numeral 10 (whole ++ fraction)
    let x ← Binary64.ofDecimal n (power - fraction.length)
    return (.finite { x with negative }, rest)

end Courier.Toml
