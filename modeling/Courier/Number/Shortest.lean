import Courier.Number.Binary64

/-!
The fewest decimal digits that read back as a given binary number, and the nearest of those. The
search tries one digit, then two, and so on: with so many digits only the two decimal numbers next
to the value can be near enough.
-/

namespace Courier

/-- The decimal number `digits * 10 ^ exponent`. -/
structure Decimal where
  digits : Nat
  exponent : Int
  deriving DecidableEq, Repr

namespace Decimal

def fraction (x : Decimal) : Nat × Nat :=
  if 0 ≤ x.exponent then (x.digits * Nat.pow 10 x.exponent.toNat, 1)
  else (x.digits, Nat.pow 10 (-x.exponent).toNat)

/-- The same number without zeros at its end. -/
def strip (fuel : Nat) (x : Decimal) : Decimal :=
  match fuel with
  | 0 => x
  | fuel + 1 =>
    if x.digits ≠ 0 ∧ x.digits % 10 = 0 then strip fuel ⟨x.digits / 10, x.exponent + 1⟩ else x

end Decimal

namespace Binary64

/-- Whether a decimal number reads back as this one. -/
def isReadFrom (x : Binary64) (d : Decimal) : Bool :=
  Binary64.ofDecimal d.digits d.exponent == some { x with negative := false }

/-- The exponent of the first decimal digit of a fraction that is not zero. -/
def decimalExponent (num den : Nat) : Int :=
  let guess : Int := (Nat.toDigits 10 num).length - (Nat.toDigits 10 den).length
  if below guess then guess - 1 else guess
where
  below (k : Int) : Bool :=
    if 0 ≤ k then num < den * Nat.pow 10 k.toNat else num * Nat.pow 10 (-k).toNat < den

/-- The decimal numbers with a given last place just below and just above the value. -/
def neighbours (num den : Nat) (place : Int) : Decimal × Decimal × Bool :=
  let (n, d) := if 0 ≤ place then (num, den * Nat.pow 10 place.toNat)
    else (num * Nat.pow 10 (-place).toNat, den)
  (⟨n / d, place⟩, ⟨n / d + 1, place⟩, decide (d < 2 * (n % d) ∨ d = 2 * (n % d) ∧ n / d % 2 = 1))

/-- The first decimal number, of growing length, that reads back. -/
def search (x : Binary64) (num den : Nat) (first : Int) : Nat → Nat → Decimal
  | 0, length => (neighbours num den (first + 1 - length)).1
  | fuel + 1, length =>
    let (low, high, nearerHigh) := neighbours num den (first + 1 - length)
    match x.isReadFrom low, x.isReadFrom high with
    | true, true => if nearerHigh then high else low
    | true, false => low
    | false, true => high
    | false, false => search x num den first fuel (length + 1)

/-- The shortest decimal number that reads back as the absolute value. -/
def shortest (x : Binary64) : Decimal :=
  if x.isZero then ⟨0, 0⟩
  else
    let (num, den) := x.fraction
    (search x num den (decimalExponent num den) 17 1).strip 17

end Binary64

namespace Decimal

/-- The number in positional notation; `point` says whether a whole number ends in `.0`. -/
def positional (x : Decimal) (point : Bool) : List Char :=
  let ds := Nat.toDigits 10 x.digits
  if 0 ≤ x.exponent then
    let whole := if x.digits = 0 then ['0'] else ds ++ List.replicate x.exponent.toNat '0'
    if point then whole ++ ['.', '0'] else whole
  else
    let places := (-x.exponent).toNat
    let padded := List.replicate (places + 1 - ds.length) '0' ++ ds
    let cut := padded.length - places
    padded.take cut ++ '.' :: padded.drop cut

/-- The number with one digit before the point and a signed exponent. -/
def scientific (x : Decimal) : List Char :=
  let ds := Nat.toDigits 10 x.digits
  let power : Int := x.exponent + ds.length - 1
  let lead := match ds with
    | d :: (r :: rs) => d :: '.' :: r :: rs
    | ds => ds
  lead ++ 'e' :: (if power < 0 then '-' else '+') :: Nat.toDigits 10 power.natAbs

def leadingExponent (x : Decimal) : Int := x.exponent + (Nat.toDigits 10 x.digits).length - 1

end Decimal
end Courier
