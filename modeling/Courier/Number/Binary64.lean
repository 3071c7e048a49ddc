/-!
Finite binary floating-point numbers of 64 bits, in exact arithmetic on natural numbers. A number
is a significand times a power of two; `Binary64.round` gives the number nearest to a fraction, a
tie going to the even significand, or nothing if that is beyond the largest number.
-/

namespace Courier

/-- The number `significand * 2 ^ exponent`, or its negative. There is a negative zero. -/
structure Binary64 where
  negative : Bool
  significand : Nat
  exponent : Int
  deriving DecidableEq, Repr

namespace Binary64

/-- The least exponent. Numbers below `2 ^ 52` times its power have fewer bits. -/
def minExponent : Int := -1074

/-- The exponent of the largest number. -/
def maxExponent : Int := 971

def zero : Binary64 := ⟨false, 0, minExponent⟩

def isZero (x : Binary64) : Bool := x.significand == 0

def neg (x : Binary64) : Binary64 := { x with negative := !x.negative }

/-- The quotient of two naturals to the nearest natural, a tie to the even one. -/
def divToEven (num den : Nat) : Nat :=
  let q := num / den
  let r := num % den
  if 2 * r < den then q
  else if den < 2 * r then q + 1
  else q + q % 2

/-- A fraction divided by a power of two, as a fraction. -/
def scaleDown (num den : Nat) (exponent : Int) : Nat × Nat :=
  if 0 ≤ exponent then (num, den <<< exponent.toNat)
  else (num <<< (-exponent).toNat, den)

/-- The number nearest to a fraction, if it is finite. -/
def round (num den : Nat) : Option Binary64 :=
  if num = 0 then some zero
  else
    let guess : Int := num.log2 - den.log2 - 53
    let (n, d) := scaleDown num den guess
    let exponent := max (if n / d < 0x20_0000_0000_0000 then guess else guess + 1) minExponent
    let (n, d) := scaleDown num den exponent
    let m := divToEven n d
    let (m, exponent) :=
      if m = 0x20_0000_0000_0000 then (0x10_0000_0000_0000, exponent + 1) else (m, exponent)
    if exponent ≤ maxExponent then some ⟨false, m, exponent⟩ else none

def fraction (x : Binary64) : Nat × Nat :=
  if 0 ≤ x.exponent then (x.significand <<< x.exponent.toNat, 1)
  else (x.significand, 1 <<< (-x.exponent).toNat)

/-- The number nearest to `n * 10 ^ k`, if it is finite. Beyond the range of exponents the powers
of ten are not computed. -/
def ofDecimal (n : Nat) (k : Int) : Option Binary64 :=
  let size : Int := (Nat.toDigits 10 n).length + k
  if n = 0 ∨ size < -330 then some zero
  else if 310 < size then none
  else if 0 ≤ k then round (n * Nat.pow 10 k.toNat) 1
  else round n (Nat.pow 10 (-k).toNat)

def mulAbs (x y : Binary64) : Option Binary64 :=
  let (a, b) := x.fraction
  let (c, d) := y.fraction
  round (a * c) (b * d)

def divAbs (x y : Binary64) : Option Binary64 :=
  let (a, b) := x.fraction
  let (c, d) := y.fraction
  round (a * d) (b * c)

end Binary64
end Courier
