/-!
Spans of time, exact to the nanosecond and bounded: the longest span is one nanosecond short of
`2 ^ 64` seconds. Arithmetic that would leave the range stays at its ends, so no operation on
spans can fail. `Duration.text` is the shortest exact spelling in the largest unit that fits.
-/

namespace Courier

/-- A span of time in whole nanoseconds, below `2 ^ 64` seconds. -/
structure Duration where
  nanos : Nat
  nanos_lt : nanos < 0x1_0000_0000_0000_0000 * 1_000_000_000
  deriving DecidableEq

namespace Duration

def maxNanos : Nat := 0x1_0000_0000_0000_0000 * 1_000_000_000 - 1

/-- The span of `n` nanoseconds, or the longest span if that is shorter. -/
def ofNanos (n : Nat) : Duration :=
  ⟨min n maxNanos, by unfold maxNanos; omega⟩

def zero : Duration := ofNanos 0

instance : Inhabited Duration := ⟨zero⟩

def ofSecs (n : Nat) : Duration := ofNanos (n * 1_000_000_000)

def ofMillis (n : Nat) : Duration := ofNanos (n * 1_000_000)

def secs (d : Duration) : Nat := d.nanos / 1_000_000_000

def subsecNanos (d : Duration) : Nat := d.nanos % 1_000_000_000

def millis (d : Duration) : Nat := d.nanos / 1_000_000

def micros (d : Duration) : Nat := d.nanos / 1_000

def add (a b : Duration) : Duration := ofNanos (a.nanos + b.nanos)

def sub (a b : Duration) : Duration := ofNanos (a.nanos - b.nanos)

def scale (a : Duration) (k : Nat) : Duration := ofNanos (a.nanos * k)

instance : LE Duration := ⟨fun a b => a.nanos ≤ b.nanos⟩
instance : LT Duration := ⟨fun a b => a.nanos < b.nanos⟩
instance (a b : Duration) : Decidable (a ≤ b) := inferInstanceAs (Decidable (a.nanos ≤ b.nanos))
instance (a b : Duration) : Decidable (a < b) := inferInstanceAs (Decidable (a.nanos < b.nanos))

def min (a b : Duration) : Duration := if a ≤ b then a else b

@[simp] theorem nanos_ofNanos (n : Nat) : (ofNanos n).nanos = Min.min n maxNanos := rfl

theorem nanos_le (d : Duration) : d.nanos ≤ maxNanos := by
  have := d.nanos_lt
  unfold maxNanos
  omega

theorem ext_nanos {a b : Duration} (h : a.nanos = b.nanos) : a = b := by
  cases a
  cases b
  simp_all

theorem ofNanos_nanos (d : Duration) : ofNanos d.nanos = d :=
  ext_nanos (by simp [Nat.min_eq_left d.nanos_le])

theorem nanos_min (a b : Duration) : (min a b).nanos = Min.min a.nanos b.nanos := by
  unfold min
  by_cases h : a.nanos ≤ b.nanos
  · rw [if_pos (show a ≤ b from h), Nat.min_eq_left h]
  · rw [if_neg (show ¬ a ≤ b from h), Nat.min_eq_right (by omega)]

/-- Seconds and milliseconds in 64 bits stay below the longest span. -/
theorem nanos_ofSecs_toNat (n : UInt64) : (ofSecs n.toNat).nanos = n.toNat * 1_000_000_000 := by
  have := n.toNat_lt
  rw [ofSecs, nanos_ofNanos, maxNanos]
  omega

theorem nanos_ofMillis_toNat (n : UInt64) : (ofMillis n.toNat).nanos = n.toNat * 1_000_000 := by
  have := n.toNat_lt
  rw [ofMillis, nanos_ofNanos, maxNanos]
  omega

theorem ofMillis_toNat_le_iff {a b : UInt64} : ofMillis a.toNat ≤ ofMillis b.toNat ↔ a ≤ b := by
  change (ofMillis a.toNat).nanos ≤ (ofMillis b.toNat).nanos ↔ a ≤ b
  rw [nanos_ofMillis_toNat, nanos_ofMillis_toNat, UInt64.le_iff_toNat_le]
  omega

/-- The digits of `part`, a fraction in units of one over ten to the `places`, without the zeros
that end them. -/
def fractionDigits (places part : Nat) : List Char :=
  let digits := Nat.toDigits 10 part
  let padded := List.replicate (places - digits.length) '0' ++ digits
  (padded.reverse.dropWhile (· == '0')).reverse

/-- A whole number and a fraction of so many places, without superfluous zeros. -/
private def decimal (whole places part : Nat) : String :=
  match fractionDigits places part with
  | [] => toString whole
  | ds => toString whole ++ "." ++ String.ofList ds

/-- The exact spelling of a span in the largest of the units s, ms, µs and ns in which it has a
whole part: `61.5s`, `1ms`, `1.5µs`, `0ns`. -/
def text (d : Duration) : String :=
  if 1_000_000_000 ≤ d.nanos then
    decimal (d.nanos / 1_000_000_000) 9 (d.nanos % 1_000_000_000) ++ "s"
  else if 1_000_000 ≤ d.nanos then decimal (d.nanos / 1_000_000) 6 (d.nanos % 1_000_000) ++ "ms"
  else if 1_000 ≤ d.nanos then decimal (d.nanos / 1_000) 3 (d.nanos % 1_000) ++ "µs"
  else toString d.nanos ++ "ns"

end Duration
end Courier
