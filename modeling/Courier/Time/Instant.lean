import Courier.Time.Calendar
import Courier.Time.Duration

/-!
Moments of universal time, exact to the nanosecond, from the year -262143 to the year 262142.
A second may last two seconds on this scale, as a leap second does: the moments of its second half
carry a fraction of a thousand million nanoseconds or more. Any second can be given such a
fraction, though only the last one of a minute is ever lengthened. Moving a moment by a span either
gives a moment in range or fails; it never wraps.
-/

namespace Courier

/-- A moment: whole seconds since 1970-01-01T00:00:00 without leap seconds, and a fraction in
nanoseconds, which goes beyond a full second within a leap second. -/
structure Instant where
  secs : Int
  frac : Nat
  frac_lt : frac < 2_000_000_000
  first_le : -8334601228800 ≤ secs
  le_last : secs ≤ 8210266876799
  deriving DecidableEq

namespace Instant

/-- The seconds of the first moment, -262143-01-01T00:00:00. -/
def firstSecs : Int := -8334601228800

/-- The seconds of the last moment, +262142-12-31T23:59:59. -/
def lastSecs : Int := 8210266876799

/-- The moment with these seconds and this fraction, if there is one. -/
def of? (secs : Int) (frac : Nat) : Option Instant :=
  if h : frac < 2_000_000_000 ∧ -8334601228800 ≤ secs ∧ secs ≤ 8210266876799 then
    some ⟨secs, frac, h.1, h.2.1, h.2.2⟩
  else none

/-- The first moment, -262143-01-01T00:00:00. -/
def first : Instant := ⟨-8334601228800, 0, by decide, by decide, by decide⟩

/-- The last moment that is not in a leap second, +262142-12-31T23:59:59.999999999. -/
def last : Instant := ⟨8210266876799, 999999999, by decide, by decide, by decide⟩

def epoch : Instant := ⟨0, 0, by decide, by decide, by decide⟩

instance : Inhabited Instant := ⟨epoch⟩

/-- A number that grows with time and differs for different moments. -/
def key (t : Instant) : Int := t.secs * 2_000_000_000 + t.frac

instance : LE Instant := ⟨fun a b => a.key ≤ b.key⟩
instance : LT Instant := ⟨fun a b => a.key < b.key⟩
instance (a b : Instant) : Decidable (a ≤ b) := inferInstanceAs (Decidable (a.key ≤ b.key))
instance (a b : Instant) : Decidable (a < b) := inferInstanceAs (Decidable (a.key < b.key))

theorem ext_parts {a b : Instant} (hs : a.secs = b.secs) (hf : a.frac = b.frac) : a = b := by
  cases a
  cases b
  simp_all

theorem key_inj {a b : Instant} (h : a.key = b.key) : a = b := by
  have ha := a.frac_lt
  have hb := b.frac_lt
  unfold key at h
  exact ext_parts (by omega) (by omega)

/-- Whole milliseconds since 1970, rounded down. A leap second reaches into the next one. -/
def timestampMillis (t : Instant) : Int := t.secs * 1000 + (t.frac / 1_000_000 : Nat)

/-- Whole microseconds since 1970, rounded down. -/
def timestampMicros (t : Instant) : Int := t.secs * 1_000_000 + (t.frac / 1_000 : Nat)

/-- The moment so many microseconds after 1970, if it is in range. -/
def ofMicros? (n : Int) : Option Instant :=
  of? (n / 1_000_000) ((n % 1_000_000).toNat * 1_000)

/-- The longest span by which a moment can be moved, in nanoseconds. -/
def maxShift : Nat := 9223372036854775807 * 1_000_000

/-- The moment a span later. Within a leap second the clock runs to its end before the next
second begins. -/
def add? (t : Instant) (d : Duration) : Option Instant :=
  if 1_000_000_000 ≤ t.frac then
    if 1_000_000_000 ≤ d.nanos ∨ 2_000_000_000 ≤ t.frac + d.nanos then
      ofNanos t.secs (t.frac - 1_000_000_000 + d.nanos)
    else of? t.secs (t.frac + d.nanos)
  else ofNanos t.secs (t.frac + d.nanos)
where
  ofNanos (secs : Int) (nanos : Nat) : Option Instant :=
    of? (secs + (nanos / 1_000_000_000 : Nat)) (nanos % 1_000_000_000)

/-- The moment a span earlier. Spans below a second leave a leap second only through its start. -/
def sub? (t : Instant) (d : Duration) : Option Instant :=
  if 1_000_000_000 ≤ t.frac then
    if 1_000_000_000 ≤ d.nanos then ofNanos (t.secs + 1) ((t.frac - 1_000_000_000 : Nat) - d.nanos)
    else of? t.secs (t.frac - d.nanos)
  else ofNanos t.secs (t.frac - d.nanos)
where
  ofNanos (secs : Int) (nanos : Int) : Option Instant :=
    of? (secs + nanos / 1_000_000_000) (nanos % 1_000_000_000).toNat

/-- Whether a span is short enough to move a moment by. -/
def canShiftBy (d : Duration) : Bool := d.nanos ≤ maxShift

/-- A moment moved out of the range of moments. -/
inductive Overflow where
  | later
  | earlier
  deriving DecidableEq, Repr

def Overflow.message : Overflow → String
  | .later => "`DateTime + TimeDelta` overflowed"
  | .earlier => "`DateTime - TimeDelta` overflowed"

/-- The moment a span later, or the overflow. -/
def plus (t : Instant) (d : Duration) : Except Overflow Instant :=
  match t.add? d with
  | some later => .ok later
  | none => .error .later

theorem add?_of_plus {t later : Instant} {d : Duration} (h : t.plus d = .ok later) :
    t.add? d = some later := by
  unfold plus at h
  split at h
  · next heq => rw [heq, Except.ok.inj h]
  · cases h

/-- The moment a span earlier, or the overflow. -/
def minus (t : Instant) (d : Duration) : Except Overflow Instant :=
  match t.sub? d with
  | some earlier => .ok earlier
  | none => .error .earlier

/-- Nanoseconds since 1970, where the second half of a leap second overlaps the second after. -/
def nanosSinceEpoch (t : Instant) : Int := t.secs * 1_000_000_000 + t.frac

/-- The nanoseconds from one moment to another. A leap second that one of them lies in is counted
to its end if the other has a later time of day; the dates do not matter for that. -/
def since (t start : Instant) : Int :=
  t.nanosSinceEpoch - start.nanosSinceEpoch +
    if start.secs % 86400 < t.secs % 86400 ∧ 1_000_000_000 ≤ start.frac then 1_000_000_000
    else if t.secs % 86400 < start.secs % 86400 ∧ 1_000_000_000 ≤ t.frac then -1_000_000_000
    else 0

end Instant
end Courier
