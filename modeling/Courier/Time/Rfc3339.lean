import Courier.Text.Blank
import Courier.Time.Instant

/-!
Moments as text, in the profile of RFC 3339 that the messages use: `2024-01-01T00:00:00.5Z`. A
moment is written in universal time with no fraction or with three, six or nine digits, the fewest
that are exact; a year that four digits cannot hold carries a sign. Reading is more generous:
blanks before the parts of date and time, a blank in place of `T`, any offset from universal time,
and `UTC` for `Z` are taken too.
-/

namespace Courier
namespace Rfc3339

inductive Fault where
  /-- The text ends before it is complete. -/
  | short
  /-- A character stands where it cannot. -/
  | invalid
  /-- A part is too large or names nothing. -/
  | outOfRange
  /-- The moment lies outside the range of moments once its offset is taken off. -/
  | impossible
  /-- Something follows the moment. -/
  | long
  deriving DecidableEq

def Fault.message : Fault → String
  | .short => "premature end of input"
  | .invalid => "input contains invalid characters"
  | .outOfRange => "input is out of range"
  | .impossible => "no possible date and time matching input"
  | .long => "trailing input"

/-! ## Writing -/

/-- A number with at least so many digits. -/
def padded (width n : Nat) : List Char :=
  let digits := Nat.toDigits 10 n
  List.replicate (width - digits.length) '0' ++ digits

/-- Four digits, or a sign and at least four. -/
def yearText (year : Int) : List Char :=
  if 0 ≤ year ∧ year ≤ 9999 then padded 4 year.toNat
  else if year < 0 then '-' :: padded 4 year.natAbs
  else '+' :: padded 4 year.toNat

/-- The fraction of a second in the fewest of 0, 3, 6 and 9 digits that hold it. -/
def fractionText (nanos : Nat) : List Char :=
  if nanos = 0 then []
  else if nanos % 1_000_000 = 0 then '.' :: padded 3 (nanos / 1_000_000)
  else if nanos % 1_000 = 0 then '.' :: padded 6 (nanos / 1_000)
  else '.' :: padded 9 nanos

/-- The text of a moment in universal time. A leap second is second 60 of its minute. -/
def write (t : Instant) : List Char :=
  let date := Date.ofDays (t.secs / 86400)
  let second := (t.secs % 86400).toNat
  let leap := t.frac / 1_000_000_000
  yearText date.year ++ '-' :: padded 2 date.month ++ '-' :: padded 2 date.day ++
    'T' :: padded 2 (second / 3600) ++ ':' :: padded 2 (second / 60 % 60) ++
    ':' :: padded 2 (second % 60 + leap) ++ fractionText (t.frac % 1_000_000_000) ++ ['Z']

/-! ## Reading

The reader of a part returns its value and the text behind it. -/

/-- The value of a run of decimal digits. -/
def digitsValue (ds : List Char) : Nat :=
  ds.foldl (fun n d => n * 10 + (d.toNat - '0'.toNat)) 0

/-- The first characters that are digits, at most so many. -/
def leadingDigits (limit : Nat) (cs : List Char) : List Char :=
  (cs.take limit).takeWhile Char.isDigit

/-- A number of one digit at least and `limit` at most, below `2 ^ 63`. -/
def number (limit : Nat) (cs : List Char) : Except Fault (Nat × List Char) :=
  match leadingDigits limit cs with
  | [] => if cs.isEmpty then .error .short else .error .invalid
  | ds =>
    if digitsValue ds < 0x8000_0000_0000_0000 then .ok (digitsValue ds, cs.drop ds.length)
    else .error .outOfRange

/-- A given character after blanks. -/
def separator (c : Char) (cs : List Char) : Except Fault (List Char) :=
  match Text.skipBlanks cs with
  | [] => .error .short
  | d :: rest => if d = c then .ok rest else .error .invalid

/-- A year: at most four digits, or a sign and any number of them. -/
def year (cs : List Char) : Except Fault (Int × List Char) :=
  match Text.skipBlanks cs with
  | '-' :: rest => do
    let (n, rest) ← number rest.length rest
    bounded (-(n : Int)) rest
  | '+' :: rest => do
    let (n, rest) ← number rest.length rest
    bounded n rest
  | rest => do
    let (n, rest) ← number 4 rest
    bounded n rest
where
  bounded (n : Int) (rest : List Char) : Except Fault (Int × List Char) :=
    if -0x8000_0000 ≤ n ∧ n < 0x8000_0000 then .ok (n, rest) else .error .outOfRange

/-- A part of at most two digits after blanks, within bounds. -/
def part (low high : Nat) (cs : List Char) : Except Fault (Nat × List Char) := do
  let (n, rest) ← number 2 (Text.skipBlanks cs)
  if low ≤ n ∧ n ≤ high then .ok (n, rest) else .error .outOfRange

/-- The mark between date and time. -/
def dateTimeMark : List Char → Except Fault (List Char)
  | [] => .error .short
  | c :: rest => if c = 'T' ∨ c = 't' ∨ c = ' ' then .ok rest else .error .invalid

/-- A fraction of a second after a point, in nanoseconds. Digits after the ninth are skipped. -/
def fraction (cs : List Char) : Except Fault (Nat × List Char) :=
  match cs with
  | '.' :: rest => do
    let (n, after) ← number 9 rest
    let count := rest.length - after.length
    .ok (n * Nat.pow 10 (9 - count), after.dropWhile Char.isDigit)
  | _ => .ok (0, cs)

/-- Two characters that stand one byte each, or the fault of their lack. -/
def twoDigits (cs : List Char) : Except Fault (Char × Char × List Char) :=
  match cs with
  | [] => .error .short
  | [c] => if c.toNat < 0x80 then .error .short else .error .invalid
  | c :: d :: rest => .ok (c, d, rest)

/-- Whether a text begins with `UTC`, in whatever case. -/
def namesUniversal : List Char → Bool
  | u :: t :: c :: _ => u.toUpper = 'U' ∧ t.toUpper = 'T' ∧ c.toUpper = 'C'
  | _ => false

/-- Hours and minutes of an offset, with colons and blanks between them, in seconds. -/
def offsetSize (cs : List Char) : Except Fault (Nat × List Char) := do
  let (h1, h2, rest) ← twoDigits cs
  if ¬ (h1.isDigit ∧ h2.isDigit) then throw .invalid
  let rest := rest.dropWhile fun c => c = ':' ∨ Text.isBlank c
  let (m1, m2, rest) ← twoDigits rest
  if ¬ (m1.isDigit ∧ m2.isDigit) then throw .invalid
  if '6' ≤ m1 then throw .outOfRange
  .ok (digitsValue [h1, h2] * 3600 + digitsValue [m1, m2] * 60, rest)

/-- An offset from universal time, in seconds. -/
def offset (cs : List Char) : Except Fault (Int × List Char) :=
  if namesUniversal cs then .ok (0, cs.drop 3)
  else match cs with
    | [] => .error .short
    | c :: rest =>
      if c = 'Z' ∨ c = 'z' then .ok (0, rest)
      else if c = '+' then do
        let (size, rest) ← offsetSize rest
        .ok (size, rest)
      else if c = '-' ∨ c = '\u2212' then do
        let (size, rest) ← offsetSize rest
        .ok (-(size : Int), rest)
      else .error .invalid

/-- The moment at which the clocks of an offset show this date and time. -/
def moment (date : Date) (hour minute second nanos : Nat) (offset : Int) :
    Except Fault Instant :=
  if ¬ (-262143 ≤ date.year ∧ date.year ≤ 262142 ∧ date.IsValid) then .error .outOfRange
  else if 86400 ≤ offset.natAbs then .error .outOfRange
  else
    let leap := if second = 60 then 1 else 0
    let secs := date.toDays * 86400 + (hour * 3600 + minute * 60 + (second - leap) : Nat)
    match Instant.of? (secs - offset) (nanos + leap * 1_000_000_000) with
    | some t => .ok t
    | none => .error .impossible

def read (cs : List Char) : Except Fault Instant := do
  let (year, cs) ← year cs
  let cs ← separator '-' cs
  let (month, cs) ← part 1 12 cs
  let cs ← separator '-' cs
  let (day, cs) ← part 1 31 cs
  let cs ← dateTimeMark cs
  let (hour, cs) ← part 0 23 cs
  let cs ← separator ':' cs
  let (minute, cs) ← part 0 59 cs
  let cs ← separator ':' cs
  let (second, cs) ← part 0 60 cs
  let (nanos, cs) ← fraction cs
  let (offset, cs) ← offset (Text.skipBlanks cs)
  if ¬ (Text.skipBlanks cs).isEmpty then throw .long
  moment ⟨year, month, day⟩ hour minute second nanos offset

end Rfc3339

namespace Instant

def text (t : Instant) : String := String.ofList (Rfc3339.write t)

def ofText (s : String) : Except Rfc3339.Fault Instant := Rfc3339.read s.toList

end Instant
end Courier
