import Courier.Text.Escape
import Courier.Time.Calendar

/-!
Dates and times of TOML: a date, a time of day, or a date and a time with or without an offset.
Only their form and their ranges matter here, so what is read is the text behind them.
-/

namespace Courier.Toml

/-- A number of so many digits within bounds. -/
def bounded (count low high : Nat) (cs : List Char) : Option (Nat × List Char) := do
  if cs.length < count then none
  let value ← Text.numeral 10 (cs.take count)
  if low ≤ value ∧ value ≤ high then some (value, cs.drop count) else none

/-- What is behind a character that must come next. -/
def expect (c : Char) : List Char → Option (List Char)
  | d :: rest => if d = c then some rest else none
  | [] => none

/-- Behind a date of the calendar. -/
def skipDate (cs : List Char) : Option (List Char) := do
  let (year, cs) ← bounded 4 0 9999 cs
  let (month, cs) ← bounded 2 1 12 (← expect '-' cs)
  let (_, cs) ← bounded 2 1 (Calendar.daysIn year month) (← expect '-' cs)
  return cs

/-- Behind a time of day, which may end in a fraction of a second and have a leap second. -/
def skipTime (cs : List Char) : Option (List Char) := do
  let (_, cs) ← bounded 2 0 23 cs
  let (_, cs) ← bounded 2 0 59 (← expect ':' cs)
  let (_, cs) ← bounded 2 0 60 (← expect ':' cs)
  match cs with
  | '.' :: rest =>
    if rest.head?.any Char.isDigit then return rest.dropWhile Char.isDigit else return cs
  | _ => return cs

/-- Behind the offset of a zone, if one follows. -/
def skipOffset : List Char → Option (List Char)
  | [] => some []
  | c :: rest =>
    if c = 'Z' ∨ c = 'z' then some rest
    else if c = '+' ∨ c = '-' then do
      let (_, cs) ← bounded 2 0 23 rest
      let (_, cs) ← bounded 2 0 59 (← expect ':' cs)
      return cs
    else some (c :: rest)

/-- Behind a date, a time or both. -/
def skipMoment (cs : List Char) : Option (List Char) :=
  match skipDate cs with
  | none => skipTime cs
  | some rest =>
    match rest with
    | c :: behind =>
      if c = 'T' ∨ c = 't' ∨ c = ' ' then
        match skipTime behind with
        | some behind => skipOffset behind
        | none => some rest
      else some rest
    | [] => some rest

end Courier.Toml
