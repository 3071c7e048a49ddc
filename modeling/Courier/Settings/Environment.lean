import Courier.Settings.Setting
import Courier.Text.Blank
import Courier.Text.Escape

/-!
Settings from environment variables. The name of a variable, in lower case, is the name of a
setting; points in it lead into tables. Its value may spell a truth value, a number, a quoted
text, a list or a table; what spells none of these is taken as a text as it stands.
-/

namespace Courier.Environment

open Text (Reader)

def isBlank (c : Char) : Bool := c = ' ' || c = '\t' || c = '\n' || c = '\r' || c = '\x0c'

/-- Whether a character can stand in a plain value. -/
def isPlain (c : Char) : Bool :=
  !(c = ',' || c = '[' || c = ']' || c = '\x7b' || c = '\x7d')

/-- A quoted text whose opening quote is read. -/
def quotedBody : Nat → Reader (List Char)
  | 0, _ => none
  | fuel + 1, cs =>
    match cs with
    | [] => none
    | '"' :: rest => some ([], rest)
    | '\\' :: rest => do
      let (c, rest) ← Text.escape rest
      let (body, rest) ← quotedBody fuel rest
      some (c :: body, rest)
    | c :: rest => do
      let (body, rest) ← quotedBody fuel rest
      some (c :: body, rest)

/-- The value of a run of digits, if it is one. -/
def digits? (cs : List Char) : Option Nat :=
  if cs.isEmpty then none else Text.numeral 10 cs

/-- A whole number within 64 bits, without a sign if it can be. -/
def wholeNumber (cs : List Char) : Option Setting :=
  match cs with
  | '-' :: rest => do
    let n ← digits? rest
    if n ≤ 0x8000_0000_0000_0000 then some (.signed (-(n : Int))) else none
  | '+' :: rest => do
    let n ← digits? rest
    if n < 0x1_0000_0000_0000_0000 then some (.unsigned n) else none
  | _ => do
    let n ← digits? cs
    if n < 0x1_0000_0000_0000_0000 then some (.unsigned n) else none

/-- The exponent at the end of a number, if there is a well-formed one or none. -/
def exponent (cs : List Char) : Option Int :=
  match cs with
  | [] => some 0
  | e :: rest =>
    if e = 'e' ∨ e = 'E' then
      match rest with
      | '-' :: ds => (digits? ds).map fun n => -(n : Int)
      | '+' :: ds => (digits? ds).map Int.ofNat
      | ds => (digits? ds).map Int.ofNat
    else none

/-- A number with a point, and perhaps an exponent. One beyond all bounds is infinite. -/
def floatNumber (cs : List Char) : Option Real := do
  let (negative, cs) := match cs with
    | '-' :: rest => (true, rest)
    | '+' :: rest => (false, rest)
    | _ => (false, cs)
  let whole := cs.takeWhile Char.isDigit
  let afterWhole := cs.dropWhile Char.isDigit
  let (fraction, rest) ← match afterWhole with
    | '.' :: rest => some (rest.takeWhile Char.isDigit, rest.dropWhile Char.isDigit)
    | _ => none
  let n ← digits? (whole ++ fraction)
  let power ← exponent rest
  match Binary64.ofDecimal n (power - fraction.length) with
  | some x => some (.finite { x with negative })
  | none => some (.infinite negative)

/-- What a text without brackets and commas spells. -/
def plain (cs : List Char) : Setting :=
  let cs := Text.trim cs
  match if cs.contains '.' then floatNumber cs else none with
  | some x => .float x
  | none => (wholeNumber cs).getD (.text (String.ofList cs))

def name : Reader String := fun cs =>
  match cs with
  | '"' :: rest => (quotedBody (rest.length + 1) rest).map fun (s, rest) => (String.ofList s, rest)
  | _ =>
    let taken := cs.takeWhile fun c => c.isAlphanum || c = '_' || c = '-'
    if taken.isEmpty then none else some (String.ofList taken, cs.drop taken.length)

mutual

def value (fuel : Nat) (cs : List Char) : Option (Setting × List Char) :=
  match fuel with
  | 0 => none
  | fuel + 1 => do
    let (v, rest) ← match cs.dropWhile isBlank with
      | 't' :: 'r' :: 'u' :: 'e' :: rest => some (Setting.boolean true, rest)
      | 'f' :: 'a' :: 'l' :: 's' :: 'e' :: rest => some (Setting.boolean false, rest)
      | '\x7b' :: rest => (entries fuel rest).map fun (es, rest) =>
        (Setting.table (Setting.overlayEntries [] es), rest)
      | '[' :: rest => (elements fuel rest).map fun (vs, rest) => (Setting.list vs, rest)
      | '"' :: rest => (quotedBody (rest.length + 1) rest).map fun (s, rest) =>
        (Setting.text (String.ofList s), rest)
      | '\'' :: c :: '\'' :: rest => some (Setting.text (String.singleton c), rest)
      | '\'' :: _ => none
      | cs =>
        let taken := cs.takeWhile isPlain
        some (plain taken, cs.drop taken.length)
    some (v, rest.dropWhile isBlank)

def elements (fuel : Nat) (cs : List Char) : Option (List Setting × List Char) :=
  match fuel with
  | 0 => none
  | fuel + 1 =>
    match cs with
    | ']' :: rest => some ([], rest)
    | _ => do
      let (v, rest) ← value fuel cs
      match rest with
      | ',' :: rest =>
        let (vs, rest) ← elements fuel rest
        some (v :: vs, rest)
      | ']' :: rest => some ([v], rest)
      | _ => none

def entries (fuel : Nat) (cs : List Char) :
    Option (List (String × Setting) × List Char) :=
  match fuel with
  | 0 => none
  | fuel + 1 =>
    match cs with
    | '\x7d' :: rest => some ([], rest)
    | _ => do
      let (k, rest) ← name (cs.dropWhile isBlank)
      match rest.dropWhile isBlank with
      | '=' :: rest =>
        let (v, rest) ← value fuel rest
        match rest with
        | ',' :: rest =>
          let (es, rest) ← entries fuel rest
          some ((k, v) :: es, rest)
        | '\x7d' :: rest => some ([(k, v)], rest)
        | _ => none
      | _ => none

end

/-- What the value of a variable spells. -/
def ofText (s : String) : Setting :=
  match value (2 * s.length + 2) s.toList with
  | some (v, []) => v
  | _ => .text s

/-- A setting inside tables of these names. An empty name ends them. -/
def nest : List String → Setting → Setting
  | [], v => v
  | k :: ks, v => if k.isEmpty then v else .table [(k, nest ks v)]

/-- The settings of all variables, the later over the earlier. -/
def ofVariables (environment : List (String × String)) : Setting :=
  environment.foldl (fun below (name, text) =>
    let name := (String.ofList (Text.trim name.toList)).toLower
    match nest (name.splitOn ".") (ofText text) with
    | .table entries => below.overlay (.table entries)
    | _ => below) (.table [])

end Courier.Environment
