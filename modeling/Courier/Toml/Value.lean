import Courier.Toml.Moment
import Courier.Toml.Number
import Courier.Toml.Quoted
import Courier.Toml.Tree

/-!
Names and values of TOML. A name has one part or several with points between them; a value may
hold values in turn, up to a depth.
-/

namespace Courier.Toml

open Text (Reader)

/-- One more than the depth to which values may be nested, and than the parts of a name. -/
def depthLimit : Nat := 80

def isNameChar (c : Char) : Bool := c.isAlphanum || c = '_' || c = '-'

/-- A part of a name. -/
def namePart : Reader String := fun cs =>
  match cs with
  | '"' :: _ => lineText cs
  | '\'' :: _ => lineText cs
  | _ =>
    match cs.takeWhile isNameChar with
    | [] => none
    | taken => some (String.ofList taken, cs.drop taken.length)

/-- The parts of a name and the blanks around them. -/
def name : Reader (List String) := fun cs => do
  let (parts, rest) ← go (cs.length + 1) cs
  if parts.length < depthLimit then some (parts, rest) else none
where
  go : Nat → Reader (List String)
    | 0, _ => none
    | fuel + 1, cs => do
      let (part, rest) ← namePart (skipBlanks cs)
      match skipBlanks rest with
      | '.' :: rest =>
        let (parts, rest) ← go fuel rest
        return (part :: parts, rest)
      | rest => return ([part], rest)

/-- A date, a time or a number. -/
def scalar (cs : List Char) : Option (Setting × List Char) :=
  match skipMoment cs with
  | some rest => some (.table [], rest)
  | none =>
    match float cs with
    | some (x, rest) => some (.float x, rest)
    | none => (integer cs).map fun (n, rest) => (.signed n, rest)

mutual

/-- A value that may be nested so deep. -/
def value (depth fuel : Nat) (cs : List Char) : Option (Setting × List Char) :=
  match fuel with
  | 0 => none
  | fuel + 1 =>
    match cs with
    | 't' :: 'r' :: 'u' :: 'e' :: rest => some (.boolean true, rest)
    | 'f' :: 'a' :: 'l' :: 's' :: 'e' :: rest => some (.boolean false, rest)
    | '[' :: rest =>
      if depth = 0 then none
      else (list (depth - 1) fuel rest).map fun (vs, rest) => (.list vs, rest)
    | '\x7b' :: rest =>
      if depth = 0 then none
      else
        match skipBlanks rest with
        | '\x7d' :: rest => some (.table [], rest)
        | rest =>
          (entries (depth - 1) fuel [] rest).map fun (es, rest) => (.table (toSettings es), rest)
    | '"' :: _ => (quotedText cs).map fun (s, rest) => (.text s, rest)
    | '\'' :: _ => (quotedText cs).map fun (s, rest) => (.text s, rest)
    | _ => scalar cs

/-- The elements of a list whose bracket is read. -/
def list (depth fuel : Nat) (cs : List Char) : Option (List Setting × List Char) :=
  match fuel with
  | 0 => none
  | fuel + 1 => do
    match ← skipLines cs with
    | ']' :: rest => return ([], rest)
    | cs =>
      let (v, rest) ← value depth fuel cs
      match ← skipLines rest with
      | ',' :: rest =>
        let (vs, rest) ← list depth fuel rest
        return (v :: vs, rest)
      | ']' :: rest => return ([v], rest)
      | _ => none

/-- The entries of a table on one line, from one of them on, added to those before. -/
def entries (depth fuel : Nat) (before : Entries) (cs : List Char) : Option (Entries × List Char) :=
  match fuel with
  | 0 => none
  | fuel + 1 => do
    let (path, rest) ← name cs
    let (v, rest) ← value depth fuel (skipBlanks (← expect '=' rest))
    let entries' ← before.assign v path
    match skipBlanks rest with
    | ',' :: rest => entries depth fuel entries' rest
    | '\x7d' :: rest => return (entries', rest)
    | _ => none

end

end Courier.Toml
