import Courier.Text.Escape

/-!
What stands between the parts of a TOML document: blanks, comments and line ends.
-/

namespace Courier.Toml

open Text (Reader)

def isBlank (c : Char) : Bool := c = ' ' || c = '\t'

def skipBlanks (cs : List Char) : List Char := cs.dropWhile isBlank

/-- Whether a character can stand in a text as it is: no control character but the tab. -/
def isPlain (c : Char) : Bool := c = '\t' || (' ' ≤ c && c ≠ '\x7f')

/-- A text behind the line end that begins it, if one does. -/
def lineEnd : List Char → Option (List Char)
  | '\n' :: rest => some rest
  | '\r' :: '\n' :: rest => some rest
  | _ => none

/-- A text without the comment that begins it. The line end stays. -/
def skipComment : List Char → List Char
  | '#' :: rest => rest.dropWhile isPlain
  | cs => cs

/-- What is left when the rest of a line holds nothing but blanks and a comment. -/
def endLine (cs : List Char) : Option (List Char) :=
  match skipComment (skipBlanks cs) with
  | [] => some []
  | cs => lineEnd cs

/-- A text without the blanks, comments and line ends before it. A comment needs its line end. -/
def skipLines (cs : List Char) : Option (List Char) := go (cs.length + 1) cs
where
  go : Nat → List Char → Option (List Char)
    | 0, _ => none
    | fuel + 1, cs =>
      match skipBlanks cs with
      | '#' :: rest => do go fuel (← lineEnd (rest.dropWhile isPlain))
      | cs =>
        match lineEnd cs with
        | some rest => go fuel rest
        | none => some cs

end Courier.Toml
