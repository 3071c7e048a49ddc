import Courier.Toml.Blank

/-!
Quoted texts of TOML. Between double quotes a backslash begins an escape, between single quotes
every character stands for itself. Three quotes begin a text of several lines; a line end straight
behind them does not count, and one or two quotes before the closing three belong to the text.
-/

namespace Courier.Toml

open Text (Reader)

/-- A text without the blanks and line ends that begin it. -/
def skipSpace (cs : List Char) : List Char := go (cs.length + 1) cs
where
  go : Nat → List Char → List Char
    | 0, cs => cs
    | fuel + 1, cs =>
      let cs := skipBlanks cs
      match lineEnd cs with
      | some rest => go fuel rest
      | none => cs

/-- A text of one line whose opening quote is read. -/
def lineBody (quote : Char) (escapes : Bool) : Nat → Reader (List Char)
  | 0, _ => none
  | _, [] => none
  | fuel + 1, c :: rest => do
    if c = quote then return ([], rest)
    let (c, rest) ← if escapes ∧ c = '\\' then Text.escape rest
      else if isPlain c then some (c, rest) else none
    let (body, rest) ← lineBody quote escapes fuel rest
    return (c :: body, rest)

/-- A text of several lines whose opening quotes are read. A backslash at the end of a line hides
the line end and all blanks and line ends behind it. -/
def blockBody (quote : Char) (escapes : Bool) : Nat → Reader (List Char)
  | 0, _ => none
  | _, [] => none
  | fuel + 1, c :: rest =>
    let next (c : Char) (rest : List Char) : Option (List Char × List Char) :=
      (blockBody quote escapes fuel rest).map fun (body, rest) => (c :: body, rest)
    match lineEnd (c :: rest) with
    | some rest => next '\n' rest
    | none =>
      if c = quote then
        let quotes := (c :: rest).takeWhile (· = quote)
        if quotes.length < 3 then next c rest
        else if quotes.length ≤ 5 then some (quotes.drop 3, rest.drop (quotes.length - 1))
        else none
      else if escapes ∧ c = '\\' then
        match lineEnd (skipBlanks rest) with
        | some rest => blockBody quote escapes fuel (skipSpace rest)
        | none => (Text.escape rest).bind fun (c, rest) => next c rest
      else if isPlain c then next c rest
      else none

def lineText : Reader String := fun cs => do
  let (body, rest) ← match cs with
    | '"' :: rest => lineBody '"' true (rest.length + 1) rest
    | '\'' :: rest => lineBody '\'' false (rest.length + 1) rest
    | _ => none
  return (String.ofList body, rest)

/-- A quoted text of one line or of several. -/
def quotedText : Reader String := fun cs =>
  let block (quote : Char) (escapes : Bool) (rest : List Char) : Option (String × List Char) := do
    let rest := (lineEnd rest).getD rest
    let (body, rest) ← blockBody quote escapes (rest.length + 1) rest
    return (String.ofList body, rest)
  match cs with
  | '"' :: '"' :: '"' :: rest => block '"' true rest
  | '\'' :: '\'' :: '\'' :: rest => block '\'' false rest
  | cs => lineText cs

end Courier.Toml
