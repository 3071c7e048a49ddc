import Courier.Json.Reader

/-!
Passing over a value whose contents do not matter. Lists and objects may nest without bound,
because the brackets that are open are kept in a list; numbers and strings are checked for their
form only, so bytes that are no text and numbers that are too large pass.
-/

namespace Courier.Json.Reader

inductive Bracket where
  | list
  | object
  deriving DecidableEq

/-- Four hexadecimal digits or another escape, not decoded. -/
def skipEscape : Reader Unit := do
  match ← next with
  | none => failHere .endInString
  | some b =>
    if b = byte 'u' then let _ ← hexEscape
    else if (simpleEscape b).isNone then failHere .invalidEscape

/-- A string up to its closing quote. -/
def skipStringBody : Nat → Reader Unit
  | 0 => failHere .endInString
  | fuel + 1 => do
    match ← peek with
    | none => failHere .endInString
    | some b =>
      if b = byte '"' then advance
      else if b = byte '\\' then
        advance
        skipEscape
        skipStringBody fuel
      else if b < 0x20 then failHere .controlCharacter
      else
        advance
        skipStringBody fuel

/-- A string whose opening quote is read. -/
def skipString : Reader Unit := do skipStringBody ((← get).rest.length + 1)

/-- An exponent at its letter. -/
def skipExponent : Reader Unit := do
  advance
  let sign ← peek
  if sign = some (byte '+') ∨ sign = some (byte '-') then advance
  if ((← next).map isDigit).getD false then let _ ← digitCount
  else failHere .invalidNumber

/-- A number whose sign is read. -/
def skipNumber : Reader Unit := do
  match ← next with
  | some b =>
    if b = byte '0' then
      if ((← peek).map isDigit).getD false then failNext .invalidNumber
    else if isDigit b then let _ ← digitCount
    else failHere .invalidNumber
  | none => failHere .invalidNumber
  if (← peek) = some (byte '.') then
    advance
    if (← digitCount) = 0 then failNext .invalidNumber
    if ← atExponent then skipExponent
  else if ← atExponent then skipExponent

/-- A value without parts, or the bracket that opens one with parts. -/
def skipToken : Reader (Option Bracket) := do
  match ← peekToken with
  | none => failNext .endInValue
  | some b =>
    if b = byte 'n' then
      advance
      keyword ['u', 'l', 'l']
      return none
    else if b = byte 't' then
      advance
      keyword ['r', 'u', 'e']
      return none
    else if b = byte 'f' then
      advance
      keyword ['a', 'l', 's', 'e']
      return none
    else if b = byte '-' then
      advance
      skipNumber
      return none
    else if isDigit b then
      skipNumber
      return none
    else if b = byte '"' then
      advance
      skipString
      return none
    else if b = byte '[' then
      advance
      return some .list
    else if b = byte '\x7b' then
      advance
      return some .object
    else failNext .noValue

/-- The key and colon in front of a value in an object. -/
def skipKey : Reader Unit := do
  match ← peekToken with
  | none => failNext .endInObject
  | some b => if b = byte '"' then advance else failNext .keyNotString
  skipString
  colon

/-- Closes brackets, from the innermost, as far as they end here. What is left is open and has
another element. `afterValue` says whether a comma has to stand before that element. -/
def closeBrackets (afterValue : Bool) : List Bracket → Reader (List Bracket)
  | [] => return []
  | bracket :: outer => do
    match ← peekToken with
    | none =>
      match bracket with
      | .list => failNext .endInList
      | .object => failNext .endInObject
    | some b =>
      if afterValue ∧ b = byte ',' then
        advance
        return bracket :: outer
      else if bracket = .list ∧ b = byte ']' ∨ bracket = .object ∧ b = byte '\x7d' then
        advance
        closeBrackets true outer
      else if afterValue then
        match bracket with
        | .list => failNext .noCommaInList
        | .object => failNext .noCommaInObject
      else return bracket :: outer

/-- Values and brackets until no bracket is open. -/
def skipValues : Nat → List Bracket → Reader Unit
  | 0, _ => failNext .endInValue
  | fuel + 1, brackets => do
    let opened ← skipToken
    let remaining ← match opened with
      | some bracket => closeBrackets false (bracket :: brackets)
      | none => closeBrackets true brackets
    match remaining with
    | [] => return
    | .list :: _ => skipValues fuel remaining
    | .object :: _ =>
      skipKey
      skipValues fuel remaining

def skipValue : Reader Unit := do skipValues ((← get).rest.length + 1) []

end Courier.Json.Reader
