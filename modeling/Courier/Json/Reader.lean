import Courier.Json.Fault
import Courier.Text.Utf8

/-!
Reading JSON byte by byte. A reader moves a cursor over a text; when it fails the cursor stays
where it got to, because the place of a fault can depend on it. Blanks, keywords, numbers and
strings are read here; records, enumerations and whole values build on them.
-/

namespace Courier.Json

/-- The bytes that are left, and how many came before them. -/
structure Cursor where
  rest : Bytes
  index : Nat

/-- A reader gives a value or a fault, and in both cases moves the cursor. -/
abbrev Reader := EStateM Fault Cursor

namespace Reader

def byte (c : Char) : UInt8 := c.toNat.toUInt8

def isDigit (b : UInt8) : Bool := byte '0' ≤ b && b ≤ byte '9'

def digitOf (b : UInt8) : Nat := b.toNat - 48

/-- The next byte, which stays unread. -/
def peek : Reader (Option UInt8) := do return (← get).rest.head?

/-- Moves over one byte, if one is left. -/
def advance : Reader Unit :=
  modify fun c => match c.rest with
    | [] => c
    | _ :: rest => ⟨rest, c.index + 1⟩

def next : Reader (Option UInt8) := do
  let b ← peek
  advance
  return b

/-- Fails at the place behind the bytes read. -/
def failHere {α : Type} (cause : Cause) : Reader α := do
  throw ⟨cause, some (← get).index⟩

/-- Fails at the place behind the next byte. -/
def failNext {α : Type} (cause : Cause) : Reader α := do
  let c ← get
  throw ⟨cause, some (if c.rest.isEmpty then c.index else c.index + 1)⟩

/-- Fails without a place. -/
def failUnplaced {α : Type} (cause : Cause) : Reader α := throw ⟨cause, none⟩

/-- A reader whose faults without a place get the one at which it stopped. -/
def located {α : Type} (r : Reader α) : Reader α := fun c =>
  match r c with
  | .ok a c => .ok a c
  | .error f c => .error (f.locate c.index) c

/-- A reader of what stands in brackets, and the reader of their end, which runs in any case. The
first of two faults wins. -/
def closedBy {α : Type} (r : Reader α) (close : Reader Unit) : Reader α := fun c =>
  match r c, close with
  | .ok a c, close =>
    match close c with
    | .ok _ c => .ok a c
    | .error f c => .error f c
  | .error f c, close =>
    match close c with
    | .ok _ c => .error f c
    | .error _ c => .error f c

def isBlank (b : UInt8) : Bool :=
  b == byte ' ' || b == byte '\n' || b == byte '\t' || b == byte '\r'

/-- The cursor behind the blanks it stands at. -/
def pastBlanks : Bytes → Nat → Cursor
  | [], i => ⟨[], i⟩
  | b :: rest, i => if isBlank b then pastBlanks rest (i + 1) else ⟨b :: rest, i⟩

/-- Moves over blanks and shows the byte behind them. -/
def peekToken : Reader (Option UInt8) := do
  modify fun c => pastBlanks c.rest c.index
  peek

/-- The rest of a keyword whose first letter is read. -/
def keyword : List Char → Reader Unit
  | [] => return
  | c :: cs => do
    match ← next with
    | none => failHere .endInValue
    | some b => if b = byte c then keyword cs else failHere .noKeyword

/-! ## Strings -/

/-- The value of a hexadecimal digit. -/
def hexValue (b : UInt8) : Option Nat :=
  if isDigit b then some (digitOf b)
  else if byte 'a' ≤ b ∧ b ≤ byte 'f' then some (b.toNat - 87)
  else if byte 'A' ≤ b ∧ b ≤ byte 'F' then some (b.toNat - 55)
  else none

/-- Four hexadecimal digits, all taken before they are looked at. -/
def hexEscape : Reader Nat := do
  let c ← get
  match c.rest with
  | a :: b :: d :: e :: rest =>
    set (⟨rest, c.index + 4⟩ : Cursor)
    match hexValue a, hexValue b, hexValue d, hexValue e with
    | some a, some b, some d, some e => return ((a * 16 + b) * 16 + d) * 16 + e
    | _, _, _, _ => failHere .invalidEscape
  | rest =>
    set (⟨[], c.index + rest.length⟩ : Cursor)
    failHere .endInString

def utf8 (codePoint : Nat) : Bytes := Bytes.ofString (String.singleton (Char.ofNat codePoint))

/-- A given byte inside an escaped pair of surrogates. -/
def surrogateMark (c : Char) : Reader Unit := do
  match ← next with
  | none => failHere .endInString
  | some b => if b = byte c then return else failHere .hexEscapeEnd

/-- An escape by code unit: one unit, or two that are surrogates of each other. -/
def unicodeEscape : Reader Bytes := do
  let unit ← hexEscape
  if 0xdc00 ≤ unit ∧ unit ≤ 0xdfff then failHere .loneSurrogate
  else if unit < 0xd800 ∨ 0xdbff < unit then return utf8 unit
  else
    surrogateMark '\\'
    surrogateMark 'u'
    let low ← hexEscape
    if low < 0xdc00 ∨ 0xdfff < low then failHere .loneSurrogate
    else return utf8 ((unit - 0xd800) * 0x400 + (low - 0xdc00) + 0x10000)

/-- The byte that a letter stands for behind a backslash. -/
def simpleEscape (b : UInt8) : Option UInt8 :=
  if b = byte '"' ∨ b = byte '\\' ∨ b = byte '/' then some b
  else if b = byte 'b' then some 8
  else if b = byte 'f' then some 12
  else if b = byte 'n' then some 10
  else if b = byte 'r' then some 13
  else if b = byte 't' then some 9
  else none

/-- What stands behind a backslash. -/
def escape : Reader Bytes := do
  match ← next with
  | none => failHere .endInString
  | some b =>
    if b = byte 'u' then unicodeEscape
    else match simpleEscape b with
      | some e => return [e]
      | none => failHere .invalidEscape

/-- The bytes of a string up to its closing quote, gathered in reverse. -/
def stringBody : Nat → Bytes → Reader Bytes
  | 0, _ => failHere .endInString
  | fuel + 1, gathered => do
    match ← next with
    | none => failHere .endInString
    | some b =>
      if b = byte '"' then return gathered.reverse
      else if b = byte '\\' then
        let bytes ← escape
        stringBody fuel (bytes.reverse ++ gathered)
      else if b < 0x20 then failHere .controlCharacter
      else stringBody fuel (b :: gathered)

/-- A string whose opening quote is read. Bytes that are no text are reported behind the first of
them, once the string has ended. -/
def string : Reader String := do
  let start ← get
  let bytes ← stringBody (start.rest.length + 1) []
  match Bytes.toString? bytes with
  | some s => return s
  | none =>
    throw ⟨.invalidUtf8, some (start.index + Bytes.validLength 0 0 none start.rest + 1)⟩

/-! ## Numbers -/

/-- A number as it is written: whole within the range of 64 bits, or floating. -/
inductive Number where
  | whole (value : Int)
  | float (value : Binary64)

def Number.found : Number → Found
  | .whole n => .integer n
  | .float x => .float x

/-- A floating-point number with the given sign. -/
def signed (positive : Bool) (x : Binary64) : Binary64 := if positive then x else x.neg

/-- A significand below `2 ^ 64` times a power of ten. Powers below the range of the table of
powers up to the 308th are taken in steps, each of them rounded. -/
def scaled (positive : Bool) (fuel : Nat) (x : Binary64) (exponent : Int) : Reader Binary64 :=
  if exponent.natAbs ≤ 308 then
    match Binary64.ofDecimal 1 exponent.natAbs with
    | none => failHere .numberOutOfRange
    | some power =>
      match if 0 ≤ exponent then x.mulAbs power else x.divAbs power with
      | some y => return signed positive y
      | none => failHere .numberOutOfRange
  else if x.isZero then return signed positive x
  else if 0 ≤ exponent then failHere .numberOutOfRange
  else match fuel with
    | 0 => return signed positive Binary64.zero
    | fuel + 1 =>
      match (Binary64.ofDecimal 1 308).bind x.divAbs with
      | some y => scaled positive fuel y (exponent + 308)
      | none => failHere .numberOutOfRange

/-- The number nearest to a significand, scaled by a power of ten. -/
def ofParts (positive : Bool) (significand : Nat) (exponent : Int) : Reader Binary64 :=
  match Binary64.round significand 1 with
  | some x => scaled positive 4 x exponent
  | none => failHere .numberOutOfRange

/-- Moves over digits and counts them. -/
def skipDigits : Nat → Reader Nat
  | 0 => return 0
  | fuel + 1 => do
    match ← peek with
    | some b =>
      if isDigit b then
        advance
        return (← skipDigits fuel) + 1
      else return 0
    | none => return 0

/-- Moves over all digits that follow and counts them. -/
def digitCount : Reader Nat := do skipDigits (← get).rest.length

/-- Reads digits as long as the number stays within a limit. Returns it, how many digits were
taken, and the digit that would have led beyond the limit. -/
def boundedDigits (limit : Nat) : Nat → Nat → Nat → Reader (Nat × Nat × Bool)
  | 0, value, count => return (value, count, false)
  | fuel + 1, value, count => do
    match ← peek with
    | some b =>
      if isDigit b then
        if limit < value * 10 + digitOf b then return (value, count, true)
        advance
        boundedDigits limit fuel (value * 10 + digitOf b) (count + 1)
      else return (value, count, false)
    | none => return (value, count, false)

/-- Whether the next byte begins an exponent. -/
def atExponent : Reader Bool := do
  let b ← peek
  return b == some (byte 'e') || b == some (byte 'E')

/-- An exponent at its letter, applied to a significand that already has one. An exponent beyond
31 bits gives zero, or a fault if the number would be too large. -/
def exponentPart (positive : Bool) (significand : Nat) (start : Int) : Reader Binary64 := do
  advance
  let sign ← peek
  if sign = some (byte '+') ∨ sign = some (byte '-') then advance
  let up := sign ≠ some (byte '-')
  match ← next with
  | none => failHere .endInValue
  | some b =>
    if ¬ isDigit b then failHere .invalidNumber
    else
      let (exponent, _, exceeded) ← boundedDigits 0x7fff_ffff (← get).rest.length (digitOf b) 0
      if exceeded then
        advance
        if significand ≠ 0 ∧ up then failHere .numberOutOfRange
        let _ ← digitCount
        return signed positive Binary64.zero
      else ofParts positive significand (if up then start + exponent else start - exponent)

/-- A fraction at its point, for a whole part already scaled. Digits beyond the precision of the
significand are skipped. -/
def fractionPart (positive : Bool) (significand : Nat) (start : Int) : Reader Binary64 := do
  advance
  let (significand, count, exceeded) ←
    boundedDigits 0xffff_ffff_ffff_ffff (← get).rest.length significand 0
  if exceeded then let _ ← digitCount
  else if count = 0 then
    match ← peek with
    | some _ => failNext .invalidNumber
    | none => failNext .endInValue
  if ← atExponent then exponentPart positive significand (start - count)
  else ofParts positive significand (start - count)

/-- What follows a whole part that is too long for 64 bits. -/
def longNumber (positive : Bool) (significand : Nat) : Reader Binary64 := do
  let dropped ← digitCount
  if (← peek) = some (byte '.') then fractionPart positive significand dropped
  else if ← atExponent then exponentPart positive significand dropped
  else ofParts positive significand dropped

/-- What follows the whole part of a number. Minus zero, and a negative number too large for 64
bits with a sign, are floating. -/
def afterWhole (positive : Bool) (significand : Nat) : Reader Number := do
  if (← peek) = some (byte '.') then return .float (← fractionPart positive significand 0)
  else if ← atExponent then return .float (← exponentPart positive significand 0)
  else if positive then return .whole significand
  else if significand = 0 ∨ 0x8000_0000_0000_0000 < significand then
    match Binary64.round significand 1 with
    | some x => return .float x.neg
    | none => failHere .numberOutOfRange
  else return .whole (-(significand : Int))

/-- A number whose sign is read. -/
def unsignedNumber (positive : Bool) : Reader Number := do
  match ← next with
  | none => failHere .endInValue
  | some b =>
    if b = byte '0' then
      if ((← peek).map isDigit).getD false then failNext .invalidNumber
      else afterWhole positive 0
    else if isDigit b then
      let (significand, _, exceeded) ←
        boundedDigits 0xffff_ffff_ffff_ffff (← get).rest.length (digitOf b) 0
      if exceeded then return .float (← longNumber positive significand)
      else afterWhole positive significand
    else failHere .invalidNumber

/-- A number at its sign or first digit. -/
def number : Reader Number := do
  if (← peek) = some (byte '-') then
    advance
    unsignedNumber false
  else unsignedNumber true

/-! ## Wrong tokens -/

/-- Fails because the next token is not of the expected kind. A null, a number and a string are
read first, so a fault within them wins. -/
def failType {α : Type} (expected : String) : Reader α := do
  match ← peek with
  | none => failNext .noValue
  | some b =>
    if b = byte 'n' then
      advance
      keyword ['u', 'l', 'l']
      failHere (.invalidType .null expected)
    else if b = byte 't' then
      advance
      keyword ['r', 'u', 'e']
      failHere (.invalidType (.boolean true) expected)
    else if b = byte 'f' then
      advance
      keyword ['a', 'l', 's', 'e']
      failHere (.invalidType (.boolean false) expected)
    else if b = byte '-' ∨ isDigit b then
      let n ← number
      failHere (.invalidType n.found expected)
    else if b = byte '"' then
      advance
      let s ← string
      failHere (.invalidType (.string s) expected)
    else if b = byte '[' then failHere (.invalidType .list expected)
    else if b = byte '\x7b' then failHere (.invalidType .object expected)
    else failNext .noValue

/-! ## Lists and objects -/

/-- The end of a list whose elements are read. -/
def listEnd : Reader Unit := do
  match ← peekToken with
  | none => failNext .endInList
  | some b =>
    if b = byte ']' then advance
    else if b = byte ',' then
      advance
      if (← peekToken) = some (byte ']') then failNext .trailingComma
      else failNext .trailingCharacters
    else failNext .trailingCharacters

/-- The end of an object whose entries are read. -/
def objectEnd : Reader Unit := do
  match ← peekToken with
  | none => failNext .endInObject
  | some b =>
    if b = byte '\x7d' then advance
    else if b = byte ',' then failNext .trailingComma
    else failNext .trailingCharacters

/-- Moves to the next element of a list. False at its end. -/
def nextElement (isFirst : Bool) : Reader Bool := do
  match ← peekToken with
  | none => failNext .endInList
  | some b =>
    if b = byte ']' then return false
    else if isFirst then return true
    else if b = byte ',' then
      advance
      match ← peekToken with
      | none => failNext .endInValue
      | some b => if b = byte ']' then failNext .trailingComma else return true
    else failNext .noCommaInList

/-- Moves to the key of the next entry of an object and reads it. Nothing at its end. -/
def nextKey (isFirst : Bool) : Reader (Option String) := do
  match ← peekToken with
  | none => failNext .endInObject
  | some b =>
    if b = byte '\x7d' then return none
    else if isFirst then key (some b)
    else if b = byte ',' then
      advance
      key (← peekToken)
    else failNext .noCommaInObject
where
  key : Option UInt8 → Reader (Option String)
    | none => failNext .endInValue
    | some b => do
      if b = byte '"' then
        advance
        return some (← string)
      else if b = byte '\x7d' then failNext .trailingComma
      else failNext .keyNotString

/-- The colon between a key and its value. -/
def colon : Reader Unit := do
  match ← peekToken with
  | none => failNext .endInObject
  | some b => if b = byte ':' then advance else failNext .noColon

/-- Nothing but blanks up to the end of the text. -/
def textEnd : Reader Unit := do
  match ← peekToken with
  | none => return
  | some _ => failNext .trailingCharacters

/-- Reads the whole of a text. -/
def readAll {α : Type} (r : Reader α) (text : Bytes) : Except Fault α :=
  match (do let a ← r; textEnd; return a : Reader α) ⟨text, 0⟩ with
  | .ok a _ => .ok a
  | .error f _ => .error f

end Reader
end Courier.Json
