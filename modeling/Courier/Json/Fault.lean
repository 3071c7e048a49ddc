import Courier.Number.Shortest
import Courier.Text.Quoted

/-!
What can be wrong with a JSON text. A fault has a cause and, once it is known, the number of bytes
before the place it is reported at; shown, it names that place by line and column.
-/

namespace Courier.Json

/-- What stands in a text where something else is expected. -/
inductive Found where
  | null
  | boolean (value : Bool)
  | integer (value : Int)
  | float (value : Binary64)
  | string (value : String)
  | list
  | object

/-- A floating-point number in a message: positional from a hundred-thousandth up to sixteen
digits before the point, otherwise with an exponent. -/
def floatText (x : Binary64) : String :=
  let d := x.shortest
  let body :=
    if -5 ≤ d.leadingExponent ∧ d.leadingExponent ≤ 15 then d.positional true else d.scientific
  String.ofList (if x.negative then '-' :: body else body)

def Found.text : Found → String
  | .null => "null"
  | .boolean b => s!"boolean `{b}`"
  | .integer n => s!"integer `{n}`"
  | .float x => "floating point `" ++ floatText x ++ "`"
  | .string s => "string " ++ Text.quoted s
  | .list => "sequence"
  | .object => "map"

inductive Cause where
  | endInList
  | endInObject
  | endInString
  | endInValue
  | noColon
  | noCommaInList
  | noCommaInObject
  | noKeyword
  | noValue
  | invalidEscape
  | invalidNumber
  | numberOutOfRange
  | invalidUtf8
  | controlCharacter
  | keyNotString
  | loneSurrogate
  | hexEscapeEnd
  | trailingComma
  | trailingCharacters
  | tooDeep
  | invalidType (found : Found) (expected : String)
  | invalidValue (found : Found) (expected : String)
  | invalidLength (found : Nat) (expected : String)
  | unknownVariant (name : String) (known : List String)
  | unknownField (name : String) (known : List String)
  | missingField (name : String)
  | duplicateField (name : String)
  | custom (text : String)

/-- Names in backquotes: alone, as two alternatives, or as a choice of more. -/
def oneOf : List String → String
  | [] => "there are no variants"
  | [a] => s!"`{a}`"
  | [a, b] => s!"`{a}` or `{b}`"
  | names => "one of " ++ String.intercalate ", " (names.map fun n => s!"`{n}`")

def Cause.message : Cause → String
  | .endInList => "EOF while parsing a list"
  | .endInObject => "EOF while parsing an object"
  | .endInString => "EOF while parsing a string"
  | .endInValue => "EOF while parsing a value"
  | .noColon => "expected `:`"
  | .noCommaInList => "expected `,` or `]`"
  | .noCommaInObject => "expected `,` or `\x7d`"
  | .noKeyword => "expected ident"
  | .noValue => "expected value"
  | .invalidEscape => "invalid escape"
  | .invalidNumber => "invalid number"
  | .numberOutOfRange => "number out of range"
  | .invalidUtf8 => "invalid unicode code point"
  | .controlCharacter => "control character (\\u0000-\\u001F) found while parsing a string"
  | .keyNotString => "key must be a string"
  | .loneSurrogate => "lone leading surrogate in hex escape"
  | .hexEscapeEnd => "unexpected end of hex escape"
  | .trailingComma => "trailing comma"
  | .trailingCharacters => "trailing characters"
  | .tooDeep => "recursion limit exceeded"
  | .invalidType found expected => s!"invalid type: {found.text}, expected {expected}"
  | .invalidValue found expected => s!"invalid value: {found.text}, expected {expected}"
  | .invalidLength n expected => s!"invalid length {n}, expected {expected}"
  | .unknownVariant name known => s!"unknown variant `{name}`, expected {oneOf known}"
  | .unknownField name known => s!"unknown field `{name}`, expected {oneOf known}"
  | .missingField name => s!"missing field `{name}`"
  | .duplicateField name => s!"duplicate field `{name}`"
  | .custom text => text

/-- A cause, and how many bytes stand before the place it is reported at. -/
structure Fault where
  cause : Cause
  index : Option Nat := none

/-- The fault as it leaves a value: one without a place gets this one. -/
def Fault.locate (fault : Fault) (index : Nat) : Fault :=
  { fault with index := fault.index.or (some index) }

/-- The line, from one, and the column of the place behind the first bytes of a text. -/
def position (before : List UInt8) : Nat × Nat :=
  before.foldl
    (fun (line, column) (b : UInt8) => if b = 10 then (line + 1, 0) else (line, column + 1)) (1, 0)

/-- The text of a fault found in `input`. -/
def Fault.message (fault : Fault) (input : List UInt8) : String :=
  match fault.index with
  | none => fault.cause.message
  | some index =>
    let (line, column) := position (input.take index)
    s!"{fault.cause.message} at line {line} column {column}"

end Courier.Json
