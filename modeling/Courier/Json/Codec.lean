import Courier.Json.Skip

/-!
Codecs: how values of a type are written as JSON and read back. A record is described once, as a
list of fields with a codec each, and both directions follow the description. Records are written
as objects without blanks, in the order of their fields; they are read from objects with the
fields in any order, unknown ones skipped, and also from lists of the values in order.
-/

namespace Courier.Json

open Reader

/-- How values of a type are read and written. -/
structure Codec (α : Type) where
  read : Reader α
  write : α → Bytes

/-- A value read from the whole of a text. -/
def Codec.decode {α : Type} (codec : Codec α) (text : Bytes) : Except Fault α :=
  readAll codec.read text

/-! ## Strings -/

/-- The last two digits of the escape of a control character. -/
def controlDigits (b : UInt8) : Bytes :=
  [byte (Nat.digitChar (b.toNat / 16)), byte (Nat.digitChar (b.toNat % 16))]

/-- A byte as it stands in a string: quote, backslash and control characters are escaped, by a
letter where there is one. -/
def escapeByte (b : UInt8) : Bytes :=
  if b = byte '"' then [byte '\\', byte '"']
  else if b = byte '\\' then [byte '\\', byte '\\']
  else if b = 8 then [byte '\\', byte 'b']
  else if b = 9 then [byte '\\', byte 't']
  else if b = 10 then [byte '\\', byte 'n']
  else if b = 12 then [byte '\\', byte 'f']
  else if b = 13 then [byte '\\', byte 'r']
  else if b < 32 then [byte '\\', byte 'u', byte '0', byte '0'] ++ controlDigits b
  else [b]

def quote (s : String) : Bytes :=
  byte '"' :: ((Bytes.ofString s).flatMap escapeByte ++ [byte '"'])

def intBytes (n : Int) : Bytes := Bytes.ofString (toString n)

namespace Codec

/-- A token read after blanks; `expected` names what should stand there if another token does. -/
def token {α : Type} (expected : String) (starts : UInt8 → Bool) (r : Reader α) : Reader α := do
  match ← peekToken with
  | none => failNext .endInValue
  | some b => located (if starts b then r else failType expected)

/-- A string from which a value is read, or why none can be. -/
def parsed {α : Type} (expected : String) (parse : String → Except String α)
    (text : α → String) : Codec α where
  read := token expected (· == byte '"') do
    advance
    match parse (← Reader.string) with
    | .ok a => return a
    | .error reason => failUnplaced (.custom reason)
  write a := quote (text a)

def string : Codec String := parsed "a string" .ok id

/-- Whole numbers within bounds, in a type that holds just them. -/
def integer {α : Type} (expected : String) (low high : Int) (ofInt : Int → α)
    (toInt : α → Int) : Codec α where
  read := token expected (fun b => b == byte '-' || isDigit b) do
    match ← number with
    | .whole n =>
      if low ≤ n ∧ n ≤ high then return ofInt n
      else failUnplaced (.invalidValue (.integer n) expected)
    | .float x => failUnplaced (.invalidType (.float x) expected)
  write a := intBytes (toInt a)

def uint32 : Codec UInt32 :=
  integer "u32" 0 0xffff_ffff (fun n => UInt32.ofNat n.toNat) (fun a => a.toNat)

def uint64 : Codec UInt64 :=
  integer "u64" 0 0xffff_ffff_ffff_ffff (fun n => UInt64.ofNat n.toNat) (fun a => a.toNat)

/-- A size: 64 bits, like any other count, but named so in faults. -/
def size : Codec UInt64 :=
  integer "usize" 0 0xffff_ffff_ffff_ffff (fun n => UInt64.ofNat n.toNat) (fun a => a.toNat)

def int32 : Codec Int := integer "i32" (-0x8000_0000) 0x7fff_ffff id id

def int64 : Codec Int := integer "i64" (-0x8000_0000_0000_0000) 0x7fff_ffff_ffff_ffff id id

def boolean : Codec Bool where
  read := token "a boolean" (fun b => b == byte 't' || b == byte 'f') do
    if (← next) = some (byte 't') then
      keyword ['r', 'u', 'e']
      return true
    else
      keyword ['a', 'l', 's', 'e']
      return false
  write b := Bytes.ofString (if b then "true" else "false")

def null : Codec Unit where
  read := token "unit" (· == byte 'n') do
    advance
    keyword ['u', 'l', 'l']
  write _ := Bytes.ofString "null"

def optional {α : Type} (codec : Codec α) : Codec (Option α) where
  read := do
    if (← peekToken) = some (byte 'n') then
      advance
      keyword ['u', 'l', 'l']
      return none
    else return some (← codec.read)
  write
    | none => Bytes.ofString "null"
    | some a => codec.write a

/-- One of some named values: its name, or an object with its name as key and null as value. -/
def enumeration {α : Type} (names : List (String × α)) (name : α → String) : Codec α where
  read := do
    match ← peekToken with
    | none => failNext .endInValue
    | some b =>
      if b = byte '"' then variant
      else if b = byte '\x7b' then
        advance
        let a ← variant
        colon
        null.read
        match ← peekToken with
        | none => failHere .endInObject
        | some b => if b = byte '\x7d' then advance else failHere .noValue
        return a
      else failNext .noValue
  write a := quote (name a)
where
  variant : Reader α := token "variant identifier" (· == byte '"') do
    advance
    let found ← Reader.string
    match names.lookup found with
    | some a => return a
    | none => failUnplaced (.unknownVariant found (names.map Prod.fst))

end Codec

/-! ## Records -/

/-- A field of a record. `absent` is its value in an object without it and `cut` its value in a
list that ends before it; without them such an object or list is refused. `omitted` says which
values are not written. -/
structure Field (α : Type) where
  name : String
  codec : Codec α
  absent : Option α := none
  cut : Option α := none
  omitted : α → Bool := fun _ => false

namespace Field

/-- A field that has to be given. -/
def required {α : Type} (name : String) (codec : Codec α) : Field α := { name, codec }

/-- A field whose absence means that there is no value, written as null. -/
def nullable {α : Type} (name : String) (codec : Codec α) : Field (Option α) :=
  { name, codec := codec.optional, absent := some none }

/-- A field that is left out if there is no value. -/
def optional {α : Type} (name : String) (codec : Codec α) : Field (Option α) :=
  { name, codec := codec.optional, absent := some none, cut := some none,
    omitted := Option.isNone }

end Field

/-- The fields of a record in order. The first index is the type of their values together, the
second the type of the values found so far. -/
inductive Fields : Type → Type → Type 1 where
  | nil : Fields Unit Unit
  | cons {α τ σ : Type} (field : Field α) (rest : Fields τ σ) : Fields (α × τ) (Option α × σ)

namespace Fields

def count : {τ σ : Type} → Fields τ σ → Nat
  | _, _, .nil => 0
  | _, _, .cons _ rest => rest.count + 1

def names : {τ σ : Type} → Fields τ σ → List String
  | _, _, .nil => []
  | _, _, .cons field rest => field.name :: rest.names

/-- Nothing found yet. -/
def unread : {τ σ : Type} → Fields τ σ → σ
  | _, _, .nil => ()
  | _, _, .cons _ rest => (none, rest.unread)

/-- Reads the colon and value behind the name of a field, unless the field has been found before.
Nothing if no field has that name. -/
def readEntry (name : String) : {τ σ : Type} → Fields τ σ → σ → Option (Reader σ)
  | _, _, .nil, _ => none
  | _, _, .cons field rest, (found, others) =>
    if field.name = name then
      some <| match found with
        | some _ => failUnplaced (.duplicateField name)
        | none => do
          colon
          return (some (← field.codec.read), others)
    else (rest.readEntry name others).map fun r => do return (found, ← r)

/-- The values found in an object, completed by those of absent fields. -/
def complete : {τ σ : Type} → Fields τ σ → σ → Except Cause τ
  | _, _, .nil, _ => .ok ()
  | _, _, .cons field rest, (found, others) =>
    match found.or field.absent with
    | some a => (rest.complete others).map fun values => (a, values)
    | none => .error (.missingField field.name)

/-- Reads the entries of an object behind its opening brace. `unknown` is what becomes of a name
that no field has. -/
def readEntries {τ σ : Type} (fields : Fields τ σ) (unknown : String → Reader Unit) :
    Nat → Bool → σ → Reader σ
  | 0, _, found => return found
  | fuel + 1, isFirst, found => do
    match ← nextKey isFirst with
    | none => return found
    | some name =>
      match fields.readEntry name found with
      | some r => fields.readEntries unknown fuel false (← r)
      | none =>
        unknown name
        fields.readEntries unknown fuel false found

/-- Reads the values of all fields from a list behind its opening bracket. -/
def readElements (expected : String) :
    {τ σ : Type} → Nat → Fields τ σ → Reader τ
  | _, _, _, .nil => return ()
  | _, _, position, .cons field rest => do
    if ← nextElement (position == 0) then
      let a ← field.codec.read
      return (a, ← rest.readElements expected (position + 1))
    else match field.cut with
      | some a => return (a, ← rest.readElements expected (position + 1))
      | none => failUnplaced (.invalidLength position expected)

def entries : {τ σ : Type} → Fields τ σ → τ → List (String × Bytes)
  | _, _, .nil, _ => []
  | _, _, .cons field rest, (a, values) =>
    if field.omitted a then rest.entries values
    else (field.name, field.codec.write a) :: rest.entries values

end Fields

/-- Entries joined by commas, without the braces. -/
def joinEntries : List (String × Bytes) → Bytes
  | [] => []
  | [(name, value)] => quote name ++ byte ':' :: value
  | (name, value) :: rest => quote name ++ byte ':' :: (value ++ byte ',' :: joinEntries rest)

def objectBytes (entries : List (String × Bytes)) : Bytes :=
  byte '\x7b' :: (joinEntries entries ++ [byte '\x7d'])

/-- How a record type names itself in faults, and what it accepts beyond its fields. -/
structure RecordStyle where
  /-- What should stand where a token of another kind does. -/
  expected : String
  /-- What a list that is too short should have been. -/
  expectedList : String
  /-- What becomes of a field that the record does not have. -/
  unknown : String → Reader Unit

/-- A record with this name that passes over unknown fields. -/
def RecordStyle.lenient (name : String) (fieldCount : Nat) : RecordStyle where
  expected := s!"struct {name}"
  expectedList := s!"struct {name} with {fieldCount} " ++
    (if fieldCount = 1 then "element" else "elements")
  unknown _ := do
    colon
    skipValue

/-- The codec of a record: `make` builds it from the values of its fields and may refuse them,
`view` takes it apart. -/
def Codec.recordWith {α τ σ : Type} (style : RecordStyle) (fields : Fields τ σ)
    (make : τ → Except String α) (view : α → τ) : Codec α where
  read := do
    match ← peekToken with
    | none => failNext .endInValue
    | some b =>
      located do
        if b = byte '[' then
          advance
          closedBy (do build (← fields.readElements style.expectedList 0)) listEnd
        else if b = byte '\x7b' then
          advance
          closedBy (do
            let fuel := (← get).rest.length + 1
            let found ← fields.readEntries style.unknown fuel true fields.unread
            match fields.complete found with
            | .ok values => build values
            | .error cause => failUnplaced cause) objectEnd
        else failType style.expected
  write a := objectBytes (fields.entries (view a))
where
  build (values : τ) : Reader α :=
    match make values with
    | .ok a => return a
    | .error reason => failUnplaced (.custom reason)

/-- The codec of a record that any values of its fields make up. -/
def Codec.record {α τ σ : Type} (name : String) (fields : Fields τ σ) (make : τ → α)
    (view : α → τ) : Codec α :=
  .recordWith (.lenient name fields.count) fields (fun values => .ok (make values)) view

end Courier.Json
