import Courier.Json.Codec

/-!
JSON values of any shape. Reading one goes at most 127 brackets deep. The entries of an object are
kept in the order of their names, and of several entries with one name the last counts.
-/

namespace Courier.Json

inductive Value where
  | null
  | boolean (value : Bool)
  | integer (value : Int)
  | float (value : Binary64)
  | string (value : String)
  | list (elements : List Value)
  | object (entries : List (String × Value))

namespace Value

open Reader

/-- Entries with one more, which takes the place of an earlier one of its name. -/
def insertEntry (name : String) (value : Value) :
    List (String × Value) → List (String × Value)
  | [] => [(name, value)]
  | (other, kept) :: rest =>
    if name = other then (name, value) :: rest
    else if name < other then (name, value) :: (other, kept) :: rest
    else (other, kept) :: insertEntry name value rest

def ofEntries (entries : List (String × Value)) : Value :=
  .object (entries.foldl (fun found entry => insertEntry entry.1 entry.2 found) [])

mutual

/-- Reads a value with `fuel` steps left and room for `depth` more brackets. -/
def read (fuel depth : Nat) : Reader Value := do
  match fuel with
  | 0 => failNext .endInValue
  | fuel + 1 =>
    match ← peekToken with
    | none => failNext .endInValue
    | some b =>
      if b = byte 'n' then
        advance
        keyword ['u', 'l', 'l']
        return .null
      else if b = byte 't' then
        advance
        keyword ['r', 'u', 'e']
        return .boolean true
      else if b = byte 'f' then
        advance
        keyword ['a', 'l', 's', 'e']
        return .boolean false
      else if b = byte '-' ∨ isDigit b then
        match ← number with
        | .whole n => return .integer n
        | .float x => return .float x
      else if b = byte '"' then
        advance
        return .string (← Reader.string)
      else if b = byte '[' then
        match depth with
        | 0 => failNext .tooDeep
        | depth + 1 =>
          advance
          closedBy (do return .list (← readElements fuel depth true)) listEnd
      else if b = byte '\x7b' then
        match depth with
        | 0 => failNext .tooDeep
        | depth + 1 =>
          advance
          closedBy (do return .object (← readEntries fuel depth true [])) objectEnd
      else failNext .noValue

def readElements (fuel depth : Nat) (isFirst : Bool) : Reader (List Value) := do
  match fuel with
  | 0 => failNext .endInList
  | fuel + 1 =>
    if ← nextElement isFirst then
      let value ← read fuel depth
      return value :: (← readElements fuel depth false)
    else return []

/-- Reads the entries of an object and adds them to those found before. -/
def readEntries (fuel depth : Nat) (isFirst : Bool) (found : List (String × Value)) :
    Reader (List (String × Value)) := do
  match fuel with
  | 0 => failNext .endInObject
  | fuel + 1 =>
    match ← nextKey isFirst with
    | none => return found
    | some name =>
      colon
      let value ← read fuel depth
      readEntries fuel depth false (insertEntry name value found)

end

def decode (text : Bytes) : Except Fault Value :=
  readAll (do read (2 * (← get).rest.length + 2) 127) text

mutual

def write : Value → Bytes
  | .null => Bytes.ofString "null"
  | .boolean b => Bytes.ofString (if b then "true" else "false")
  | .integer n => intBytes n
  | .float x => Bytes.ofString (floatText x)
  | .string s => quote s
  | .list elements => byte '[' :: (writeElements elements ++ [byte ']'])
  | .object entries => byte '\x7b' :: (writeEntries entries ++ [byte '\x7d'])

def writeElements : List Value → Bytes
  | [] => []
  | [v] => v.write
  | v :: rest => v.write ++ byte ',' :: writeElements rest

def writeEntries : List (String × Value) → Bytes
  | [] => []
  | [(name, v)] => quote name ++ byte ':' :: v.write
  | (name, v) :: rest => quote name ++ byte ':' :: (v.write ++ byte ',' :: writeEntries rest)

end

/-- The value that the written form of something spells. -/
def written {α : Type} (codec : Codec α) (a : α) : Value :=
  (decode (codec.write a)).toOption.getD .null

end Value
end Courier.Json
