import Courier.Json.Value

/-!
Taking values apart by what they should be. A field that is absent counts as null, and where a
default is given it stands for both.
-/

namespace Courier.Json.Value

/-- The value of a field, null if there is none. -/
def field (v : Value) (name : String) : Value :=
  match v with
  | .object entries => (entries.lookup name).getD .null
  | _ => .null

/-- Whether a field is there and not null. -/
def has (v : Value) (name : String) : Bool := !(v.field name matches .null)

def asString : Value → Except String String
  | .string s => .ok s
  | _ => .error "string expected"

def asInt : Value → Except String Int
  | .integer n => .ok n
  | _ => .error "integer expected"

def asNat (v : Value) : Except String Nat := v.asInt.map Int.toNat

def asList : Value → Except String (List Value)
  | .list vs => .ok vs
  | .null => .ok []
  | _ => .error "list expected"

/-- A field read in some way, or its default. -/
def fieldOr {α : Type} (read : Value → Except String α) (v : Value) (name : String)
    (default : α) : Except String α :=
  if v.has name then read (v.field name) else .ok default

/-- A field read in some way, if it is there. -/
def field? {α : Type} (read : Value → Except String α) (v : Value) (name : String) :
    Except String (Option α) :=
  if v.has name then (read (v.field name)).map some else .ok none

end Courier.Json.Value
