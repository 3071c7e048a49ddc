import Courier.Settings.Setting

/-!
What a setting may be. A kind reads settings as values of a type and says what it expects when it
cannot. Numbers have to be whole and within their width; texts must be texts, not numbers or truth
values.
-/

namespace Courier

inductive Mismatch where
  /-- It is no such thing at all. -/
  | invalidType (found : Setting) (expected : String)
  /-- It is, but out of range. -/
  | invalidValue (found : Setting) (expected : String)

def Mismatch.message : Mismatch → String
  | .invalidType found expected => s!"invalid type: found {found.describe}, expected {expected}"
  | .invalidValue found expected => s!"invalid value {found.describe}, expected {expected}"

/-- How values of a type are read from settings and written as such. -/
structure Kind (α : Type) where
  read : Setting → Except Mismatch α
  write : α → Setting

namespace Kind

def text : Kind String where
  read
    | .text s => .ok s
    | s => .error (.invalidType s "a string")
  write := .text

/-- Whole numbers below a bound. -/
def natural (expected : String) (bound : Nat) : Kind Nat where
  read s :=
    match s with
    | .unsigned n => if n < bound then .ok n else .error (.invalidValue s expected)
    | .signed i =>
      if 0 ≤ i ∧ i < bound then .ok i.toNat else .error (.invalidValue s expected)
    | s => .error (.invalidType s expected)
  write := .unsigned

theorem read_write_natural {expected : String} {bound n : Nat} (h : n < bound) :
    (natural expected bound).read ((natural expected bound).write n) = .ok n := by
  simp [natural, h]

/-- Values of another type instead. -/
def map {α β : Type} (kind : Kind α) (f : α → β) (g : β → α) : Kind β where
  read s := (kind.read s).map f
  write b := kind.write (g b)

def uint32 : Kind UInt32 := (natural "u32" 0x1_0000_0000).map (UInt32.ofNat ·) (·.toNat)

def uint64 : Kind UInt64 := (natural "u64" 0x1_0000_0000_0000_0000).map (UInt64.ofNat ·) (·.toNat)

theorem read_write_uint32 (n : UInt32) : uint32.read (uint32.write n) = .ok n := by
  simp [uint32, map, natural, Except.map, n.toNat_lt]

theorem read_write_uint64 (n : UInt64) : uint64.read (uint64.write n) = .ok n := by
  simp [uint64, map, natural, Except.map, n.toNat_lt]

/-- Numbers of things, of 64 bits. -/
def size : Kind UInt64 := (natural "usize" 0x1_0000_0000_0000_0000).map (UInt64.ofNat ·) (·.toNat)

def optional {α : Type} (kind : Kind α) : Kind (Option α) where
  read
    | .absent => .ok none
    | s => (kind.read s).map some
  write
    | none => .absent
    | some a => kind.write a

end Kind
end Courier
