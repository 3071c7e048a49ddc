/-!
Universally unique identifiers. One is written as 32 lower-case hexadecimal digits in five groups
joined by hyphens. Reading takes digits of both cases, with all four hyphens or with none, and the
hyphenated form also in braces or after `urn:uuid:`. New identifiers come from a supply, in whatever
order, and none comes twice.
-/

namespace Courier

/-- An identifier of 128 bits. -/
structure Uuid where
  bits : BitVec 128
  deriving DecidableEq

namespace Uuid

def nil : Uuid := ⟨0⟩

instance : Inhabited Uuid := ⟨nil⟩

/-- Identifiers compare as numbers, which is the order of their texts. -/
def compare (a b : Uuid) : Ordering := Ord.compare a.bits.toNat b.bits.toNat

/-- How many digits each group has. -/
def groupLengths : List Nat := [8, 4, 4, 4, 12]

inductive Fault where
  /-- A character that is neither a digit nor a hyphen, and the byte at which it begins. -/
  | character (found : Char) (index : Nat)
  /-- Digits alone, but not 32 of them. -/
  | length (found : Nat)
  /-- Another number of groups than five. -/
  | groupCount (found : Nat)
  /-- A group with the wrong number of digits. -/
  | groupLength (group expected found : Nat)
  deriving DecidableEq

def Fault.message : Fault → String
  | .character c i => s!"invalid character: found `{c}` at {i}"
  | .length n => s!"invalid length: found {n}"
  | .groupCount n => s!"invalid group count: expected 5, found {n}"
  | .groupLength g e n => s!"invalid group length in group {g}: expected {e}, found {n}"

/-! ## Writing -/

/-- A hexadecimal digit in lower case. -/
def digit (n : Nat) : Char := Nat.digitChar n

/-- The lowest `count` hexadecimal digits of a number, highest first. -/
def digits : Nat → Nat → List Char
  | 0, _ => []
  | count + 1, n => digit (n / Nat.pow 16 count % 16) :: digits count n

/-- A sequence cut into groups of these lengths, joined by hyphens. -/
def grouped : List Nat → List Char → List Char
  | [], _ => []
  | [n], cs => cs.take n
  | n :: ns, cs => cs.take n ++ '-' :: grouped ns (cs.drop n)

def chars (u : Uuid) : List Char := grouped groupLengths (digits 32 u.bits.toNat)

def text (u : Uuid) : String := String.ofList u.chars

/-! ## Reading -/

/-- The value of a hexadecimal digit of either case. -/
def digitValue (c : Char) : Option Nat :=
  if c.isDigit then some (c.toNat - '0'.toNat)
  else if 'a' ≤ c ∧ c ≤ 'f' then some (c.toNat - 'a'.toNat + 10)
  else if 'A' ≤ c ∧ c ≤ 'F' then some (c.toNat - 'A'.toNat + 10)
  else none

/-- The value of a run of digits, if all are digits. -/
def value (cs : List Char) : Option Nat :=
  cs.foldl (fun acc c => do return (← acc) * 16 + (← digitValue c)) (some 0)

/-- The number that 32 digits spell. -/
def ofDigits? (cs : List Char) : Option Uuid :=
  if cs.length = 32 then (value cs).map fun n => ⟨BitVec.ofNat 128 n⟩ else none

/-- Groups of the right lengths between hyphens, with the hyphens taken out. -/
def ungroup : List Nat → List Char → Option (List Char)
  | [], cs => if cs.isEmpty then some [] else none
  | [n], cs => if cs.length = n then some cs else none
  | n :: ns, cs =>
    match cs.drop n with
    | '-' :: rest => (ungroup ns rest).map (cs.take n ++ ·)
    | _ => none

/-- What stands before an identifier as a resource name, in letters of either case. -/
def urn : List Char := ['u', 'r', 'n', ':', 'u', 'u', 'i', 'd', ':']

/-- The text inside braces or after `urn:uuid:`, how many bytes stand before it, and whether it
stands alone. -/
def unwrap (cs : List Char) : List Char × Nat × Bool :=
  if (cs.take 9).map Char.toLower = urn then (cs.drop 9, 9, false)
  else match cs with
    | '\x7b' :: rest =>
      if rest.getLast? = some '\x7d' then (rest.dropLast, 1, false) else (cs, 0, true)
    | _ => (cs, 0, true)

/-- The first character that is neither a digit nor a hyphen, with the byte at which it begins. -/
def foreign? (index : Nat) : List Char → Option (Char × Nat)
  | [] => none
  | c :: rest =>
    if c = '-' ∨ (digitValue c).isSome then foreign? (index + c.utf8Size) rest
    else some (c, index)

/-- The lengths of the runs between hyphens. -/
def runs (cs : List Char) : List Nat :=
  cs.foldr (fun c acc => if c = '-' then 0 :: acc else
    match acc with
    | [] => [1]
    | n :: rest => (n + 1) :: rest) [0]

/-- The first group with a wrong length. A last group is measured to the end of the whole text. -/
def wrongGroup (total : Nat) (lengths : List Nat) : Fault :=
  match ((lengths.take 4).zip groupLengths).zipIdx.find? fun p => p.1.1 != p.1.2 with
  | some ((found, expected), group) => .groupLength group expected found
  | none => .groupLength 4 12 (total - 24)

/-- What is wrong with a text that is no identifier. -/
def faultOf (s : String) : Fault :=
  let (inner, skipped, alone) := unwrap s.toList
  match foreign? skipped inner with
  | some (c, i) => .character c i
  | none =>
    let lengths := runs inner
    if lengths.length = 1 ∧ alone then .length s.utf8ByteSize
    else if lengths.length ≠ 5 then .groupCount lengths.length
    else wrongGroup s.utf8ByteSize lengths

def ofText (s : String) : Except Fault Uuid :=
  let cs := s.toList
  let (inner, _, alone) := unwrap cs
  let found := match ungroup groupLengths inner with
    | some ds => ofDigits? ds
    | none => if alone then ofDigits? cs else none
  match found with
  | some u => .ok u
  | none => .error (faultOf s)

/-! ## New identifiers -/

/-- An identifier whose digits mark it as random, with the given number in the others. -/
def ofSerial (n : Nat) : Uuid :=
  let low := n % 0x4000_0000_0000_0000
  let high := n / 0x4000_0000_0000_0000
  ⟨BitVec.ofNat 128 (high / 0x1000 % 0x1_0000_0000_0000 * 0x1_0000_0000_0000_0000_0000
    + 0x4000_0000_0000_0000_0000 + high % 0x1000 * 0x1_0000_0000_0000_0000
    + 0x8000_0000_0000_0000 + low)⟩

/-- How many identifiers there are whose digits mark them as random: 122 of their bits are free. -/
def count : Nat := 0x400_0000_0000_0000_0000_0000_0000_0000

/-- The places of an identifier's number: 62 bits and then twelve low down, the rest above. -/
private theorem toNat_ofSerial {n : Nat} (h : n < count) :
    (ofSerial n).bits.toNat =
      n / 0x400_0000_0000_0000_0000 * 0x1_0000_0000_0000_0000_0000 + 0x4000_0000_0000_0000_0000 +
        n / 0x4000_0000_0000_0000 % 0x1000 * 0x1_0000_0000_0000_0000 + 0x8000_0000_0000_0000 +
          n % 0x4000_0000_0000_0000 := by
  have hhigh : n / 0x4000_0000_0000_0000 / 0x1000 = n / 0x400_0000_0000_0000_0000 :=
    Nat.div_div_eq_div_mul ..
  have hfits : n / 0x400_0000_0000_0000_0000 < 0x1_0000_0000_0000 := by
    unfold count at h
    omega
  simp only [ofSerial, BitVec.toNat_ofNat, hhigh, Nat.mod_eq_of_lt hfits]
  apply Nat.mod_eq_of_lt
  omega

/-- Identifiers made of different numbers differ as long as there are digits for them. -/
theorem ofSerial_inj {m n : Nat} (hm : m < count) (hn : n < count)
    (h : ofSerial m = ofSerial n) : m = n := by
  have hbits := congrArg (fun u => u.bits.toNat) h
  simp only [toNat_ofSerial hm, toNat_ofSerial hn] at hbits
  have hparts : m / 0x400_0000_0000_0000_0000 = n / 0x400_0000_0000_0000_0000 ∧
      m / 0x4000_0000_0000_0000 % 0x1000 = n / 0x4000_0000_0000_0000 % 0x1000 ∧
      m % 0x4000_0000_0000_0000 = n % 0x4000_0000_0000_0000 := by
    omega
  omega

/-- The identifiers to come, in the order in which they are drawn. Their free bits are chosen at
random, and no choice is made twice as long as there is another one. -/
structure Supply where
  draw : Nat → Uuid
  distinct : ∀ m n, m < count → n < count → draw m = draw n → m = n

/-- Identifiers drawn in the order of the numbers they are made of. -/
def Supply.counting : Supply := ⟨ofSerial, fun _ _ hm hn => ofSerial_inj hm hn⟩

end Uuid
end Courier
