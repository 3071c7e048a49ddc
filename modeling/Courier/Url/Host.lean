import Courier.Text.Blank
import Courier.Text.Unprintable
import Courier.Url.Percent
import Courier.Url.Punycode

/-!
Hosts of URLs: names, addresses of the two versions, and, under schemes that give hosts no meaning
of their own, other texts. A name is written in lower case and in ASCII. A name whose last label
is a number must be an address of version 4.
-/

namespace Courier.Url

inductive Host where
  | name (text : List Char)
  | address4 (value : Nat)
  | address6 (pieces : List Nat)
  | other (text : List Char)
  deriving DecidableEq

/-- The parts of a text between separators. There is always one. -/
def splitAt (isSeparator : Char → Bool) : List Char → List (List Char)
  | [] => [[]]
  | c :: rest =>
    match splitAt isSeparator rest with
    | [] => [[]]
    | part :: parts => if isSeparator c then [] :: part :: parts else (c :: part) :: parts

namespace Host

/-! ## Addresses of version 4 -/

/-- A number in base ten, behind `0x` in base sixteen, behind `0` in base eight. -/
def number (cs : List Char) : Option Nat :=
  match cs with
  | [] => none
  | '0' :: 'x' :: rest => Text.numeral 16 rest
  | '0' :: 'X' :: rest => Text.numeral 16 rest
  | '0' :: c :: rest => Text.numeral 8 (c :: rest)
  | cs => Text.numeral 10 cs

/-- The labels of a name without an empty one at the end. -/
def labels (cs : List Char) : List (List Char) :=
  match (splitAt (· = '.') cs).reverse with
  | [] :: last :: rest => (last :: rest).reverse
  | parts => parts.reverse

/-- Whether the last label of a name is a number, so that the name must be an address. -/
def endsInNumber (cs : List Char) : Bool :=
  match (labels cs).getLast? with
  | none => false
  | some [] => false
  | some last => last.all Char.isDigit || (number last).isSome

/-- The value of an address of version 4. -/
def parse4 (cs : List Char) : Option Nat := do
  let parts := labels cs
  let numbers ← parts.mapM number
  let count := numbers.length
  if 4 < count then none
  let last ← numbers.getLast?
  let first := numbers.dropLast
  if first.any (256 ≤ ·) ∨ Nat.pow 256 (5 - count) ≤ last then none
  return first.zipIdx.foldl (fun sum (n, i) => sum + n * Nat.pow 256 (3 - i)) last

def text4 (value : Nat) : List Char :=
  (String.intercalate "." ([3, 2, 1, 0].map fun i => toString (value / Nat.pow 256 i % 256))).toList

/-! ## Addresses of version 6 -/

/-- The value of up to four hexadecimal digits. -/
def piece (cs : List Char) : Option Nat :=
  if cs.isEmpty ∨ 4 < cs.length then none else Text.numeral 16 cs

/-- Four decimal numbers with points as two pieces. -/
def dottedPieces (cs : List Char) : Option (List Nat) := do
  let numbers ← (splitAt (· = '.') cs).mapM fun part =>
    if part.isEmpty ∨ (part.head? = some '0' ∧ part.length ≠ 1) ∨ 3 < part.length then none
    else Text.numeral 10 part
  match numbers with
  | [a, b, c, d] =>
    if numbers.all (· < 256) then some [a * 256 + b, c * 256 + d] else none
  | _ => none

/-- Pieces with colons between them, the last two perhaps as decimal numbers. -/
def pieces (cs : List Char) : Option (List Nat) :=
  if cs.isEmpty then some []
  else
    let parts := splitAt (· = ':') cs
    parts.zipIdx.foldlM (fun found (part, i) =>
      if part.contains '.' then
        if i + 1 = parts.length then (dottedPieces part).map (found ++ ·) else none
      else (piece part).map fun n => found ++ [n]) []

/-- The text before the first two colons and the text behind them, if there are any. -/
def atGap : List Char → Option (List Char × List Char)
  | [] => none
  | ':' :: ':' :: rest => some ([], rest)
  | c :: rest => (atGap rest).map fun (before, behind) => (c :: before, behind)

/-- The eight pieces of an address of version 6. Two colons stand for pieces of zero. -/
def parse6 (cs : List Char) : Option (List Nat) := do
  match atGap cs with
  | none =>
    let ps ← pieces cs
    if ps.length = 8 then some ps else none
  | some (before, behind) =>
    if before.contains '.' then none
    let first ← pieces before
    let last ← pieces behind
    let missing := 8 - (first.length + last.length)
    if missing = 0 then none else some (first ++ List.replicate missing 0 ++ last)

/-- How many zeros a list begins with. -/
def leadingZeros (ps : List Nat) : Nat := (ps.takeWhile (· = 0)).length

/-- Where the first of the longest rows of at least two zeros begins, and its length. -/
def longestGap (ps : List Nat) : Option (Nat × Nat) :=
  (List.range ps.length).foldl (fun best i =>
    let size := leadingZeros (ps.drop i)
    if 2 ≤ size ∧ (best.map (·.2)).getD 0 < size then some (i, size) else best) none

def hexPieces (ps : List Nat) : List Char :=
  [':'].intercalate (ps.map (Nat.toDigits 16))

def text6 (ps : List Nat) : List Char :=
  match longestGap ps with
  | none => hexPieces ps
  | some (start, size) =>
    hexPieces (ps.take start) ++ ':' :: ':' :: hexPieces (ps.drop (start + size))

/-! ## Names -/

/-- Characters that count for nothing in a name. -/
def isIgnored (c : Char) : Bool :=
  let n := c.toNat
  n == 0xad || n == 0x200b || n == 0x2060 || n == 0xfeff || (0xfe00 ≤ n && n ≤ 0xfe0f)

/-- A character as it stands in a name. Capital letters of the Latin, Greek and Cyrillic alphabets
become small ones, wide forms of ASCII plain ones; all other letters are taken as they are. -/
def foldChar (c : Char) : Char :=
  let n := c.toNat
  if n == 0x3002 || n == 0xff61 then '.'
  else if 0xff01 ≤ n ∧ n ≤ 0xff5e then (Char.ofNat (n - 0xfee0)).toLower
  else if n < 0x80 then c.toLower
  else if (0xc0 ≤ n ∧ n ≤ 0xde ∧ n ≠ 0xd7) ∨ (0x391 ≤ n ∧ n ≤ 0x3a9) ∨ (0x410 ≤ n ∧ n ≤ 0x42f) then
    Char.ofNat (n + 32)
  else if 0x400 ≤ n ∧ n ≤ 0x40f then Char.ofNat (n + 80)
  else if (0x100 ≤ n ∧ n ≤ 0x12f) ∨ (0x132 ≤ n ∧ n ≤ 0x137) ∨ (0x14a ≤ n ∧ n ≤ 0x177) then
    Char.ofNat (n + (n + 1) % 2)
  else if (0x139 ≤ n ∧ n ≤ 0x148) ∨ (0x179 ≤ n ∧ n ≤ 0x17e) then Char.ofNat (n + n % 2)
  else c

/-- Whether a character beyond ASCII cannot stand in a name. -/
def isRefused (c : Char) : Bool :=
  128 ≤ c.toNat && (Text.isBlank c || Text.isUnprintable c || c.toNat == 0xfffd)

/-- Whether an ASCII character cannot stand in a name. -/
def isForbidden (c : Char) : Bool := c ≤ ' ' || c = '\x7f' || "#%/:<>?@[\\]^|".contains c

/-- A label in ASCII. One that is marked as encoded must be so. -/
def asciiLabel (label : List Char) : Option (List Char) :=
  if label.any (128 ≤ ·.toNat) then some ("xn--".toList ++ Punycode.encode label)
  else if "xn--".toList.isPrefixOf label then do
    let decoded ← Punycode.decode (label.drop 4)
    if decoded.any (128 ≤ ·.toNat) then some label else none
  else some label

/-- A name in ASCII, if it can be one. -/
def asciiName (cs : List Char) : Option (List Char) := do
  let folded := (cs.filter (!isIgnored ·)).map foldChar
  if folded.any isRefused then none
  let ls ← (splitAt (· = '.') folded).mapM asciiLabel
  let ascii := ['.'].intercalate ls
  if ascii.isEmpty ∨ ascii.any isForbidden then none else some ascii

/-- Whether a character cannot stand in a host without a meaning. -/
def isForbiddenOther (c : Char) : Bool :=
  "\x00\t\n\r #/:<>?@[\\]^|".contains c

/-- The host that a text names, under a scheme that gives hosts a meaning or does not. -/
def parse (isSpecial : Bool) (cs : List Char) : Option Host :=
  match cs with
  | '[' :: rest => do
    if rest.getLast? = some ']' then (parse6 rest.dropLast).map .address6 else none
  | _ =>
    if isSpecial then do
      let decoded ← Bytes.toString? (percentDecode cs)
      let ascii ← asciiName decoded.toList
      if endsInNumber ascii then (parse4 ascii).map .address4 else some (.name ascii)
    else if cs.any isForbiddenOther then none
    else some (.other (percentEncode isControl cs))

def text : Host → List Char
  | .name cs => cs
  | .address4 n => text4 n
  | .address6 ps => '[' :: text6 ps ++ [']']
  | .other cs => cs

end Host
end Courier.Url
