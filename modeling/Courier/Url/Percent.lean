import Courier.Text.Escape
import Courier.Uuid
import Courier.Text.Utf8

/-!
Percent-encoding. Each part of a URL has characters that cannot stand in it; such a character, and
any beyond ASCII, is written as its UTF-8 bytes, each as a percent sign and two digits.
-/

namespace Courier.Url

/-- A control character or one beyond ASCII. No part of a URL can hold these. -/
def isControl (c : Char) : Bool := c < ' ' || '~' < c

/-- The characters that cannot stand in a fragment. -/
def outsideFragment (c : Char) : Bool := isControl c || " \"<>\x60".contains c

/-- The characters that cannot stand in a path. -/
def outsidePath (c : Char) : Bool := outsideFragment c || "#?\x7b\x7d".contains c

/-- The characters that cannot stand in a user name or a password. -/
def outsideUser (c : Char) : Bool := outsidePath c || "/:;=@[\\]^|".contains c

/-- The characters that cannot stand in a query. -/
def outsideQuery (isSpecial : Bool) (c : Char) : Bool :=
  isControl c || " \"#<>".contains c || (isSpecial && c = '\'')

def percentByte (b : UInt8) : List Char :=
  '%' :: (Nat.toDigits 16 (b.toNat / 16) ++ Nat.toDigits 16 (b.toNat % 16)).map Char.toUpper

def percentEncode (set : Char → Bool) (cs : List Char) : List Char :=
  cs.flatMap fun c =>
    if set c then (Bytes.ofString (String.singleton c)).flatMap percentByte else [c]

/-- The bytes of a text whose encoded bytes are decoded. A percent sign that is not followed by
two digits stands for itself. -/
def percentDecode : List Char → Bytes
  | [] => []
  | '%' :: a :: b :: rest =>
    match Text.numeral 16 [a, b] with
    | some n => n.toUInt8 :: percentDecode rest
    | none => (Bytes.ofString "%") ++ percentDecode (a :: b :: rest)
  | c :: rest => Bytes.ofString (String.singleton c) ++ percentDecode rest

end Courier.Url
