import Courier.Text.Utf8
import Courier.Uuid

/-!
Bytes as pairs of hexadecimal digits, written in lower case and read in either.
-/

namespace Courier.Bytes

def hex (bytes : Bytes) : String := String.ofList (bytes.flatMap fun b => Uuid.digits 2 b.toNat)

/-- The bytes of pairs of digits. What is no digit counts as zero; a last single digit is lost. -/
def ofHex : List Char → Bytes
  | a :: b :: rest =>
    ((Uuid.digitValue a).getD 0 * 16 + (Uuid.digitValue b).getD 0).toUInt8 :: ofHex rest
  | _ => []

end Courier.Bytes
