import Courier.Text.Utf8
import Courier.Uuid

/-!
The two events that are part of what the pipeline does and leave no other trace: an email handed
to the relay, and a record seen on the dead-letter topic. An entry is shown as named texts.
-/

namespace Courier

inductive JournalEntry where
  | relayed (id : Uuid) (recipient sender subject : String)
  | deadLetterSeen (key : Option String) (offset : Int) (payload : Bytes)
  deriving DecidableEq

/-- The entry as named texts; a missing key shows as a hyphen, bytes as far as they are text. -/
def JournalEntry.fields : JournalEntry → List (String × String)
  | .relayed id recipient sender subject =>
    [("message", "email handed to relay"), ("notification_id", id.text), ("recipient", recipient),
      ("from", sender), ("subject", subject)]
  | .deadLetterSeen key offset payload =>
    [("message", "dead-letter record received"), ("key", key.getD "-"),
      ("offset", toString offset), ("payload", Bytes.toStringLossy payload)]

end Courier
