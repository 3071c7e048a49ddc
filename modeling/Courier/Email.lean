import Courier.Error
import Courier.Journal
import Courier.Json.Codec
import Courier.Text.Blank

/-!
Delivery by email. The payload of a notification is a record of subject, body and sender; a
notification is delivered by handing it to the relay, once its payload proves complete.
-/

namespace Courier

structure EmailPayload where
  subject : String
  body : String
  sender : String
  deriving DecidableEq

namespace EmailPayload

open Json

def codec : Codec EmailPayload :=
  .record "EmailPayload"
    (.cons (.required "subject" .string)
    (.cons (.required "body" .string)
    (.cons (.required "from" .string)
      .nil)))
    (fun (subject, body, sender, _) => { subject, body, sender })
    (fun p => (p.subject, p.body, p.sender, ()))

/-- Reads a payload, whose subject and body must not be blank. -/
def ofText (raw : String) : Except DeliveryError EmailPayload :=
  let bytes := Bytes.ofString raw
  match codec.decode bytes with
  | .error fault => .error (.invalidPayload s!"email payload: {fault.message bytes}")
  | .ok p =>
    if Text.isBlankText p.subject then .error (.invalidPayload "Email subject is required")
    else if Text.isBlankText p.body then .error (.invalidPayload "Email body is required")
    else .ok p

end EmailPayload

namespace Email

def channelName : String := "email"

/-- Hands a notification to the relay. -/
def deliver (n : Notification) : Except DeliveryError JournalEntry :=
  (EmailPayload.ofText n.payload).map fun p => .relayed n.id n.recipient p.sender p.subject

end Email
end Courier
