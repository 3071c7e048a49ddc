import Courier.Error
import Courier.Json.Codec
import Courier.Notification
import Courier.Text.Blank
import Courier.Url

/-!
Delivery by webhook. The payload of a notification names a URL and a body to be posted there. A
client posts it over a transport, which tells what became of the request; any answer but one of
success is a failure, and so is none.
-/

namespace Courier

structure WebhookSettings where
  timeout : Duration
  userAgent : String
  deriving DecidableEq

structure WebhookPayload where
  url : String
  body : String
  deriving DecidableEq

namespace WebhookPayload

open Json

def codec : Codec WebhookPayload :=
  .record "WebhookPayload"
    (.cons (.required "url" .string)
    (.cons (.required "body" .string)
      .nil))
    (fun (url, body, _) => { url, body })
    (fun p => (p.url, p.body, ()))

/-- Reads a payload, whose URL must not be blank. -/
def ofText (raw : String) : Except DeliveryError WebhookPayload :=
  let bytes := Bytes.ofString raw
  match codec.decode bytes with
  | .error fault => .error (.invalidPayload s!"webhook payload: {fault.message bytes}")
  | .ok p =>
    if Text.isBlankText p.url then .error (.invalidPayload "Webhook url is required")
    else .ok p

end WebhookPayload

structure PostRequest where
  url : Url
  contentType : String
  userAgent : String
  body : String
  timeout : Duration

inductive Exchange where
  | answered (status : Nat) (body : String)
  /-- No connection came about. -/
  | unreachable
  /-- There was no answer in time. -/
  | timedOut
  /-- The connection ended, or what came was no answer. -/
  | broken

/-- The side that sends requests. -/
abbrev Transport := PostRequest → Exchange

def Transport.offline : Transport := fun _ => .unreachable

/-- A client whose settings are known to be usable. -/
structure WebhookClient where
  settings : WebhookSettings

namespace WebhookClient

def channelName : String := "webhook"

def contentType : String := "application/json"

/-- How much of an answer that is no success is kept, in characters. -/
def keptBody : Nat := 1024

/-- Whether a user agent can be sent: it has no control characters but tabs. -/
def canSend (userAgent : String) : Bool :=
  userAgent.toList.all fun c => c = '\t' || (' ' ≤ c && c ≠ '\x7f')

def new (settings : WebhookSettings) : Except DeliveryError WebhookClient :=
  if canSend settings.userAgent then .ok ⟨settings⟩
  else .error (.configuration "failed to build HTTP client: builder error")

/-- The request that posts a payload. -/
def request (c : WebhookClient) (p : WebhookPayload) : Except DeliveryError PostRequest :=
  match Url.ofText p.url with
  | none => .error (.network "builder error")
  | some url =>
    let url := url.withoutUser
    if url.isRequestable then
      .ok ⟨url, contentType, c.settings.userAgent, p.body, c.settings.timeout⟩
    else .error (.network s!"builder error for url ({url.text})")

/-- Whether what became of a request is a delivery. -/
def judge (r : PostRequest) : Exchange → Except DeliveryError Unit
  | .answered status body =>
    if 200 ≤ status ∧ status < 300 then .ok ()
    else .error (.httpStatus status (String.ofList (body.toList.take keptBody)))
  | .unreachable =>
    .error (.network s!"connection failed: error sending request for url ({r.url.text})")
  | .timedOut => .error (.timedOut r.timeout)
  | .broken => .error (.network s!"error sending request for url ({r.url.text})")

def deliver (c : WebhookClient) (transport : Transport) (n : Notification) :
    Except DeliveryError Unit := do
  let request ← c.request (← WebhookPayload.ofText n.payload)
  judge request (transport request)

end WebhookClient
end Courier
