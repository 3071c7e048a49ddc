import Courier.Error
import Courier.Wire.Record

/-!
What travels on the bus: envelopes, each with a notification as it was when it was sent, and
reports on messages that could not be read.
-/

namespace Courier

inductive Topic where
  | send
  | retry
  | deadLetter
  deriving DecidableEq, Repr

namespace Topic

def name : Topic → String
  | .send => "echo.notify.send"
  | .retry => "echo.notify.retry"
  | .deadLetter => "echo.notify.dlq"

def all : List Topic := [.send, .retry, .deadLetter]

end Topic

open Json Wire

/-- A notification on its way, stamped with the time of sending in milliseconds since 1970. -/
structure Envelope where
  eventType : String
  notification : Notification
  timestamp : Int
  deriving DecidableEq

namespace Envelope

/-- The kind of event that every envelope carries. -/
def notificationEvent : String := "NOTIFICATION"

def ofNotification (n : Notification) (now : Instant) : Envelope :=
  ⟨notificationEvent, n, now.timestampMillis⟩

def codec : Codec Envelope :=
  .record "NotificationMessage"
    (.cons (.required "eventType" .string)
    (.cons (.required "notification" carriedNotification)
    (.cons (.required "timestamp" .int64)
      .nil)))
    (fun (eventType, notification, timestamp, _) => { eventType, notification, timestamp })
    (fun e => (e.eventType, e.notification, e.timestamp, ()))

def encode (e : Envelope) : Bytes := codec.write e

def decode (bytes : Bytes) : Except StoreError Envelope :=
  (codec.decode bytes).mapError fun f => .serialization (f.message bytes)

end Envelope

/-- A report on a message that could not be read. -/
structure UnreadableReport where
  reason : String
  sourceTopic : String
  sourcePartition : Int
  sourceOffset : Int
  rawPayload : String
  timestamp : Int
  deriving DecidableEq

namespace UnreadableReport

/-- A report on the message at a place of a topic, with its payload as far as it is text. -/
def ofPayload (topic : String) (partition offset : Int) (payload : Bytes) (now : Instant) :
    UnreadableReport :=
  ⟨"DESERIALIZATION_ERROR", topic, partition, offset, Bytes.toStringLossy payload,
    now.timestampMillis⟩

def codec : Codec UnreadableReport :=
  .record "DlqErrorMessage"
    (.cons (.required "reason" .string)
    (.cons (.required "sourceTopic" .string)
    (.cons (.required "sourcePartition" .int32)
    (.cons (.required "sourceOffset" .int64)
    (.cons (.required "rawPayload" .string)
    (.cons (.required "timestamp" .int64)
      .nil))))))
    (fun (reason, sourceTopic, sourcePartition, sourceOffset, rawPayload, timestamp, _) =>
      { reason, sourceTopic, sourcePartition, sourceOffset, rawPayload, timestamp })
    (fun r => (r.reason, r.sourceTopic, r.sourcePartition, r.sourceOffset, r.rawPayload,
      r.timestamp, ()))

def encode (r : UnreadableReport) : Bytes := codec.write r

end UnreadableReport
end Courier
