import Courier.Wire.Scalar

/-!
The written forms of notifications, outbox events and requests. A notification has two: as a
record of the store it shows every field, null where there is no value; inside an envelope its
fields have names in the style of the bus and are left out where there is no value.
-/

namespace Courier.Wire

open Json

/-- The values of a notification in the order of its fields. -/
abbrev NotificationValues :=
  Uuid × Medium × String × String × String × String × Status × UInt32 × Option String ×
    Option String × Option String × Option Bool × Option Instant × Instant × Instant × Unit

def notificationValues (n : Notification) : NotificationValues :=
  (n.id, n.medium, n.recipient, n.clientId, n.payload, n.idempotencyKey, n.status, n.retryCount,
    n.errorMessage, n.errorCode, n.errorCategory, n.retryable, n.nextRetryAt, n.createdAt,
    n.updatedAt, ())

def notificationOfValues : NotificationValues → Notification
  | (id, medium, recipient, clientId, payload, idempotencyKey, status, retryCount, errorMessage,
      errorCode, errorCategory, retryable, nextRetryAt, createdAt, updatedAt, _) =>
    { id, medium, recipient, clientId, payload, idempotencyKey, status, retryCount, errorMessage,
      errorCode, errorCategory, retryable, nextRetryAt, createdAt, updatedAt }

/-- A notification as a record of the store. -/
def notification : Codec Notification :=
  .record "Notification"
    (.cons (.required "id" uuid)
    (.cons (.required "type" medium)
    (.cons (.required "recipient" .string)
    (.cons (.required "client_id" .string)
    (.cons (.required "payload" .string)
    (.cons (.required "idempotency_key" .string)
    (.cons (.required "status" status)
    (.cons (.required "retry_count" .uint32)
    (.cons (.nullable "error_message" .string)
    (.cons (.nullable "error_code" .string)
    (.cons (.nullable "error_category" .string)
    (.cons (.nullable "retryable" .boolean)
    (.cons (.nullable "next_retry_at" instant)
    (.cons (.required "created_at" instant)
    (.cons (.required "updated_at" instant)
      .nil)))))))))))))))
    notificationOfValues notificationValues

/-- A notification inside an envelope. -/
def carriedNotification : Codec Notification :=
  .record "NotificationRecord"
    (.cons (.required "id" uuid)
    (.cons (.required "type" medium)
    (.cons (.required "recipient" .string)
    (.cons (.required "clientId" .string)
    (.cons (.required "payload" .string)
    (.cons (.required "idempotencyKey" .string)
    (.cons (.required "status" status)
    (.cons (.required "retryCount" .uint32)
    (.cons (.optional "errorMessage" .string)
    (.cons (.optional "errorCode" .string)
    (.cons (.optional "errorCategory" .string)
    (.cons (.optional "retryable" .boolean)
    (.cons (.optional "nextRetryAt" instant)
    (.cons (.required "createdAt" instant)
    (.cons (.required "updatedAt" instant)
      .nil)))))))))))))))
    notificationOfValues notificationValues

def outboxEvent : Codec OutboxEvent :=
  .record "OutboxEvent"
    (.cons (.required "id" uuid)
    (.cons (.required "notification_id" uuid)
    (.cons (.required "topic" .string)
    (.cons (.required "status" outboxStatus)
    (.cons (.required "attempts" .uint32)
    (.cons (.nullable "last_error" .string)
    (.cons (.nullable "next_attempt_at" instant)
    (.cons (.required "created_at" instant)
    (.cons (.required "updated_at" instant)
      .nil)))))))))
    (fun (id, notificationId, topic, status, attempts, lastError, nextAttemptAt, createdAt,
        updatedAt, _) =>
      { id, notificationId, topic, status, attempts, lastError, nextAttemptAt, createdAt,
        updatedAt })
    (fun e => (e.id, e.notificationId, e.topic, e.status, e.attempts, e.lastError,
      e.nextAttemptAt, e.createdAt, e.updatedAt, ()))

def request : Codec Request :=
  .record "CreateNotification"
    (.cons (.required "type" medium)
    (.cons (.required "recipient" .string)
    (.cons (.required "clientId" .string)
    (.cons (.required "payload" .string)
    (.cons (.required "idempotencyKey" .string)
      .nil)))))
    (fun (medium, recipient, clientId, payload, idempotencyKey, _) =>
      { medium, recipient, clientId, payload, idempotencyKey })
    (fun r => (r.medium, r.recipient, r.clientId, r.payload, r.idempotencyKey, ()))

end Courier.Wire
