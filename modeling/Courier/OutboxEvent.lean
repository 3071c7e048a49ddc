import Courier.Notification

/-!
Outbox events: promises, stored together with a notification, that it will be published to a
topic. An event is due while it is pending and its next attempt is not in the future.
-/

namespace Courier

inductive OutboxStatus where
  | pending
  | published
  | failed
  deriving DecidableEq, Repr

namespace OutboxStatus

def all : List OutboxStatus := [.pending, .published, .failed]

def name : OutboxStatus → String
  | .pending => "PENDING"
  | .published => "PUBLISHED"
  | .failed => "FAILED"

def named : List (String × OutboxStatus) := all.map fun s => (s.name, s)

end OutboxStatus

/-- A promise to publish a notification to a topic. -/
structure OutboxEvent where
  id : Uuid
  notificationId : Uuid
  topic : String
  status : OutboxStatus
  attempts : UInt32
  lastError : Option String
  nextAttemptAt : Option Instant
  createdAt : Instant
  updatedAt : Instant
  deriving DecidableEq

namespace OutboxEvent

/-- A new promise, due at once. -/
def pending (id notificationId : Uuid) (topic : String) (now : Instant) : OutboxEvent where
  id
  notificationId
  topic
  status := .pending
  attempts := 0
  lastError := none
  nextAttemptAt := some now
  createdAt := now
  updatedAt := now

/-- Whether the event is to be published now. -/
def isDue (e : OutboxEvent) (now : Instant) : Bool :=
  e.status == .pending && match e.nextAttemptAt with
    | none => true
    | some next => next ≤ now

def markPublished (e : OutboxEvent) (now : Instant) : OutboxEvent :=
  { e with status := .published, updatedAt := now }

/-- The event after an attempt that failed, with the time of the next one. -/
def markFailed (e : OutboxEvent) (error : String) (next now : Instant) : OutboxEvent :=
  { e with
    attempts := countUp e.attempts
    lastError := some error
    nextAttemptAt := some next
    updatedAt := now }

end OutboxEvent
end Courier
