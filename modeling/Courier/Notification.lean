import Courier.Time.Instant
import Courier.Uuid

/-!
Notifications and the states they go through. A notification starts out pending; each attempt to
deliver it leads to sent, to failed with a time for the next attempt, or to dead-lettered. The
transitions change the state and the record of the last failure, never what is to be delivered.
-/

namespace Courier

inductive Medium where
  | email
  | webhook
  deriving DecidableEq, Repr

namespace Medium

def all : List Medium := [.email, .webhook]

theorem mem_all (medium : Medium) : medium ∈ all := by
  cases medium <;> decide

def name : Medium → String
  | .email => "EMAIL"
  | .webhook => "WEBHOOK"

def named : List (String × Medium) := all.map fun m => (m.name, m)

end Medium

/-- How far delivery has come. -/
inductive Status where
  | pending
  | sent
  | failed
  | deadLettered
  deriving DecidableEq, Repr

namespace Status

def all : List Status := [.pending, .sent, .failed, .deadLettered]

def name : Status → String
  | .pending => "PENDING"
  | .sent => "SENT"
  | .failed => "FAILED"
  | .deadLettered => "DEAD_LETTERED"

def named : List (String × Status) := all.map fun s => (s.name, s)

end Status

/-- What the record of a failure says about the attempts that follow. -/
inductive FailureCode where
  | retryable
  | maxAttempts
  deriving DecidableEq, Repr

namespace FailureCode

def all : List FailureCode := [.retryable, .maxAttempts]

def name : FailureCode → String
  | .retryable => "DELIVERY_FAILED_RETRYABLE"
  | .maxAttempts => "DELIVERY_FAILED_MAX_ATTEMPTS"

end FailureCode

/-- One more, unless the counter is full. -/
def countUp (n : UInt32) : UInt32 := if n = 0xffffffff then n else n + 1

theorem toNat_countUp (n : UInt32) : (countUp n).toNat = min (n.toNat + 1) 0xffff_ffff := by
  unfold countUp
  split
  · next h => simp [h]
  · next h =>
    have h1 := n.toNat_lt
    have h2 : n.toNat ≠ 4294967295 := fun h' => h (UInt32.toNat_inj.1 h')
    rw [UInt32.toNat_add]
    simp only [UInt32.reduceToNat]
    omega

/-- A failed attempt as it is recorded. -/
structure Failure where
  message : String
  category : String
  deriving DecidableEq, Repr

/-- A notification with the record of its delivery. -/
structure Notification where
  id : Uuid
  medium : Medium
  recipient : String
  clientId : String
  payload : String
  idempotencyKey : String
  status : Status
  retryCount : UInt32
  errorMessage : Option String
  errorCode : Option String
  errorCategory : Option String
  retryable : Option Bool
  nextRetryAt : Option Instant
  createdAt : Instant
  updatedAt : Instant
  deriving DecidableEq

structure Request where
  medium : Medium
  recipient : String
  clientId : String
  payload : String
  idempotencyKey : String
  deriving DecidableEq

namespace Notification

/-- A fresh notification: pending, without any attempt. -/
def ofRequest (request : Request) (id : Uuid) (now : Instant) : Notification where
  id
  medium := request.medium
  recipient := request.recipient
  clientId := request.clientId
  payload := request.payload
  idempotencyKey := request.idempotencyKey
  status := .pending
  retryCount := 0
  errorMessage := none
  errorCode := none
  errorCategory := none
  retryable := none
  nextRetryAt := none
  createdAt := now
  updatedAt := now

/-- Delivered. The record of earlier failures is wiped, their count stays. -/
def sent (n : Notification) (now : Instant) : Notification :=
  { n with
    status := .sent
    errorMessage := none
    errorCode := none
    errorCategory := none
    retryable := none
    nextRetryAt := none
    updatedAt := now }

/-- Failed, with another attempt to come. -/
def retryScheduled (n : Notification) (failure : Failure) (next now : Instant) : Notification :=
  { n with
    status := .failed
    retryCount := countUp n.retryCount
    errorMessage := some failure.message
    errorCode := some FailureCode.retryable.name
    errorCategory := some failure.category
    retryable := some true
    nextRetryAt := some next
    updatedAt := now }

/-- Failed for the last time. -/
def deadLettered (n : Notification) (failure : Failure) (now : Instant) : Notification :=
  { n with
    status := .deadLettered
    retryCount := countUp n.retryCount
    errorMessage := some failure.message
    errorCode := some FailureCode.maxAttempts.name
    errorCategory := some failure.category
    retryable := some false
    nextRetryAt := none
    updatedAt := now }

/-- Whether no failure is on record. -/
def isClean (n : Notification) : Bool :=
  n.errorMessage.isNone && n.errorCode.isNone && n.errorCategory.isNone && n.retryable.isNone &&
    n.nextRetryAt.isNone

/-- Whether the next attempt lies in the future. -/
def isRetryPending (n : Notification) (now : Instant) : Bool :=
  match n.nextRetryAt with
  | some next => now < next
  | none => false

end Notification
end Courier
