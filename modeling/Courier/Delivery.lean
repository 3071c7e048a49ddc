import Courier.Backoff
import Courier.Program
import Courier.Wire.Envelope

/-!
Attempts to deliver. What the store knows of a notification wins over what a message says: one
that is sent, or that has failed more often than the message knows, is skipped. Otherwise the
first channel for its medium is called once, and the result decides the transition and the event
stored with it.
-/

namespace Courier

inductive DeliveryOutcome where
  | sent
  | retryScheduled (next : Instant)
  | deadLettered
  | skipped
  deriving DecidableEq

/-- With which channels and by which policy to deliver, and where to count. -/
structure Delivery where
  registry : Registry
  backoff : Backoff
  ledger : Ledger

namespace Delivery

def recordSent (d : Delivery) (n : Notification) : Job DeliveryOutcome := do
  let sent := n.sent (← Job.call .now)
  Job.store (.call (.save sent))
  Job.call (.tally d.ledger .sent)
  return .sent

/-- Records a failed attempt, and that it will be repeated or was the last. -/
def recordFailure (d : Delivery) (n : Notification) (error : DeliveryError) :
    Job DeliveryOutcome := do
  let now ← Job.call .now
  let jitter ← Job.call (.jitter Backoff.jitterBound)
  match ← Job.orCrash (d.backoff.decide n.medium (countUp n.retryCount) now jitter) with
  | .retry next =>
    let failed := n.retryScheduled error.failure next now
    let _ ← Job.store (.call (.saveWithOutbox failed Topic.retry.name))
    Job.call (.tally d.ledger .retryScheduled)
    return .retryScheduled next
  | .giveUp _ =>
    let dead := n.deadLettered error.failure now
    let _ ← Job.store (.call (.saveWithOutbox dead Topic.deadLetter.name))
    Job.call (.tally d.ledger .deadLettered)
    return .deadLettered

/-- Calls a channel for a notification and records the result. -/
def attempt (d : Delivery) (n : Notification) : Job DeliveryOutcome := do
  let (channel, _) ← ExceptT.mk (pure (d.registry.find n.medium))
  Job.call (.tally d.ledger .sendAttempt)
  match ← (Job.attempt (.call (.send channel n))).outcome with
  | .ok () => d.recordSent n
  | .error error => if error.isDeliveryFailure then d.recordFailure n error else throw error

/-- Delivers the notification of a message, unless that is out of date. -/
def deliver (d : Delivery) (n : Notification) : Job DeliveryOutcome := do
  match ← Job.store (.call (.findById n.id)) with
  | some stored =>
    if stored.status = .sent ∨ n.retryCount < stored.retryCount then return .skipped
    else d.attempt stored
  | none => d.attempt n

/-- Delivers the notification of a message if its time has come. False if it has not. -/
def retry (d : Delivery) (n : Notification) : Job Bool := do
  if n.isRetryPending (← Job.call .now) then return false
  let _ ← d.deliver n
  return true

end Delivery
end Courier
