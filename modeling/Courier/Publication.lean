import Courier.Program
import Courier.Wire.Envelope

/-!
Keeping the promises of the outbox: events that are due are published in the order in which they
were created, each with the notification as it is now. One whose publication fails is put off; the
others go on.
-/

namespace Courier

def publishNotification (topic : String) (n : Notification) : Job Unit := do
  let envelope := Envelope.ofNotification n (← Job.call .now)
  Job.attempt (.call (.publish topic (some n.id.text) envelope.encode))

/-- How long to put off an event whose publication failed, and where to count. -/
structure Publication where
  retryDelay : Duration
  ledger : Ledger

namespace Publication

/-- The delay before an event is tried again. One by which no moment can be moved counts as five
seconds. -/
def postponement (p : Publication) : Duration :=
  if Instant.canShiftBy p.retryDelay then p.retryDelay else .ofSecs 5

/-- Publishes the notification of an event that is due at `now`. -/
def publishEvent (p : Publication) (now : Instant) (event : OutboxEvent) : Job Unit := do
  match ← Job.store (.call (.findById event.notificationId)) with
  | none =>
    throw (.integrity
      s!"outbox event {event.id.text} references missing notification {event.notificationId.text}")
  | some n =>
    match ← (publishNotification event.topic n).outcome with
    | .ok () =>
      Job.store (.call (.markPublished event.id))
      Job.call (.tally p.ledger .published)
    | .error error =>
      let next ← Job.orCrash (now.plus p.postponement)
      Job.store (.call (.markFailed event.id error.message next))
      Job.call (.tally p.ledger .publishFailure)

/-- Publishes at most `limit` events that are due, and counts them. -/
def publishDue (p : Publication) (limit : Nat) : Job Nat := do
  let now ← Job.call .now
  let events ← Job.store (.call (.dueEvents now limit))
  events.forM (p.publishEvent now)
  return events.length

end Publication
end Courier
