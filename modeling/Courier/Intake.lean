import Courier.Program
import Courier.Wire.Envelope

/-!
Taking in requests. A request whose idempotency key is known gives the notification that has it.
Any other is admitted if the limits of its medium, its recipient and its client allow, and becomes
a pending notification together with the promise to publish it. All this happens under the lock of
the key.
-/

namespace Courier

/-- The keys under which a request counts against the limits, in the order they are asked. -/
def Request.admissionKeys (r : Request) : List String :=
  [s!"type:{r.medium.name}", s!"recipient:{r.recipient}", s!"client:{r.clientId}"]

namespace Intake

/-- Counts a request against limits, as far as they allow. -/
def countAgainst : List String → Job Unit
  | [] => pure ()
  | key :: rest => do
    if ← Job.call (.acquire key) then countAgainst rest
    else throw (.rateLimited key)

/-- Takes in a request whose key is locked. -/
def accept (request : Request) : Job Notification := do
  match ← Job.store (.call (.findByKey request.idempotencyKey)) with
  | some existing => return existing
  | none =>
    countAgainst request.admissionKeys
    let id ← Job.call .newId
    let n := Notification.ofRequest request id (← Job.call .now)
    let _ ← Job.store (.call (.saveWithOutbox n Topic.send.name))
    return n

/-- Takes in a request. The lock is given back also when that fails. -/
def submit (request : Request) : Job Notification := do
  Job.call (.lock request.idempotencyKey)
  let outcome ← (accept request).outcome
  Job.call (.unlock request.idempotencyKey)
  ExceptT.mk (pure outcome)

end Intake
end Courier
