import Courier.Delivery

/-!
Consumers of topics. A batch takes the records behind the cursor in order. Each is handled and
committed, until one is to be deferred or cannot be handled now. A record that cannot be read is
reported on the dead-letter topic and committed too.
-/

namespace Courier

inductive Disposition where
  | commit
  | defer
  deriving DecidableEq, Repr

def Disposition.name : Disposition → String
  | .commit => "Commit"
  | .defer => "Defer"

/-- How the records of a topic are handled. -/
structure Handler where
  name : String
  handle : Record → Job Disposition

namespace Handler

def envelope (r : Record) : Job Envelope :=
  ExceptT.mk <| pure <| (Envelope.decode r.payload).mapError fun e => .deserialization e.message

/-- Delivers what was sent for the first time. -/
def send (d : Delivery) : Handler where
  name := "send"
  handle r := do
    let e ← envelope r
    let _ ← d.deliver e.notification
    return .commit

/-- Delivers again what is due, and defers the rest. -/
def retry (d : Delivery) : Handler where
  name := "retry"
  handle r := do
    let e ← envelope r
    return if ← d.retry e.notification then .commit else .defer

/-- Notes what was given up. -/
def deadLetter : Handler where
  name := "dlq"
  handle r := do
    Job.call (.note (.deadLetterSeen r.key r.offset r.payload))
    return .commit

end Handler

structure Consumer where
  subscription : Subscription
  handler : Handler
  batchSize : Nat
  ledger : Ledger

namespace Consumer

def report (c : Consumer) (r : Record) : Job Unit := do
  let report := UnreadableReport.ofPayload r.topic r.partition r.offset r.payload (← Job.call .now)
  let id ← Job.call .newId
  Job.attempt (.call (.publish Topic.deadLetter.name (some id.text) report.encode))
  Job.call (.tally c.ledger .parseError)

/-- Handles a record. True if it is to be committed. -/
def settle (c : Consumer) (r : Record) : Job Bool := do
  match ← (c.handler.handle r).outcome with
  | .ok .commit => return true
  | .ok .defer => return false
  | .error (.deserialization _) =>
    c.report r
    return true
  | .error error => if error.isFatal then throw error else return false

/-- Handles and commits records in order, and counts them. -/
def settleAll (c : Consumer) : List Record → Nat → Job Nat
  | [], committed => return committed
  | r :: rest, committed => do
    if ← c.settle r then
      Job.attempt (.call (.commit c.subscription r.offset))
      c.settleAll rest (committed + 1)
    else return committed

/-- One batch. Returns how many records were committed. -/
def batch (c : Consumer) : Job Nat := do
  let records ← Job.attempt (.call (.poll c.subscription c.batchSize))
  c.settleAll records 0

end Consumer
end Courier
