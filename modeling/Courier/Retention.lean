import Courier.Program

/-!
Dropping what is old: published outbox events, and records that every group is done with, of the
topics named.
-/

namespace Courier

/-- How long to keep things, of which topics, and where to count. -/
structure Retention where
  period : Duration
  topics : List String
  ledger : Ledger

/-- How many outbox events and bus records were dropped. -/
structure PruneReport where
  outboxEvents : Nat
  busRecords : Nat
  deriving DecidableEq

namespace Retention

/-- Prunes topics one after the other and counts the records dropped. -/
def pruneTopics (cutoff : Instant) : List String → Job Nat
  | [] => return 0
  | topic :: rest => do
    let dropped ← Job.attempt (.call (.prune topic cutoff))
    return dropped + (← pruneTopics cutoff rest)

/-- Drops what is older than the period. -/
def sweep (r : Retention) : Job PruneReport := do
  if ¬ Instant.canShiftBy r.period then
    throw (.configuration
      "retention period: Source duration value is out of range for the target type")
  let cutoff ← Job.orCrash ((← Job.call .now).minus r.period)
  let outboxEvents ← Job.store (.call (.deletePublished cutoff))
  let busRecords ← pruneTopics cutoff r.topics
  Job.call (.tally r.ledger (.pruned outboxEvents busRecords))
  return ⟨outboxEvents, busRecords⟩

end Retention
end Courier
