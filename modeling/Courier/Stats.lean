/-!
Counters of what the pipeline does. Work done by the workers and callers of a pipeline and work
done by consumers that are driven by hand are counted apart, in two ledgers.
-/

namespace Courier

inductive Tally where
  | sendAttempt
  | sent
  | retryScheduled
  | deadLettered
  | published
  | publishFailure
  | parseError
  | pruned (outboxEvents busRecords : Nat)
  deriving DecidableEq, Repr

/-- What was counted so far. The counts have no bound: each grows by one with a call or a record,
or by what is removed from the store and the bus, and at one in each nanosecond it would take more
than five hundred years to fill 64 bits. -/
structure Stats where
  activeWorkers : Nat := 0
  sendAttempts : Nat := 0
  sent : Nat := 0
  retriesScheduled : Nat := 0
  deadLettered : Nat := 0
  outboxPublished : Nat := 0
  outboxPublishFailures : Nat := 0
  parseErrors : Nat := 0
  outboxEventsPruned : Nat := 0
  busRecordsPruned : Nat := 0
  deriving DecidableEq, Repr

namespace Stats

def count (s : Stats) : Tally → Stats
  | .sendAttempt => { s with sendAttempts := s.sendAttempts + 1 }
  | .sent => { s with sent := s.sent + 1 }
  | .retryScheduled => { s with retriesScheduled := s.retriesScheduled + 1 }
  | .deadLettered => { s with deadLettered := s.deadLettered + 1 }
  | .published => { s with outboxPublished := s.outboxPublished + 1 }
  | .publishFailure => { s with outboxPublishFailures := s.outboxPublishFailures + 1 }
  | .parseError => { s with parseErrors := s.parseErrors + 1 }
  | .pruned outboxEvents busRecords =>
    { s with
      outboxEventsPruned := s.outboxEventsPruned + outboxEvents
      busRecordsPruned := s.busRecordsPruned + busRecords }

def entries (s : Stats) : List (String × Nat) :=
  [("active_workers", s.activeWorkers), ("send_attempts", s.sendAttempts), ("sent", s.sent),
    ("retries_scheduled", s.retriesScheduled), ("dead_lettered", s.deadLettered),
    ("outbox_published", s.outboxPublished),
    ("outbox_publish_failures", s.outboxPublishFailures), ("parse_errors", s.parseErrors),
    ("outbox_events_pruned", s.outboxEventsPruned), ("bus_records_pruned", s.busRecordsPruned)]

end Stats

/-- Where work is counted. -/
inductive Ledger where
  | pipeline
  | loops
  deriving DecidableEq, Repr

end Courier
