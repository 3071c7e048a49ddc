import Courier.Consumer
import Courier.Intake
import Courier.Reprocessing
import Courier.Retention

/-!
The pipeline: intake, the outbox, three consumers and retention, put together from its settings. A
pipeline needs a channel for every medium. A cycle publishes what is due and then takes one batch
from each topic; draining repeats it until there is nothing left to do now.
-/

namespace Courier

structure ConsumerSettings where
  batchSize : UInt64
  pollInterval : Duration
  deriving DecidableEq

structure PipelineSettings where
  consumer : ConsumerSettings
  outboxPollInterval : Duration
  outboxBatchLimit : UInt64
  publishRetryDelay : Duration
  rateLimitPerSecond : UInt32
  retentionPeriod : Duration
  retentionSweepInterval : Duration
  shutdownTimeout : Duration
  deriving DecidableEq

structure Pipeline where
  settings : PipelineSettings
  registry : Registry
  backoff : Backoff

namespace Pipeline

/-- A pipeline, unless a medium has no channel. -/
def new (settings : PipelineSettings) (registry : Registry) (backoff : Backoff) :
    Except DeliveryError Pipeline :=
  registry.coverage.map fun _ => ⟨settings, registry, backoff⟩

def delivery (p : Pipeline) : Delivery := ⟨p.registry, p.backoff, .pipeline⟩

def publication (p : Pipeline) : Publication := ⟨p.settings.publishRetryDelay, .pipeline⟩

def retention (p : Pipeline) (ledger : Ledger) : Retention :=
  ⟨p.settings.retentionPeriod, Topic.all.map Topic.name, ledger⟩

def handler (p : Pipeline) : Topic → Handler
  | .send => .send p.delivery
  | .retry => .retry p.delivery
  | .deadLetter => .deadLetter

def group : Topic → String
  | .send => "send-group"
  | .retry => "retry-group"
  | .deadLetter => "dlq-group"

/-- The consumer of a topic. Attempts to deliver count for the pipeline whoever drives it. -/
def consumer (p : Pipeline) (ledger : Ledger) (topic : Topic) : Consumer where
  subscription := ⟨group topic, topic.name⟩
  handler := p.handler topic
  batchSize := p.settings.consumer.batchSize.toNat
  ledger

/-- Publishes what is due and takes a batch of each topic. Returns how many events and records
were dealt with. -/
def cycle (p : Pipeline) (limit : Nat) : Job Nat := do
  let events ← p.publication.publishDue limit
  let sent ← (p.consumer .loops .send).batch
  let retried ← (p.consumer .loops .retry).batch
  let seen ← (p.consumer .loops .deadLetter).batch
  return events + sent + retried + seen

/-- Repeats cycles until one has nothing to do, at most `fuel` times. Counts those that had. -/
def drain (p : Pipeline) (limit : Nat) : Nat → Job Nat
  | 0 => return 0
  | fuel + 1 => do
    if (← p.cycle limit) = 0 then return 0
    return (← p.drain limit fuel) + 1

end Pipeline
end Courier
