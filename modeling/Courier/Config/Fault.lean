import Courier.Config.Uses
import Courier.Text.Blank

/-!
Which configurations the service can work with. Each fault is a combination of settings that it
cannot; of several faults the first in the list is reported.
-/

namespace Courier.Config

inductive Fault where
  | noConnections
  | minimumAboveMaximum
  | emptyBatches
  | noPollInterval
  | noAttempts
  | delaysReversed
  | mediumDelaysReversed (medium : Medium)
  | noFailureThreshold
  | noRate
  | noRetention
  | blankGroup
  deriving DecidableEq

def Fault.message : Fault → String
  | .noConnections => "database max_connections must be greater than 0"
  | .minimumAboveMaximum => "database min_connections cannot exceed max_connections"
  | .emptyBatches => "batch sizes must be greater than 0"
  | .noPollInterval => "poll intervals must be greater than 0"
  | .noAttempts => "retry attempt ceilings must be greater than 0"
  | .delaysReversed => "retry_base_delay_ms cannot exceed retry_max_delay_ms"
  | .mediumDelaysReversed m => s!"{m.name} retry base delay cannot exceed its max delay"
  | .noFailureThreshold => "circuit_breaker_failure_threshold must be greater than 0"
  | .noRate => "rate_limit_per_second must be greater than 0"
  | .noRetention => "retention period and sweep interval must be greater than 0"
  | .blankGroup => "consumer group names must not be empty"

/-- Whether the delays for a medium are the wrong way round, also where it has no policy of its
own. -/
def isReversed (c : Config) (medium : Medium) : Bool :=
  let policy := c.retryPolicy (c.ownRetries medium)
  policy.maxDelay < policy.baseDelay

/-- Each fault and whether a configuration has it, in the order in which they are reported. -/
def faults (c : Config) : List (Fault × Bool) := [
  (.noConnections, c.databaseMaxConnections == 0),
  (.minimumAboveMaximum, c.databaseMaxConnections < c.databaseMinConnections),
  (.emptyBatches, c.outboxBatchLimit == 0 || c.consumerBatchSize == 0),
  (.noPollInterval, c.outboxPollIntervalMs == 0 || c.consumerPollIntervalMs == 0),
  (.noAttempts, c.maxRetryAttempts == 0 || c.emailMaxRetryAttempts == some 0 ||
    c.webhookMaxRetryAttempts == some 0),
  (.delaysReversed, c.retryMaxDelayMs < c.retryBaseDelayMs),
  (.mediumDelaysReversed .email, c.isReversed .email),
  (.mediumDelaysReversed .webhook, c.isReversed .webhook),
  (.noFailureThreshold, c.circuitBreakerFailureThreshold == 0),
  (.noRate, c.rateLimitPerSecond == 0),
  (.noRetention, c.retentionPeriodSeconds == 0 || c.retentionSweepIntervalSeconds == 0),
  (.blankGroup, [c.sendConsumerGroup, c.retryConsumerGroup, c.dlqConsumerGroup].any
    Text.isBlankText)]

def fault? (c : Config) : Option Fault := (c.faults.find? (·.2)).map (·.1)

end Courier.Config
