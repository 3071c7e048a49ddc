import Courier.Config
import Courier.Pipeline
import Courier.Webhook

/-!
What the parts of the service take from the configuration.
-/

namespace Courier.Config

/-- What a medium sets of its own about trying again. -/
structure OwnRetries where
  maxAttempts : Option UInt32 := none
  baseDelayMs : Option UInt64 := none
  maxDelayMs : Option UInt64 := none

def OwnRetries.isSet (own : OwnRetries) : Bool :=
  own.maxAttempts.isSome || own.baseDelayMs.isSome || own.maxDelayMs.isSome

def ownRetries (c : Config) : Medium → OwnRetries
  | .email => ⟨c.emailMaxRetryAttempts, c.emailRetryBaseDelayMs, c.emailRetryMaxDelayMs⟩
  | .webhook => ⟨c.webhookMaxRetryAttempts, c.webhookRetryBaseDelayMs, c.webhookRetryMaxDelayMs⟩

/-- How often to try again with these settings, or where one is missing with that for all media. -/
def retryPolicy (c : Config) (own : OwnRetries) : RetryPolicy where
  maxAttempts := own.maxAttempts.getD c.maxRetryAttempts
  baseDelay := .ofMillis (own.baseDelayMs.getD c.retryBaseDelayMs).toNat
  maxDelay := .ofMillis (own.maxDelayMs.getD c.retryMaxDelayMs).toNat

/-- The policy for a medium, if any of its own settings is there. -/
def ownPolicy (c : Config) (medium : Medium) : Option RetryPolicy :=
  if (c.ownRetries medium).isSet then some (c.retryPolicy (c.ownRetries medium)) else none

def backoff (c : Config) : Backoff where
  standard := c.retryPolicy {}
  overrides := Medium.all.filterMap fun m => (c.ownPolicy m).map (m, ·)

def breaker (c : Config) : BreakerConfig where
  failureThreshold := c.circuitBreakerFailureThreshold
  openWindow := .ofSecs c.circuitBreakerOpenSeconds.toNat
  callTimeout := .ofSecs c.channelCallTimeoutSeconds.toNat

def pipeline (c : Config) : PipelineSettings where
  consumer := ⟨c.consumerBatchSize, .ofMillis c.consumerPollIntervalMs.toNat⟩
  outboxPollInterval := .ofMillis c.outboxPollIntervalMs.toNat
  outboxBatchLimit := c.outboxBatchLimit
  publishRetryDelay := .ofMillis c.outboxPublishRetryDelayMs.toNat
  rateLimitPerSecond := c.rateLimitPerSecond
  retentionPeriod := .ofSecs c.retentionPeriodSeconds.toNat
  retentionSweepInterval := .ofSecs c.retentionSweepIntervalSeconds.toNat
  shutdownTimeout := .ofSecs c.shutdownTimeoutSeconds.toNat

def webhook (c : Config) : WebhookSettings :=
  ⟨.ofSecs c.webhookTimeoutSeconds.toNat, c.webhookUserAgent⟩

/-- The database URL for logs: what is between the first at sign and the last colon before it,
which may be a password, is hidden. -/
def maskedDatabaseUrl (c : Config) : String :=
  let cs := c.databaseUrl.toList
  let before := cs.takeWhile (· != '@')
  if before.length < cs.length ∧ before.contains ':' then
    let shown := (before.reverse.dropWhile (· != ':')).reverse
    String.ofList (shown ++ ['*', '*', '*'] ++ cs.drop before.length)
  else c.databaseUrl

end Courier.Config
