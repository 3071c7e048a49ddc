import Courier.Settings.Kind

/-!
The configuration of the service: one value for every setting it knows, with the standard value of
each, and the settings by name. A setting is named in lower or in upper case.
-/

namespace Courier

structure Config where
  databaseUrl : String := "postgresql://localhost/echo_notify"
  databaseMaxConnections : UInt32 := 10
  databaseMinConnections : UInt32 := 2
  databaseConnectionTimeout : UInt64 := 10
  databaseIdleTimeout : UInt64 := 600
  databaseMaxLifetime : UInt64 := 1800
  outboxPollIntervalMs : UInt64 := 500
  outboxBatchLimit : UInt64 := 100
  outboxPublishRetryDelayMs : UInt64 := 5000
  consumerBatchSize : UInt64 := 100
  consumerPollIntervalMs : UInt64 := 500
  sendConsumerGroup : String := "notification-send"
  retryConsumerGroup : String := "notification-retry"
  dlqConsumerGroup : String := "notification-dlq"
  maxRetryAttempts : UInt32 := 5
  retryBaseDelayMs : UInt64 := 1000
  retryMaxDelayMs : UInt64 := 300000
  emailMaxRetryAttempts : Option UInt32 := none
  webhookMaxRetryAttempts : Option UInt32 := none
  emailRetryBaseDelayMs : Option UInt64 := none
  emailRetryMaxDelayMs : Option UInt64 := none
  webhookRetryBaseDelayMs : Option UInt64 := none
  webhookRetryMaxDelayMs : Option UInt64 := none
  circuitBreakerFailureThreshold : UInt32 := 5
  circuitBreakerOpenSeconds : UInt64 := 30
  channelCallTimeoutSeconds : UInt64 := 10
  rateLimitPerSecond : UInt32 := 100
  webhookTimeoutSeconds : UInt64 := 10
  webhookUserAgent : String := "echo-notify/0.1"
  retentionPeriodSeconds : UInt64 := 86400
  retentionSweepIntervalSeconds : UInt64 := 300
  shutdownTimeoutSeconds : UInt64 := 30
  logFilter : String := "info"

namespace Config

def standard : Config := {}

/-- A setting by name, and where its value is in a configuration. -/
structure Field where
  name : String
  write : Config → Setting
  read : Setting → Except Mismatch (Config → Config)

/-- The field of a kind between a getter and a setter. -/
def field {α : Type} (name : String) (kind : Kind α) (get : Config → α)
    (set : α → Config → Config) : Field where
  name
  write c := kind.write (get c)
  read s := (kind.read s).map set

/-- Whether a name, as it is written, names the field. -/
def Field.isNamed (f : Field) (name : String) : Bool := name == f.name || name == f.name.toUpper

def fields : List Field := [
  field "database_url" .text (·.databaseUrl)
    fun v c => { c with databaseUrl := v },
  field "database_max_connections" .uint32 (·.databaseMaxConnections)
    fun v c => { c with databaseMaxConnections := v },
  field "database_min_connections" .uint32 (·.databaseMinConnections)
    fun v c => { c with databaseMinConnections := v },
  field "database_connection_timeout" .uint64 (·.databaseConnectionTimeout)
    fun v c => { c with databaseConnectionTimeout := v },
  field "database_idle_timeout" .uint64 (·.databaseIdleTimeout)
    fun v c => { c with databaseIdleTimeout := v },
  field "database_max_lifetime" .uint64 (·.databaseMaxLifetime)
    fun v c => { c with databaseMaxLifetime := v },
  field "outbox_poll_interval_ms" .uint64 (·.outboxPollIntervalMs)
    fun v c => { c with outboxPollIntervalMs := v },
  field "outbox_batch_limit" .size (·.outboxBatchLimit)
    fun v c => { c with outboxBatchLimit := v },
  field "outbox_publish_retry_delay_ms" .uint64 (·.outboxPublishRetryDelayMs)
    fun v c => { c with outboxPublishRetryDelayMs := v },
  field "consumer_batch_size" .size (·.consumerBatchSize)
    fun v c => { c with consumerBatchSize := v },
  field "consumer_poll_interval_ms" .uint64 (·.consumerPollIntervalMs)
    fun v c => { c with consumerPollIntervalMs := v },
  field "send_consumer_group" .text (·.sendConsumerGroup)
    fun v c => { c with sendConsumerGroup := v },
  field "retry_consumer_group" .text (·.retryConsumerGroup)
    fun v c => { c with retryConsumerGroup := v },
  field "dlq_consumer_group" .text (·.dlqConsumerGroup)
    fun v c => { c with dlqConsumerGroup := v },
  field "max_retry_attempts" .uint32 (·.maxRetryAttempts)
    fun v c => { c with maxRetryAttempts := v },
  field "retry_base_delay_ms" .uint64 (·.retryBaseDelayMs)
    fun v c => { c with retryBaseDelayMs := v },
  field "retry_max_delay_ms" .uint64 (·.retryMaxDelayMs)
    fun v c => { c with retryMaxDelayMs := v },
  field "email_max_retry_attempts" (.optional .uint32) (·.emailMaxRetryAttempts)
    fun v c => { c with emailMaxRetryAttempts := v },
  field "webhook_max_retry_attempts" (.optional .uint32) (·.webhookMaxRetryAttempts)
    fun v c => { c with webhookMaxRetryAttempts := v },
  field "email_retry_base_delay_ms" (.optional .uint64) (·.emailRetryBaseDelayMs)
    fun v c => { c with emailRetryBaseDelayMs := v },
  field "email_retry_max_delay_ms" (.optional .uint64) (·.emailRetryMaxDelayMs)
    fun v c => { c with emailRetryMaxDelayMs := v },
  field "webhook_retry_base_delay_ms" (.optional .uint64) (·.webhookRetryBaseDelayMs)
    fun v c => { c with webhookRetryBaseDelayMs := v },
  field "webhook_retry_max_delay_ms" (.optional .uint64) (·.webhookRetryMaxDelayMs)
    fun v c => { c with webhookRetryMaxDelayMs := v },
  field "circuit_breaker_failure_threshold" .uint32 (·.circuitBreakerFailureThreshold)
    fun v c => { c with circuitBreakerFailureThreshold := v },
  field "circuit_breaker_open_seconds" .uint64 (·.circuitBreakerOpenSeconds)
    fun v c => { c with circuitBreakerOpenSeconds := v },
  field "channel_call_timeout_seconds" .uint64 (·.channelCallTimeoutSeconds)
    fun v c => { c with channelCallTimeoutSeconds := v },
  field "rate_limit_per_second" .uint32 (·.rateLimitPerSecond)
    fun v c => { c with rateLimitPerSecond := v },
  field "webhook_timeout_seconds" .uint64 (·.webhookTimeoutSeconds)
    fun v c => { c with webhookTimeoutSeconds := v },
  field "webhook_user_agent" .text (·.webhookUserAgent)
    fun v c => { c with webhookUserAgent := v },
  field "retention_period_seconds" .uint64 (·.retentionPeriodSeconds)
    fun v c => { c with retentionPeriodSeconds := v },
  field "retention_sweep_interval_seconds" .uint64 (·.retentionSweepIntervalSeconds)
    fun v c => { c with retentionSweepIntervalSeconds := v },
  field "shutdown_timeout_seconds" .uint64 (·.shutdownTimeoutSeconds)
    fun v c => { c with shutdownTimeoutSeconds := v },
  field "rust_log" .text (·.logFilter)
    fun v c => { c with logFilter := v }]

def toSettings (c : Config) : List (String × Setting) :=
  fields.map fun f => (f.name, f.write c)

end Config
end Courier
