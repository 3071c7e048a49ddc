import Courier.Breaker
import Courier.Pipeline
import Courier.Webhook
import Courier.Wire.Scalar

/-!
The written forms of settings: policies, breakers, consumers, pipelines and webhooks.
-/

namespace Courier.Wire

open Json

def retryPolicy : Codec RetryPolicy :=
  .record "RetryPolicy"
    (.cons (.required "max_attempts" .uint32)
    (.cons (.required "base_delay" duration)
    (.cons (.required "max_delay" duration)
      .nil)))
    (fun (maxAttempts, baseDelay, maxDelay, _) => { maxAttempts, baseDelay, maxDelay })
    (fun p => (p.maxAttempts, p.baseDelay, p.maxDelay, ()))

def breakerConfig : Codec BreakerConfig :=
  .record "CircuitConfig"
    (.cons (.required "failure_threshold" .uint32)
    (.cons (.required "open_window" duration)
    (.cons (.required "call_timeout" duration)
      .nil)))
    (fun (failureThreshold, openWindow, callTimeout, _) =>
      { failureThreshold, openWindow, callTimeout })
    (fun c => (c.failureThreshold, c.openWindow, c.callTimeout, ()))

def breakerState : Codec BreakerState := .enumeration BreakerState.named BreakerState.name

def consumerSettings : Codec ConsumerSettings :=
  .record "ConsumerConfig"
    (.cons (.required "batch_size" .size)
    (.cons (.required "poll_interval" duration)
      .nil))
    (fun (batchSize, pollInterval, _) => { batchSize, pollInterval })
    (fun c => (c.batchSize, c.pollInterval, ()))

def pipelineSettings : Codec PipelineSettings :=
  .record "PipelineConfig"
    (.cons (.required "consumer" consumerSettings)
    (.cons (.required "outbox_poll_interval" duration)
    (.cons (.required "outbox_batch_limit" .size)
    (.cons (.required "publish_retry_delay" duration)
    (.cons (.required "rate_limit_per_second" .uint32)
    (.cons (.required "retention_period" duration)
    (.cons (.required "retention_sweep_interval" duration)
    (.cons (.required "shutdown_timeout" duration)
      .nil))))))))
    (fun (consumer, outboxPollInterval, outboxBatchLimit, publishRetryDelay, rateLimitPerSecond,
        retentionPeriod, retentionSweepInterval, shutdownTimeout, _) =>
      { consumer, outboxPollInterval, outboxBatchLimit, publishRetryDelay, rateLimitPerSecond,
        retentionPeriod, retentionSweepInterval, shutdownTimeout })
    (fun p => (p.consumer, p.outboxPollInterval, p.outboxBatchLimit, p.publishRetryDelay,
      p.rateLimitPerSecond, p.retentionPeriod, p.retentionSweepInterval, p.shutdownTimeout, ()))

def webhookSettings : Codec WebhookSettings :=
  .record "WebhookConfig"
    (.cons (.required "timeout" duration)
    (.cons (.required "user_agent" .string)
      .nil))
    (fun (timeout, userAgent, _) => { timeout, userAgent })
    (fun s => (s.timeout, s.userAgent, ()))

end Courier.Wire
