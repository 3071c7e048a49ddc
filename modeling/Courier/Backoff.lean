import Courier.Notification

/-!
When a failed notification is tried again. The delay doubles with each failure, jitter is added,
and a ceiling holds; after a number of attempts the notification is given up. Main rule: the delay
after `n` failures is `base * 2 ^ n` plus jitter, and at most the ceiling.
-/

namespace Courier

/-- How often and after which delays to try again. -/
structure RetryPolicy where
  maxAttempts : UInt32
  baseDelay : Duration
  maxDelay : Duration
  deriving DecidableEq

namespace RetryPolicy

/-- Five attempts, from a second up to five minutes apart. -/
def standard : RetryPolicy := ⟨5, .ofSecs 1, .ofSecs 300⟩

/-- The delay after so many failures, without jitter. Beyond 31 doublings it does not grow. -/
def baseDelayFor (p : RetryPolicy) (retryCount : UInt32) : Duration :=
  (p.baseDelay.scale (1 <<< min retryCount.toNat 31)).min p.maxDelay

def delay (p : RetryPolicy) (retryCount : UInt32) (jitter : Duration) : Duration :=
  ((p.baseDelayFor retryCount).add jitter).min p.maxDelay

theorem nanos_delay_le (p : RetryPolicy) (retryCount : UInt32) (jitter : Duration) :
    (p.delay retryCount jitter).nanos ≤ p.maxDelay.nanos := by
  rw [delay, Duration.nanos_min]
  exact Nat.min_le_right _ _

end RetryPolicy

inductive RetryDecision where
  | retry (next : Instant)
  | giveUp (reason : String)
  deriving DecidableEq

structure Backoff where
  standard : RetryPolicy
  overrides : List (Medium × RetryPolicy)

namespace Backoff

/-- Jitter stays below a quarter of a second. -/
def jitterBound : Duration := .ofMillis 250

def policyFor (b : Backoff) (medium : Medium) : RetryPolicy :=
  (b.overrides.lookup medium).getD b.standard

/-- What to do after the failure that makes it `nextCount`, with this jitter. -/
def decide (b : Backoff) (medium : Medium) (nextCount : UInt32) (failedAt : Instant)
    (jitter : Duration) : Except Instant.Overflow RetryDecision :=
  let policy := b.policyFor medium
  if policy.maxAttempts ≤ nextCount then
    .ok (.giveUp s!"maximum attempts ({policy.maxAttempts.toNat}) reached")
  else
    let delay := policy.delay nextCount jitter
    if Instant.canShiftBy delay then (failedAt.plus delay).map .retry
    else .ok (.giveUp "retry delay duration out of range")

end Backoff
end Courier
