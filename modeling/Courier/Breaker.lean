import Courier.Notification

/-!
Circuit breakers. A breaker counts failures in a row; when they reach a threshold it opens for a
span of time, in which no call is let through, and counts from zero again. Time closes it, success
does not.
-/

namespace Courier

structure BreakerConfig where
  failureThreshold : UInt32
  openWindow : Duration
  callTimeout : Duration
  deriving DecidableEq

/-- Five failures open the breaker for half a minute; a call may take ten seconds. -/
def BreakerConfig.standard : BreakerConfig := ⟨5, .ofSecs 30, .ofSecs 10⟩

inductive BreakerState where
  | closed
  | opened
  deriving DecidableEq, Repr

namespace BreakerState

def name : BreakerState → String
  | .closed => "Closed"
  | .opened => "Open"

def text : BreakerState → String
  | .closed => "closed"
  | .opened => "open"

def named : List (String × BreakerState) := [.closed, .opened].map fun s => (s.name, s)

end BreakerState

/-- Failures in a row, and until when the breaker is open if it ever was. -/
structure Breaker where
  config : BreakerConfig
  failures : UInt32 := 0
  openUntil : Option Instant := none
  deriving DecidableEq

namespace Breaker

def allows (b : Breaker) (now : Instant) : Bool :=
  match b.openUntil with
  | none => true
  | some closes => closes ≤ now

def state (b : Breaker) (now : Instant) : BreakerState :=
  if b.allows now then .closed else .opened

def recordSuccess (b : Breaker) : Breaker := { b with failures := 0 }

/-- When a breaker that opens now closes again: never within reach if the window is too long. -/
def closingTime (b : Breaker) (now : Instant) : Instant :=
  if Instant.canShiftBy b.config.openWindow then
    (now.add? b.config.openWindow).getD Instant.last
  else Instant.last

/-- The breaker after a call that failed, and whether that opened it. -/
def recordFailure (b : Breaker) (now : Instant) : Bool × Breaker :=
  let failures := countUp b.failures
  if failures < b.config.failureThreshold then (false, { b with failures })
  else (true, { b with failures := 0, openUntil := some (b.closingTime now) })

end Breaker
end Courier
