import Courier.Notification

/-!
Rate limits by key. Each key has a window of time that starts with its first use, and a number of
uses is allowed in it; the first use after the window has passed starts another one. Windows that
have passed are forgotten once there are more than ten thousand keys.
-/

namespace Courier

/-- The uses of a key since the window started. -/
structure Window where
  startedAt : Instant
  count : UInt32
  deriving DecidableEq

structure RateLimiter where
  permits : UInt32
  window : Duration
  windows : List (String × Window)
  deriving DecidableEq

namespace RateLimiter

/-- How many keys may be tracked before those that have passed are dropped. -/
def pruneThreshold : Nat := 10000

/-- A limiter without any key. A window by which no moment can be moved counts as one second. -/
def new (permits : UInt32) (window : Duration) : RateLimiter :=
  ⟨permits, if Instant.canShiftBy window then window else .ofSecs 1, []⟩

def perSecond (permits : UInt32) : RateLimiter := new permits (.ofSecs 1)

/-- Whether a window has not yet passed. One that starts in the future has not. -/
def isCurrent (length : Duration) (now : Instant) (w : Window) : Bool :=
  now.since w.startedAt < length.nanos

/-- The windows without those that have passed, if there are too many. -/
def prune (l : RateLimiter) (now : Instant) : List (String × Window) :=
  if pruneThreshold < l.windows.length then
    l.windows.filter fun entry => isCurrent l.window now entry.2
  else l.windows

/-- The window of a key after one more use. -/
def use (length : Duration) (now : Instant) : Option Window → Window
  | some w => if isCurrent length now w then { w with count := countUp w.count } else ⟨now, 1⟩
  | none => ⟨now, 1⟩

def put (key : String) (w : Window) (windows : List (String × Window)) :
    List (String × Window) :=
  if (windows.lookup key).isSome then
    windows.map fun entry => if entry.1 = key then (key, w) else entry
  else (key, w) :: windows

/-- Uses a key once. True if that was still allowed. -/
def acquire (l : RateLimiter) (now : Instant) (key : String) : Bool × RateLimiter :=
  let kept := l.prune now
  let w := use l.window now (kept.lookup key)
  (w.count ≤ l.permits, { l with windows := put key w kept })

def tracked (l : RateLimiter) : Nat := l.windows.length

end RateLimiter
end Courier
