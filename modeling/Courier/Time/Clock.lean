import Courier.Time.Instant

/-!
A clock set by hand. It counts microseconds in 64 bits with a sign; a count that no moment has
reads as the last moment.
-/

namespace Courier

/-- The microseconds since 1970 that a clock stands at. -/
structure Clock where
  micros : Int
  deriving DecidableEq, Repr

namespace Clock

/-- A clock that shows a moment, less what it has below a microsecond. -/
def showing (t : Instant) : Clock := ⟨t.timestampMicros⟩

def now (c : Clock) : Instant := (Instant.ofMicros? c.micros).getD Instant.last

/-- The clock a span later. Its count goes round at the ends of 64 bits. -/
def advance (c : Clock) (d : Duration) : Clock :=
  ⟨Int.bmod (c.micros + min d.micros 0x7fff_ffff_ffff_ffff) 0x1_0000_0000_0000_0000⟩

end Clock
end Courier
