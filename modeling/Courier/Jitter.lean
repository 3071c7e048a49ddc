import Courier.Time.Duration

/-!
Sources of jitter. A fixed source gives the same span whenever the bound allows; a drawn one gives
one span after another, whatever they are, as long as they stay below the bound. Random sources are
drawn ones that give whole milliseconds, and nothing is known of the numbers that pick them.
-/

namespace Courier

/-- A source of spans below a bound. What a drawn source gives may depend on the bound. -/
inductive Jitter where
  | fixed (value : Duration)
  | drawn (spans : Nat → Duration → Duration)

namespace Jitter

/-- A span below the bound, and the source after it. A bound that leaves no room gives zero, and
so does a span that would reach the bound. -/
def draw (bound : Duration) : Jitter → Duration × Jitter
  | .fixed value =>
    (if bound.nanos = 0 then Duration.zero else value.min (bound.sub (.ofMillis 1)), .fixed value)
  | .drawn spans =>
    let span := spans 0 bound
    (if span < bound then span else Duration.zero, .drawn fun i => spans (i + 1))

def draws (bound : Duration) : Nat → Jitter → List Duration
  | 0, _ => []
  | n + 1, source =>
    let (d, source) := source.draw bound
    d :: draws bound n source

/-- Whole milliseconds below the bound, each picked by the next of these numbers. -/
def whole (numbers : Nat → Nat) : Jitter :=
  .drawn fun i bound => .ofMillis (numbers i % min bound.millis 0xffff_ffff_ffff_ffff)

/-- One random source among many: a seed fixes its numbers, by a linear step of full period. -/
def random (seed : UInt64) : Jitter :=
  let step (state : UInt64) := state * 6364136223846793005 + 1442695040888963407
  whole fun i => (Nat.repeat step (i + 1) seed >>> 11).toNat

end Jitter
end Courier
