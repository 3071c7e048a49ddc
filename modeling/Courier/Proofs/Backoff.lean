import Courier.Config.Fault
import Courier.Jitter
import Courier.Proofs.Time.Instant
import Mathlib.Algebra.Order.Group.Nat
import Mathlib.Tactic.Common

/-!
Delays and decisions after failures. Spans of time have a longest one, at which arithmetic on them
stays; in a delay this is never seen, as its ceiling is itself a span. What is seen is that the
delay stops doubling. Main rules: up to 31 failures the delay is `base * 2 ^ n` plus jitter, or the
ceiling, and so it is after more of them just where the ceiling is reached by then or there is
nothing to double; longer delays, more failures and more jitter never make a delay shorter; a
decision is made unless a delay that could move some moment leads behind the last one.
-/

namespace Courier

/-! ## Jitter -/

/-- No source gives a span that reaches the bound, if there is room below it. -/
theorem Jitter.draw_lt {bound : Duration} (hroom : 0 < bound.nanos) (source : Jitter) :
    (source.draw bound).1 < bound := by
  change (source.draw bound).1.nanos < bound.nanos
  cases source with
  | fixed value =>
      rw [draw, if_neg (Nat.ne_of_gt hroom), Duration.nanos_min, Duration.sub,
        Duration.nanos_ofNanos, Duration.ofMillis, Duration.nanos_ofNanos, Duration.maxNanos]
      omega
  | drawn spans =>
      rw [draw]
      dsimp only
      split
      · next hbelow => exact hbelow
      · exact hroom

/-! ## Delays -/

namespace RetryPolicy

/-- The delay in nanoseconds after so many failures, by the formula and without any bound on
numbers. -/
def formula (p : RetryPolicy) (failures : Nat) (jitter : Duration) : Nat :=
  min (p.baseDelay.nanos * 2 ^ failures + jitter.nanos) p.maxDelay.nanos

variable {p q : RetryPolicy} {n m : UInt32} {i j : Duration}

theorem nanos_baseDelayFor (p : RetryPolicy) (n : UInt32) :
    (p.baseDelayFor n).nanos =
      min (p.baseDelay.nanos * 2 ^ min n.toNat 31) p.maxDelay.nanos := by
  have hmax := p.maxDelay.nanos_le
  rw [baseDelayFor, Duration.nanos_min, Duration.scale, Duration.nanos_ofNanos, Nat.one_shiftLeft]
  omega

/-- The delay is by the formula, for at most 31 failures. -/
theorem nanos_delay (p : RetryPolicy) (n : UInt32) (jitter : Duration) :
    (p.delay n jitter).nanos = p.formula (min n.toNat 31) jitter := by
  have hmax := p.maxDelay.nanos_le
  rw [delay, Duration.nanos_min, Duration.add, Duration.nanos_ofNanos, nanos_baseDelayFor, formula]
  omega

/-- The formula gives more for more failures, longer delays and more jitter. -/
theorem formula_mono {a b : Nat} (hbase : p.baseDelay ≤ q.baseDelay)
    (hmax : p.maxDelay ≤ q.maxDelay) (hab : a ≤ b) (hij : i ≤ j) :
    p.formula a i ≤ q.formula b j := by
  have hpower : 2 ^ a ≤ 2 ^ b := Nat.pow_le_pow_right Nat.two_pos hab
  have hproduct : p.baseDelay.nanos * 2 ^ a ≤ q.baseDelay.nanos * 2 ^ b :=
    Nat.mul_le_mul hbase hpower
  exact min_le_min (Nat.add_le_add hproduct hij) hmax

/-- Beyond 31 failures the formula asks for more, unless there is nothing to double or the ceiling
is reached. -/
theorem formula_eq_iff {failures : Nat} (hmore : 31 < failures) (jitter : Duration) :
    p.formula 31 jitter = p.formula failures jitter ↔
      p.baseDelay.nanos = 0 ∨ p.maxDelay.nanos ≤ p.baseDelay.nanos * 2 ^ 31 + jitter.nanos := by
  have hpower : 2 ^ 31 < 2 ^ failures := Nat.pow_lt_pow_right (by decide) hmore
  rw [formula, formula]
  rcases Nat.eq_zero_or_pos p.baseDelay.nanos with hzero | hpos
  · simp [hzero]
  · have hproduct := Nat.mul_lt_mul_of_pos_left hpower hpos
    omega

/-- The delay is the base delay doubled with each failure, plus jitter, up to the ceiling, where
doubling ends with the 31st failure. So it is by the formula exactly if there were no more, if
there is nothing to double, or if the ceiling is reached by then; no other bound on numbers is ever
seen. -/
theorem delay_eq_formula_iff (p : RetryPolicy) (n : UInt32) (jitter : Duration) :
    (p.delay n jitter).nanos = p.formula (min n.toNat 31) jitter ∧
      ((p.delay n jitter).nanos = p.formula n.toNat jitter ↔
        n.toNat ≤ 31 ∨ p.baseDelay.nanos = 0 ∨
          p.maxDelay.nanos ≤ p.baseDelay.nanos * 2 ^ 31 + jitter.nanos) := by
  refine ⟨nanos_delay p n jitter, ?_⟩
  rw [nanos_delay]
  by_cases hfew : n.toNat ≤ 31
  · rw [Nat.min_eq_left hfew]
    exact iff_of_true rfl (Or.inl hfew)
  · rw [Nat.min_eq_right (Nat.le_of_not_le hfew), formula_eq_iff (Nat.lt_of_not_le hfew)]
    exact (or_iff_right hfew).symm

/-- From a millisecond up to a hundred days and more. -/
private def patient : RetryPolicy := ⟨40, .ofMillis 1, .ofMillis 10_000_000_000⟩

/-- After 32 failures the delay is what it was after 31, about 25 days, and not twice as much,
though the ceiling is far off. -/
theorem doubling_ends :
    (patient.delay 32 .zero).nanos = 2 ^ 31 * 1_000_000 ∧
      patient.formula 32 .zero = 2 ^ 32 * 1_000_000 := by
  decide

/-- Longer base delays and ceilings, more failures and more jitter never make a delay shorter. It
is at most the ceiling, and it is the delay without jitter or up to a quarter of a second more. -/
theorem delay_mono_bounded (hbase : p.baseDelay ≤ q.baseDelay) (hmax : p.maxDelay ≤ q.maxDelay)
    (hnm : n ≤ m) (hij : i ≤ j) (hj : j < Backoff.jitterBound) :
    p.delay n i ≤ q.delay m j ∧ q.delay m j ≤ q.maxDelay ∧
      q.baseDelayFor m ≤ q.delay m j ∧
      (q.delay m j).nanos < (q.baseDelayFor m).nanos + Backoff.jitterBound.nanos := by
  have hcount : min n.toNat 31 ≤ min m.toNat 31 := min_le_min_right 31 hnm
  have hbase_eq := nanos_baseDelayFor q m
  have hdelay := nanos_delay q m j
  rw [formula] at hdelay
  change j.nanos < _ at hj
  refine ⟨?_, ?_, ?_, ?_⟩
  · change (p.delay n i).nanos ≤ (q.delay m j).nanos
    rw [nanos_delay, nanos_delay]
    exact formula_mono hbase hmax hcount hij
  · change (q.delay m j).nanos ≤ q.maxDelay.nanos
    omega
  · change (q.baseDelayFor m).nanos ≤ (q.delay m j).nanos
    omega
  · omega

/-- A short policy against the standard one, with jitter that a random source gives. -/
theorem delay_mono_bounded_drawn :
    let p : RetryPolicy := ⟨3, .ofMillis 100, .ofSecs 1⟩
    let drawn := ((Jitter.random 7).draw Backoff.jitterBound).1
    p.baseDelay ≤ standard.baseDelay ∧ p.maxDelay ≤ standard.maxDelay ∧ (3 : UInt32) ≤ 4 ∧
      Duration.zero ≤ drawn ∧ drawn < Backoff.jitterBound ∧
      p.delay 3 .zero ≤ standard.delay 4 drawn ∧ standard.delay 4 drawn ≤ standard.maxDelay ∧
      standard.baseDelayFor 4 ≤ standard.delay 4 drawn ∧
      (standard.delay 4 drawn).nanos <
        (standard.baseDelayFor 4).nanos + Backoff.jitterBound.nanos := by
  intro p drawn
  have hbase : p.baseDelay ≤ standard.baseDelay := by decide
  have hmax : p.maxDelay ≤ standard.maxDelay := by decide
  have hzero : Duration.zero ≤ drawn := Nat.zero_le _
  have hdrawn : drawn < Backoff.jitterBound := Jitter.draw_lt (by decide) _
  exact ⟨hbase, hmax, by decide, hzero, hdrawn,
    delay_mono_bounded hbase hmax (by decide) hzero hdrawn⟩

end RetryPolicy

/-! ## Decisions -/

namespace Backoff

variable (b : Backoff) (medium : Medium) (count : UInt32) (failedAt : Instant) (jitter : Duration)

/-- What there is to decide after a failure: to give up once there were enough of them, else to try
again at the moment at which the delay is over, or to give up if there is no such moment. -/
inductive Warrants : RetryDecision → Prop
  | exhausted (henough : (b.policyFor medium).maxAttempts ≤ count) :
      Warrants (.giveUp s!"maximum attempts ({(b.policyFor medium).maxAttempts.toNat}) reached")
  | timely {next} (hmore : ¬ (b.policyFor medium).maxAttempts ≤ count)
      (hnext : failedAt.Follows ((b.policyFor medium).delay count jitter) next) :
      Warrants (.retry next)
  | unreachable (hmore : ¬ (b.policyFor medium).maxAttempts ≤ count)
      (hnone : ∀ next, ¬ failedAt.Follows ((b.policyFor medium).delay count jitter) next) :
      Warrants (.giveUp "retry delay duration out of range")

/-- A decision can be made: there were enough failures, or the delay is too long to move any moment,
or it leads to a moment. -/
def Decides : Prop :=
  (b.policyFor medium).maxAttempts ≤ count ∨
    Instant.maxShift < ((b.policyFor medium).delay count jitter).nanos ∨
    ∃ next, failedAt.Follows ((b.policyFor medium).delay count jitter) next

variable {b medium count failedAt jitter}

theorem decide_of_more (hmore : ¬ (b.policyFor medium).maxAttempts ≤ count) :
    b.decide medium count failedAt jitter =
      if Instant.canShiftBy ((b.policyFor medium).delay count jitter) then
        (failedAt.plus ((b.policyFor medium).delay count jitter)).map .retry
      else .ok (.giveUp "retry delay duration out of range") :=
  if_neg hmore

/-- A moment at which the delay is over is the one to try again at. -/
theorem decide_of_follows {next : Instant} (hmore : ¬ (b.policyFor medium).maxAttempts ≤ count)
    (hnext : failedAt.Follows ((b.policyFor medium).delay count jitter) next) :
    b.decide medium count failedAt jitter = .ok (.retry next) := by
  have hadd := Instant.add?_eq_some_iff.mpr hnext
  rw [decide_of_more hmore, if_pos (Instant.canShiftBy_of_add? hadd), Instant.plus, hadd]
  rfl

theorem Decides.warranted (h : b.Decides medium count failedAt jitter) :
    ∃ decision, b.decide medium count failedAt jitter = .ok decision ∧
      b.Warrants medium count failedAt jitter decision := by
  by_cases hmore : (b.policyFor medium).maxAttempts ≤ count
  · exact ⟨_, if_pos hmore, .exhausted hmore⟩
  rcases h.resolve_left hmore with hlong | ⟨next, hnext⟩
  · -- what is too long to move a moment leads to none
    have hstuck : ¬ Instant.canShiftBy ((b.policyFor medium).delay count jitter) = true :=
      fun hshift => Nat.not_le_of_lt hlong (of_decide_eq_true hshift)
    refine ⟨_, (decide_of_more hmore).trans (if_neg hstuck), .unreachable hmore ?_⟩
    exact fun next hnext =>
      hstuck (Instant.canShiftBy_of_add? (Instant.add?_eq_some_iff.mpr hnext))
  · exact ⟨.retry next, decide_of_follows hmore hnext, .timely hmore hnext⟩

/-- A decision can be made as long as the longest delay leads to a moment. -/
theorem exists_decide (hwhole : failedAt.frac < 1_000_000_000)
    (hlongest : ∃ t, failedAt.plus (b.policyFor medium).maxDelay = .ok t) (count : UInt32)
    (jitter : Duration) : ∃ decision, b.decide medium count failedAt jitter = .ok decision := by
  have hlast := (Instant.exists_plus_iff hwhole _).mp hlongest
  have hdelay := (b.policyFor medium).nanos_delay_le count jitter
  obtain ⟨next, hnext⟩ :=
    (Instant.exists_plus_iff hwhole ((b.policyFor medium).delay count jitter)).mpr (by omega)
  have hdecides : b.Decides medium count failedAt jitter :=
    .inr (.inr ⟨next, Instant.add?_eq_some_iff.mp (Instant.add?_of_plus hnext)⟩)
  obtain ⟨decision, hdecision, -⟩ := hdecides.warranted
  exact ⟨decision, hdecision⟩

theorem decide_of_not_decides (h : ¬ b.Decides medium count failedAt jitter) :
    b.decide medium count failedAt jitter = .error .later := by
  obtain ⟨hmore, hreach⟩ := not_or.mp h
  obtain ⟨hshort, hnone⟩ := not_or.mp hreach
  have hadd : failedAt.add? ((b.policyFor medium).delay count jitter) = none :=
    Option.eq_none_iff_forall_ne_some.mpr fun next hnext =>
      hnone ⟨next, Instant.add?_eq_some_iff.mp hnext⟩
  have hshift : Instant.canShiftBy ((b.policyFor medium).delay count jitter) = true :=
    decide_eq_true (Nat.le_of_not_lt hshort)
  rw [decide_of_more hmore, if_pos hshift, Instant.plus, hadd]
  rfl

variable (b medium count failedAt jitter)

/-- The decision that is warranted is made exactly if there were enough failures, if the delay is
too long to move any moment, or if it leads to a moment. In the cases between, where the delay is
not that long and leads behind the last moment all the same, moving the moment overflows. -/
theorem decides_warranted_iff :
    ((∃ decision, b.decide medium count failedAt jitter = .ok decision ∧
        b.Warrants medium count failedAt jitter decision) ↔
      b.Decides medium count failedAt jitter) ∧
    (b.decide medium count failedAt jitter = .error .later ↔
      ¬ b.Decides medium count failedAt jitter) := by
  have hdecided (h : b.Decides medium count failedAt jitter) :
      b.decide medium count failedAt jitter ≠ .error .later := by
    obtain ⟨decision, hdecision, -⟩ := h.warranted
    rw [hdecision]
    exact nofun
  refine ⟨⟨?_, Decides.warranted⟩, fun herror h => hdecided h herror, decide_of_not_decides⟩
  rintro ⟨decision, hdecision, -⟩
  by_contra h
  rw [decide_of_not_decides h] at hdecision
  cases hdecision

/-- Delays of ten million million seconds. The service starts with them, and no moment is that far
ahead. -/
private def overlong : Config :=
  { Config.standard with
    retryBaseDelayMs := 10_000_000_000_000_000
    retryMaxDelayMs := 10_000_000_000_000_000 }

/-- The first second of 2025. -/
private def newYear : Instant := (Instant.ofMicros? 1_735_689_600_000_000).getD .epoch

/-- After a first failure no decision is made with these delays, though to give up is warranted. -/
theorem overlong_undecided :
    overlong.fault? = none ∧
      overlong.backoff.Warrants .email 1 newYear .zero
        (.giveUp "retry delay duration out of range") ∧
      overlong.backoff.decide .email 1 newYear .zero = .error .later := by
  have hnone : newYear.add? ((overlong.backoff.policyFor .email).delay 1 .zero) = none := by decide
  refine ⟨by decide +kernel, .unreachable (by decide) fun next hnext => ?_, rfl⟩
  rw [Instant.add?_eq_some_iff.mpr hnext] at hnone
  cases hnone

end Backoff
end Courier
