import Courier.Breaker
import Mathlib.Data.List.Induction
import Mathlib.Tactic.Common

/-!
What a breaker counts. Calls come to their ends at any time, those too that were under way when the
breaker opened, and it looks only at how they ended. Main rule: of failures in a row those open the
breaker whose number is a multiple of the threshold, whether it was open or not. So failures that
come late, while the breaker is open, count toward the next time it opens.
-/

namespace Courier.Breaker

/-- A call comes to its end. -/
structure Return where
  moment : Instant
  failed : Bool

def count (b : Breaker) (r : Return) : Breaker :=
  if r.failed then (b.recordFailure r.moment).2 else b.recordSuccess

/-- The breaker after calls that came to their ends one after the other. -/
def after (b : Breaker) (rs : List Return) : Breaker := rs.foldl count b

/-- How many failures in a row stand at the end. -/
def failuresAtEnd (rs : List Return) : Nat := (rs.reverse.takeWhile Return.failed).length

variable {b : Breaker} {r : Return} {rs : List Return} {closes now : Instant}

theorem after_append (b : Breaker) (rs later : List Return) :
    b.after (rs ++ later) = (b.after rs).after later :=
  List.foldl_append

theorem after_concat (b : Breaker) (rs : List Return) (r : Return) :
    b.after (rs ++ [r]) = (b.after rs).count r :=
  after_append b rs [r]

theorem failuresAtEnd_of_failed (rs : List Return) (h : r.failed = true) :
    failuresAtEnd (rs ++ [r]) = failuresAtEnd rs + 1 := by
  simp [failuresAtEnd, h]

theorem failuresAtEnd_of_succeeded (rs : List Return) (h : r.failed = false) :
    failuresAtEnd (rs ++ [r]) = 0 := by
  simp [failuresAtEnd, h]

theorem failuresAtEnd_failures (rs : List Return) (moments : List Instant) :
    failuresAtEnd (rs ++ moments.map (⟨·, true⟩)) = failuresAtEnd rs + moments.length := by
  induction moments using List.reverseRecOn with
  | nil => simp
  | append_singleton moments moment ih =>
      rw [List.map_append, List.map_singleton, ← List.append_assoc, failuresAtEnd_of_failed _ rfl,
        ih, List.length_append, List.length_singleton, Nat.add_assoc]

/-! ## One end of a call -/

/-- A failure short of the threshold is counted. -/
theorem recordFailure_of_lt (now : Instant)
    (h : b.failures.toNat + 1 < b.config.failureThreshold.toNat) :
    b.recordFailure now = (false, { b with failures := countUp b.failures }) := by
  have hbound := b.config.failureThreshold.toNat_lt
  have hcount := toNat_countUp b.failures
  exact if_pos (UInt32.lt_iff_toNat_lt.mpr (by omega))

/-- The failure that reaches the threshold opens the breaker. -/
theorem recordFailure_of_le (now : Instant)
    (h : b.config.failureThreshold.toNat ≤ b.failures.toNat + 1) :
    b.recordFailure now =
      (true, { b with failures := 0, openUntil := some (b.closingTime now) }) := by
  have hbound := b.config.failureThreshold.toNat_lt
  have hcount := toNat_countUp b.failures
  exact if_neg (mt UInt32.lt_iff_toNat_lt.mp (by omega))

theorem config_count (b : Breaker) (r : Return) : (b.count r).config = b.config := by
  unfold count recordFailure
  dsimp only
  split_ifs <;> rfl

theorem config_after (b : Breaker) (rs : List Return) : (b.after rs).config = b.config := by
  induction rs using List.reverseRecOn with
  | nil => rfl
  | append_singleton rs r ih => rw [after_concat, config_count, ih]

/-- A failure leaves a breaker with nothing counted and its window in place only if it opens the
breaker by itself, until the same moment as before. -/
theorem count_of_failed_iff (hthreshold : 1 ≤ b.config.failureThreshold) (hzero : b.failures = 0)
    (hr : r.failed = true) :
    (b.count r).failures = 0 ∧ (b.count r).openUntil = some closes ↔
      b.config.failureThreshold = 1 ∧ b.closingTime r.moment = closes := by
  have hone : 1 ≤ b.config.failureThreshold.toNat := hthreshold
  rw [count, if_pos hr]
  by_cases hmore : b.failures.toNat + 1 < b.config.failureThreshold.toNat
  · rw [recordFailure_of_lt _ hmore, hzero]
    have hcounted : countUp 0 ≠ 0 := by decide
    refine iff_of_false (fun h => hcounted h.1) fun h => ?_
    rw [h.1, hzero] at hmore
    exact absurd hmore (by decide)
  · have hthreshold : b.config.failureThreshold = 1 := by
      rw [hzero] at hmore
      exact UInt32.toNat_inj.mp (Nat.le_antisymm (Nat.le_of_not_lt hmore) hone)
    rw [recordFailure_of_le _ (Nat.le_of_not_lt hmore)]
    simp [hthreshold]

/-! ## Many of them -/

/-- What is counted are the failures in a row since the last success, less those that opened the
breaker. -/
theorem failures_after (hthreshold : 1 ≤ b.config.failureThreshold) (hzero : b.failures = 0)
    (rs : List Return) :
    (b.after rs).failures.toNat = failuresAtEnd rs % b.config.failureThreshold.toNat := by
  have hone : 1 ≤ b.config.failureThreshold.toNat := hthreshold
  induction rs using List.reverseRecOn with
  | nil => simp [after, hzero, failuresAtEnd]
  | append_singleton rs r ih =>
      rw [after_concat, count]
      split
      · next hr =>
        rw [failuresAtEnd_of_failed rs hr, ← Nat.mod_add_mod, ← ih]
        by_cases hmore : (b.after rs).failures.toNat + 1 < b.config.failureThreshold.toNat
        · have hcount := toNat_countUp (b.after rs).failures
          have hbound := b.config.failureThreshold.toNat_lt
          rw [recordFailure_of_lt _ (by rwa [config_after]), Nat.mod_eq_of_lt hmore]
          dsimp only
          omega
        · have hlt := Nat.mod_lt (failuresAtEnd rs) hone
          have hfull : (b.after rs).failures.toNat + 1 = b.config.failureThreshold.toNat := by omega
          have hle := Nat.le_of_eq hfull.symm
          rw [recordFailure_of_le _ (by rwa [config_after]), hfull, Nat.mod_self]
          rfl
      · next hr =>
        rw [failuresAtEnd_of_succeeded rs (Bool.eq_false_iff.mpr hr), Nat.zero_mod]
        rfl

/-- A failure opens the breaker if with it the failures in a row are a multiple of the threshold. -/
theorem opens_iff (hthreshold : 1 ≤ b.config.failureThreshold) (hzero : b.failures = 0)
    (rs : List Return) (now : Instant) :
    ((b.after rs).recordFailure now).1 = true ↔
      b.config.failureThreshold.toNat ∣ failuresAtEnd rs + 1 := by
  have hone : 1 ≤ b.config.failureThreshold.toNat := hthreshold
  have hcount := failures_after hthreshold hzero rs
  have hlt := Nat.mod_lt (failuresAtEnd rs) hone
  rw [Nat.dvd_iff_mod_eq_zero, ← Nat.mod_add_mod, ← hcount]
  by_cases hmore : (b.after rs).failures.toNat + 1 < b.config.failureThreshold.toNat
  · rw [recordFailure_of_lt _ (by rwa [config_after]), Nat.mod_eq_of_lt hmore]
    exact iff_of_false Bool.false_ne_true (Nat.succ_ne_zero _)
  · have hfull : (b.after rs).failures.toNat + 1 = b.config.failureThreshold.toNat := by omega
    have hle := Nat.le_of_eq hfull.symm
    rw [recordFailure_of_le _ (by rwa [config_after]), hfull, Nat.mod_self]
    exact iff_of_true rfl rfl

/-- The count stays at zero and the window in place through ends of calls exactly if it does so at
each failure among them. -/
theorem keeps_window_iff (hthreshold : 1 ≤ b.config.failureThreshold)
    (hopen : b.openUntil = some closes) (rs : List Return) :
    (∀ early, early <+: rs →
        (b.after early).failures = 0 ∧ (b.after early).openUntil = some closes) ↔
      b.failures = 0 ∧ ∀ r ∈ rs, r.failed = true →
        b.config.failureThreshold = 1 ∧ b.closingTime r.moment = closes := by
  have hstep {early : List Return} {r : Return} (hzero : (b.after early).failures = 0)
      (hr : r.failed = true) :
      (b.after (early ++ [r])).failures = 0 ∧ (b.after (early ++ [r])).openUntil = some closes ↔
        b.config.failureThreshold = 1 ∧ b.closingTime r.moment = closes := by
    have hconfig := config_after b early
    rw [after_concat, count_of_failed_iff (by rwa [hconfig]) hzero hr, hconfig, closingTime,
      hconfig, closingTime]
  constructor
  · intro h
    refine ⟨(h [] List.nil_prefix).1, fun r hr hfailed => ?_⟩
    obtain ⟨early, later, rfl⟩ := List.append_of_mem hr
    refine (hstep (h early (List.prefix_append _ _)).1 hfailed).mp (h _ ?_)
    exact ⟨later, List.append_assoc _ _ _⟩
  · rintro ⟨hzero, hfailures⟩ early hearly
    induction early using List.reverseRecOn with
    | nil => exact ⟨hzero, hopen⟩
    | append_singleton early r ih =>
        obtain ⟨hbefore, hwindow⟩ := ih ((List.prefix_append _ _).trans hearly)
        by_cases hfailed : r.failed = true
        · have hmem : r ∈ rs := hearly.subset (List.mem_append_right _ List.mem_cons_self)
          exact (hstep hbefore hfailed).mpr (hfailures r hmem hfailed)
        · rw [after_concat, count, if_neg hfailed]
          exact ⟨rfl, hwindow⟩

/-- An open breaker keeps its count at zero and its window in place, whatever ends come in, exactly
if none of them is a failure, or if a single failure opens it and closes it at the same moment as
before. Otherwise what comes in while it is open counts like all else: of the failures in a row
that follow, each one opens it with which all since the last success are a multiple of the
threshold. -/
theorem stays_opened_iff (hthreshold : 1 ≤ b.config.failureThreshold)
    (hopen : b.openUntil = some closes) (rs : List Return) :
    ((∀ early, early <+: rs →
        (b.after early).failures = 0 ∧ (b.after early).openUntil = some closes) ↔
      b.failures = 0 ∧ ∀ r ∈ rs, r.failed = true →
        b.config.failureThreshold = 1 ∧ b.closingTime r.moment = closes) ∧
    (b.failures = 0 →
      (b.after rs).failures.toNat = failuresAtEnd rs % b.config.failureThreshold.toNat ∧
      ∀ (moments : List Instant) (now : Instant),
        ((b.after (rs ++ moments.map (⟨·, true⟩))).recordFailure now).1 = true ↔
          b.config.failureThreshold.toNat ∣ failuresAtEnd rs + moments.length + 1) := by
  refine ⟨keeps_window_iff hthreshold hopen rs, fun hzero => ?_⟩
  refine ⟨failures_after hthreshold hzero rs, fun moments now => ?_⟩
  rw [opens_iff hthreshold hzero, failuresAtEnd_failures]

/-- A breaker that opens at the second failure, for half a minute, and has just been opened. -/
private def opened : Breaker :=
  after { config := { BreakerConfig.standard with failureThreshold := 2 } }
    [⟨.epoch, true⟩, ⟨.epoch, true⟩]

private def halfAMinute : Instant := (Instant.epoch.add? (.ofSecs 30)).getD .last

/-- One more failure comes in at once. It is counted, and the next one, which comes when the window
has passed, opens the breaker. -/
theorem stays_opened_iff_late :
    (opened.after [⟨.epoch, true⟩]).failures.toNat = 1 ∧
      ((opened.after [⟨.epoch, true⟩]).recordFailure halfAMinute).1 = true := by
  have hopen : opened.openUntil = some halfAMinute := by decide
  obtain ⟨hcount, hopens⟩ := (stays_opened_iff (by decide) hopen [⟨.epoch, true⟩]).2 (by decide)
  exact ⟨hcount, (hopens [] halfAMinute).mpr (by decide)⟩

/-- A failure that comes while the breaker is open does count: nothing was counted before it and
one is after it, and where the threshold asks for two failures, one is then enough. -/
theorem late_failure_counts :
    opened.config.failureThreshold = 2 ∧ opened.allows .epoch = false ∧ opened.failures = 0 ∧
      (opened.after [⟨.epoch, true⟩]).failures = 1 ∧
      (opened.after [⟨.epoch, true⟩]).allows halfAMinute = true ∧
      ((opened.after [⟨.epoch, true⟩]).recordFailure halfAMinute).1 = true := by
  decide

end Courier.Breaker
