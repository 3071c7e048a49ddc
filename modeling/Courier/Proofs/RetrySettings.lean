import Courier.Proofs.Alone.Transitions
import Courier.Proofs.Backoff

/-!
Retry settings as they are checked and as they are used. The check fills in what a medium does not
set itself; the service gives a policy of its own only to a medium that sets something. Main rule:
both come to the same policies, so a configuration is refused for its retries exactly if one of
them has no attempt or its delays are the wrong way round, and by all others a first failure is
followed by a retry if more than one attempt is allowed.
-/

namespace Courier

/-! ## Policies -/

namespace RetryPolicy

/-- A policy by which something is tried, and whose first delay is not cut off. -/
structure IsWorkable (p : RetryPolicy) : Prop where
  one_le : 1 ≤ p.maxAttempts
  base_le : p.baseDelay ≤ p.maxDelay

/-- Before any failure there is nothing to double, so only the ceiling can make a difference. -/
theorem baseDelayFor_zero_iff {p : RetryPolicy} :
    p.baseDelayFor 0 = p.baseDelay ↔ p.baseDelay ≤ p.maxDelay := by
  have hnanos : (p.baseDelayFor 0).nanos = min p.baseDelay.nanos p.maxDelay.nanos := by
    rw [nanos_baseDelayFor]
    simp
  constructor
  · intro heq
    rw [heq] at hnanos
    exact min_eq_left_iff.mp hnanos.symm
  · intro hle
    exact Duration.ext_nanos (hnanos.trans (Nat.min_eq_left hle))

end RetryPolicy

/-- A table with an entry for each medium that has a value gives the values back. -/
theorem Medium.lookup_filterMap {α : Type} (medium : Medium) (own : Medium → Option α)
    (media : List Medium) :
    (media.filterMap fun m => (own m).map (m, ·)).lookup medium =
      if medium ∈ media then own medium else none := by
  induction media with
  | nil => rfl
  | cons first media ih =>
      by_cases hsame : medium = first
      · subst hsame
        cases hown : own medium with
        | none => simp [hown, ih]
        | some value => simp [hown]
      · cases hown : own first with
        | none => simp [hown, ih, hsame]
        | some value => simp [hown, ih, hsame, List.lookup_cons, beq_false_of_ne hsame]

namespace Config

variable {c : Config} {medium : Medium}

/-- Where nothing is set, filling in gives what holds for all media. -/
theorem retryPolicy_of_not_isSet {own : OwnRetries} (h : own.isSet = false) :
    c.retryPolicy own = c.retryPolicy {} := by
  obtain ⟨attempts, base, max⟩ := own
  simp only [OwnRetries.isSet, Bool.or_eq_false_iff, Option.isSome_eq_false_iff,
    Option.isNone_iff_eq_none] at h
  obtain ⟨⟨rfl, rfl⟩, rfl⟩ := h
  rfl

/-- Whether a medium has a policy of its own or not, it has the one that is filled in for it. -/
theorem policyFor_backoff (c : Config) (medium : Medium) :
    c.backoff.policyFor medium = c.retryPolicy (c.ownRetries medium) := by
  have hlookup : c.backoff.overrides.lookup medium = c.ownPolicy medium :=
    (medium.lookup_filterMap c.ownPolicy Medium.all).trans (if_pos medium.mem_all)
  unfold Backoff.policyFor
  rw [hlookup, ownPolicy]
  split
  · rfl
  · next hunset => exact (retryPolicy_of_not_isSet (eq_false_of_ne_true hunset)).symm

/-! ## Faults -/

/-- A configuration has a fault, whether or not it is the one that is reported. -/
def Has (c : Config) (fault : Fault) : Prop := (fault, true) ∈ c.faults

theorem fault?_eq_none_iff : c.fault? = none ↔ ∀ fault, ¬ c.Has fault := by
  unfold fault?
  rw [Option.map_eq_none_iff, List.find?_eq_none]
  constructor
  · intro h fault hmem
    exact h _ hmem rfl
  · rintro h ⟨fault, present⟩ hmem rfl
    exact h fault hmem

theorem one_le_iff {n : UInt32} : 1 ≤ n ↔ n ≠ 0 := by
  rw [UInt32.le_iff_toNat_le, ne_eq, ← UInt32.toNat_inj]
  exact Nat.one_le_iff_ne_zero

theorem one_le_getD_iff {own : Option UInt32} {shared : UInt32} (h : 1 ≤ shared) :
    1 ≤ own.getD shared ↔ own ≠ some 0 := by
  cases own with
  | none => simpa using h
  | some n => simpa using one_le_iff

/-- Each number of attempts that is set is checked on its own, and so the policies are. -/
theorem not_has_noAttempts_iff : ¬ c.Has .noAttempts ↔
    1 ≤ (c.retryPolicy {}).maxAttempts ∧
      ∀ medium, 1 ≤ (c.retryPolicy (c.ownRetries medium)).maxAttempts := by
  have hhas : c.Has .noAttempts ↔ (c.maxRetryAttempts = 0 ∨ c.emailMaxRetryAttempts = some 0) ∨
      c.webhookMaxRetryAttempts = some 0 := by
    simp [Has, faults]
  have hmedia : (∀ medium, 1 ≤ (c.retryPolicy (c.ownRetries medium)).maxAttempts) ↔
      1 ≤ c.emailMaxRetryAttempts.getD c.maxRetryAttempts ∧
        1 ≤ c.webhookMaxRetryAttempts.getD c.maxRetryAttempts := by
    refine ⟨fun h => ⟨h .email, h .webhook⟩, fun h medium => ?_⟩
    cases medium with
    | email => exact h.1
    | webhook => exact h.2
  rw [hhas, hmedia, not_or, not_or, and_assoc, ← ne_eq, ← one_le_iff]
  exact and_congr_right fun h => and_congr (one_le_getD_iff h).symm (one_le_getD_iff h).symm

theorem not_has_delaysReversed_iff : ¬ c.Has .delaysReversed ↔
    (c.retryPolicy {}).baseDelay ≤ (c.retryPolicy {}).maxDelay := by
  have hhas : c.Has .delaysReversed ↔ c.retryMaxDelayMs < c.retryBaseDelayMs := by
    simp [Has, faults]
  rw [hhas, UInt64.not_lt]
  exact Duration.ofMillis_toNat_le_iff.symm

theorem not_has_mediumDelaysReversed_iff : ¬ c.Has (.mediumDelaysReversed medium) ↔
    (c.retryPolicy (c.ownRetries medium)).baseDelay ≤
      (c.retryPolicy (c.ownRetries medium)).maxDelay := by
  have hhas : c.Has (.mediumDelaysReversed medium) ↔ c.isReversed medium = true := by
    cases medium <;> simp [Has, faults]
  rw [hhas, isReversed, decide_eq_true_iff]
  exact Nat.not_lt

/-- A fault that is about trying again. -/
def Fault.IsOfRetries : Fault → Prop
  | .noAttempts | .delaysReversed | .mediumDelaysReversed _ => True
  | _ => False

/-- The check passes just the retry settings from which workable policies are made. -/
theorem no_retryFault_iff : (∀ fault : Fault, fault.IsOfRetries → ¬ c.Has fault) ↔
    c.backoff.standard.IsWorkable ∧ ∀ medium, (c.backoff.policyFor medium).IsWorkable := by
  have hfaults : (∀ fault : Fault, fault.IsOfRetries → ¬ c.Has fault) ↔ ¬ c.Has .noAttempts ∧
      ¬ c.Has .delaysReversed ∧ ∀ medium, ¬ c.Has (.mediumDelaysReversed medium) := by
    constructor
    · intro h
      exact ⟨h _ trivial, h _ trivial, fun _ => h _ trivial⟩
    · rintro ⟨hattempts, hdelays, hmedia⟩ fault hretries
      match fault, hretries with
      | .noAttempts, _ => exact hattempts
      | .delaysReversed, _ => exact hdelays
      | .mediumDelaysReversed medium, _ => exact hmedia medium
  simp only [hfaults, not_has_noAttempts_iff, not_has_delaysReversed_iff,
    not_has_mediumDelaysReversed_iff, policyFor_backoff]
  constructor
  · rintro ⟨⟨hone, hones⟩, hbase, hbases⟩
    exact ⟨⟨hone, hbase⟩, fun medium => ⟨hones medium, hbases medium⟩⟩
  · rintro ⟨hstandard, hmedia⟩
    exact ⟨⟨hstandard.one_le, fun medium => (hmedia medium).one_le⟩, hstandard.base_le,
      fun medium => (hmedia medium).base_le⟩

end Config

/-! ## First failures -/

/-- A first failure with a medium is followed by a retry, whenever there is a moment at which the
delay is over: that is decided, and the notification is recorded as failed, with an event that
promises it to those that are to be tried again. -/
structure Backoff.RetriesFirst (b : Backoff) (medium : Medium) : Prop where
  decided {failedAt next : Instant} {jitter : Duration} :
    failedAt.Follows ((b.policyFor medium).delay 1 jitter) next →
      b.decide medium 1 failedAt jitter = .ok (.retry next)
  recorded {d : Delivery} {w : World} {n : Notification} {error : DeliveryError} {next : Instant} :
    d.backoff = b → n.medium = medium → n.retryCount = 0 → w.store.Keeps n →
      error.isDeliveryFailure = true →
      w.now.Follows ((b.policyFor medium).delay 1 (w.jitter.draw jitterBound).1) next →
        Concludes (d.recordFailure n error).run w (w.store.conclude (.retryScheduled next)
          (n.retryScheduled error.failure next w.now)
          [.pending w.takeId.1 n.id Topic.retry.name w.now])

theorem Backoff.retriesFirst {b : Backoff} {medium : Medium}
    (h : 1 < (b.policyFor medium).maxAttempts) : b.RetriesFirst medium := by
  have hmore : ¬ (b.policyFor medium).maxAttempts ≤ 1 := UInt32.not_le.mpr h
  refine ⟨decide_of_follows hmore, ?_⟩
  rintro d w n error next rfl rfl hcount hkeeps hfailure hnext
  have hdecide : d.decision n w = .ok (.retry next) := by
    rw [Delivery.decision, hcount]
    exact decide_of_follows hmore hnext
  have hconcludes := concludes_recordFailure hkeeps hdecide hfailure
  rw [Store.transition, Notification.verdict_of_failure hfailure] at hconcludes
  exact hconcludes

namespace Config

/-- Setting by setting, the policy for a medium has what the medium sets itself, and what holds for
all media elsewhere. What a check says of retries it says of these policies: it finds nothing
exactly if all of them are workable. A configuration without a fault has only policies whose delays
begin with the base delay, and by each that allows more than one attempt a first failure is followed
by a retry. -/
theorem backoff_as_checked (c : Config) :
    c.backoff.policyFor .email =
      ⟨c.emailMaxRetryAttempts.getD c.maxRetryAttempts,
        .ofMillis (c.emailRetryBaseDelayMs.getD c.retryBaseDelayMs).toNat,
        .ofMillis (c.emailRetryMaxDelayMs.getD c.retryMaxDelayMs).toNat⟩ ∧
    c.backoff.policyFor .webhook =
      ⟨c.webhookMaxRetryAttempts.getD c.maxRetryAttempts,
        .ofMillis (c.webhookRetryBaseDelayMs.getD c.retryBaseDelayMs).toNat,
        .ofMillis (c.webhookRetryMaxDelayMs.getD c.retryMaxDelayMs).toNat⟩ ∧
    ((∀ fault : Fault, fault.IsOfRetries → ¬ c.Has fault) ↔
      c.backoff.standard.IsWorkable ∧ ∀ medium, (c.backoff.policyFor medium).IsWorkable) ∧
    (c.fault? = none → ∀ medium, (c.backoff.policyFor medium).IsWorkable ∧
      (c.backoff.policyFor medium).baseDelayFor 0 = (c.backoff.policyFor medium).baseDelay ∧
      (1 < (c.backoff.policyFor medium).maxAttempts → c.backoff.RetriesFirst medium)) := by
  refine ⟨c.policyFor_backoff .email, c.policyFor_backoff .webhook, no_retryFault_iff,
    fun hfault medium => ?_⟩
  have hpasses := fault?_eq_none_iff.mp hfault
  have hworkable := (no_retryFault_iff.mp fun fault _ => hpasses fault).2 medium
  exact ⟨hworkable, RetryPolicy.baseDelayFor_zero_iff.mpr hworkable.base_le, Backoff.retriesFirst⟩

/-- Each medium sets a part of what it can set. -/
private def mixed : Config :=
  { standard with
    retryBaseDelayMs := 2000
    emailMaxRetryAttempts := some 1
    webhookMaxRetryAttempts := some 8
    webhookRetryMaxDelayMs := some 60_000 }

private def aFewSecondsLater : Instant := (Instant.epoch.add? (.ofSecs 4)).getD .last

/-- With e-mails there is one attempt only. With webhooks the first failure is followed by a retry
after twice the base delay for all media. -/
theorem backoff_as_checked_mixed :
    mixed.fault? = none ∧
      mixed.backoff.policyFor .email = ⟨1, .ofSecs 2, .ofSecs 300⟩ ∧
      mixed.backoff.policyFor .webhook = ⟨8, .ofSecs 2, .ofSecs 60⟩ ∧
      (mixed.backoff.policyFor .webhook).baseDelayFor 0 = .ofSecs 2 ∧
      mixed.backoff.decide .webhook 1 .epoch .zero = .ok (.retry aFewSecondsLater) := by
  obtain ⟨hemail, hwebhook, -, hchecked⟩ := mixed.backoff_as_checked
  have hfault : mixed.fault? = none := by decide +kernel
  obtain ⟨-, hzero, hretries⟩ := hchecked hfault .webhook
  refine ⟨hfault, hemail, hwebhook, hzero.trans (by rw [hwebhook]; rfl), ?_⟩
  refine (hretries (by rw [hwebhook]; decide)).decided (Instant.add?_eq_some_iff.mp ?_)
  rw [hwebhook]
  decide +kernel

end Config
end Courier
