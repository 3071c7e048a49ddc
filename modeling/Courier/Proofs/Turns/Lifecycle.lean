import Courier.Proofs.Time.Instant
import Courier.Proofs.Turns.Operations

/-!
The life of a notification. Between the operations of a closed run the nine fields that record how
far delivery has come agree with each other, and they only ever change forwards: no row waits for
a first attempt again, none that was sent is touched, and none that was given up is scheduled for
another attempt, even where it is delivered again by hand. Both hold turn by turn, since a row is
only replaced where an attempt is recorded.
-/

namespace Courier

/-! ## Phases -/

namespace Notification

/-- The last failure on record is one to deliver, with this code. -/
structure Blames (n : Notification) (code : FailureCode) : Prop where
  message : n.errorMessage.isSome = true
  code : n.errorCode = some code.name
  category : n.errorCategory = some Category.delivery.name

/-- What a row records agrees with its status. -/
def InPhase (n : Notification) (policy : RetryPolicy) : Prop :=
  match n.status with
  | .pending => n.retryCount = 0 ∧ n.isClean = true
  | .sent => n.isClean = true
  | .failed =>
    1 ≤ n.retryCount ∧ n.retryCount < policy.maxAttempts ∧ n.retryable = some true ∧
      n.Blames .retryable ∧ n.nextRetryAt.isSome = true
  | .deadLettered =>
    max 1 policy.maxAttempts.toNat ≤ n.retryCount.toNat ∧ n.retryable = some false ∧
      n.Blames .maxAttempts ∧ n.nextRetryAt = none

/-- What becomes of a row in a run. Besides all that a row keeps, what was given up once is not
scheduled again. -/
structure Proceeds (n m : Notification) : Prop where
  advances : n.Advances m
  given_up : n.status = .deadLettered → m.status ≠ .failed

namespace Proceeds

variable {n m k : Notification}

theorem refl (n : Notification) : n.Proceeds n where
  advances := .refl n
  given_up := fun hdead hfailed => nomatch hdead.symm.trans hfailed

theorem trans (h : n.Proceeds m) (h' : m.Proceeds k) : n.Proceeds k := by
  refine ⟨h.advances.trans h'.advances, fun hdead hfailed => ?_⟩
  cases hstatus : m.status with
  | pending => exact nomatch hdead.symm.trans (h.advances.pending hstatus)
  | sent => exact nomatch hfailed.symm.trans (h'.advances.sent hstatus)
  | failed => exact h.given_up hdead hstatus
  | deadLettered => exact h'.given_up hstatus hfailed

end Proceeds
end Notification

/-! ## Decisions -/

/-- A span that leads from one moment to another can be added. -/
theorem Instant.canShiftBy_of_plus {t later : Instant} {d : Duration}
    (h : t.plus d = .ok later) : canShiftBy d = true :=
  canShiftBy_of_add? (add?_of_plus h)

namespace Backoff

variable {b : Backoff} {medium : Medium} {count : UInt32} {now next : Instant} {jitter : Duration}
  {reason : String}

theorem lt_of_decide_retry (h : b.decide medium count now jitter = .ok (.retry next)) :
    count < (b.policyFor medium).maxAttempts := by
  unfold decide at h
  dsimp only at h
  split at h
  · exact nomatch h
  · next hlt => exact UInt32.not_le.mp hlt

/-- A notification is given up for the number of its attempts only, if delays at the ceiling can
be added to a moment. -/
theorem le_of_decide_giveUp
    (hrange : Instant.canShiftBy (b.policyFor medium).maxDelay = true)
    (h : b.decide medium count now jitter = .ok (.giveUp reason)) :
    (b.policyFor medium).maxAttempts ≤ count := by
  unfold decide at h
  dsimp only at h
  split at h
  · next hle => exact hle
  · have hdelay : Instant.canShiftBy ((b.policyFor medium).delay count jitter) = true := by
      have hceiling : (b.policyFor medium).maxDelay.nanos ≤ Instant.maxShift :=
        of_decide_eq_true hrange
      exact decide_eq_true ((RetryPolicy.nanos_delay_le _ _ _).trans hceiling)
    rw [if_pos hdelay] at h
    cases hplus : now.plus ((b.policyFor medium).delay count jitter) with
    | ok later => rw [hplus] at h; exact nomatch h
    | error overflow => rw [hplus] at h; exact nomatch h

end Backoff

/-! ## What recorded attempts make of rows -/

section

variable {b : Backoff} {faults : Prop} {n m : Notification} {error : DeliveryError}
  {now : Instant} {jitter : Duration} {topic : Topic} {what : Tally}

theorem one_le_countUp (n : UInt32) : 1 ≤ countUp n := by
  rw [UInt32.le_iff_toNat_le, toNat_countUp]
  simp

/-- Each error that counts as a failure to deliver is of that category. -/
theorem DeliveryError.category_of_isDeliveryFailure (h : error.isDeliveryFailure = true) :
    error.category = .delivery := by
  cases error <;> first | rfl | exact nomatch h

theorem Ruling.inPhase (h : Ruling ⟨(· = b), faults⟩ n error now jitter m topic what)
    (hfailure : error.isDeliveryFailure = true)
    (hrange : ∀ medium, Instant.canShiftBy (b.policyFor medium).maxDelay = true) :
    m.InPhase (b.policyFor m.medium) := by
  have hcategory : error.failure.category = Category.delivery.name :=
    congrArg Category.name (DeliveryError.category_of_isDeliveryFailure hfailure)
  have hone := one_le_countUp n.retryCount
  cases h with
  | retry hterms hdecide =>
      obtain rfl := hterms
      exact ⟨hone, Backoff.lt_of_decide_retry hdecide, rfl,
        ⟨rfl, rfl, congrArg some hcategory⟩, rfl⟩
  | giveUp hterms hdecide =>
      obtain rfl := hterms
      have hspent := Backoff.le_of_decide_giveUp (hrange n.medium) hdecide
      refine ⟨?_, rfl, ⟨rfl, rfl, congrArg some hcategory⟩, rfl⟩
      exact Nat.max_le.mpr ⟨UInt32.le_iff_toNat_le.mp hone, UInt32.le_iff_toNat_le.mp hspent⟩

theorem Notification.Becomes.inPhase (h : n.Becomes ⟨(· = b), faults⟩ m)
    (hrange : ∀ medium, Instant.canShiftBy (b.policyFor medium).maxDelay = true) :
    m.InPhase (b.policyFor m.medium) := by
  cases h with
  | sent => exact rfl
  | failed hfailure hruling => exact hruling.inPhase hfailure hrange

/-- Whoever has used up all attempts has none left after another. -/
theorem Notification.Becomes.proceeds (h : n.Becomes ⟨(· = b), faults⟩ m)
    (hopen : n.status ≠ .sent) (hphase : n.InPhase (b.policyFor n.medium)) : n.Proceeds m := by
  refine ⟨h.advances hopen, fun hdead => ?_⟩
  cases h with
  | sent => exact nofun
  | failed _ hruling => cases hruling with
    | giveUp => exact nofun
    | retry hterms hdecide =>
        obtain rfl := hterms
        have hleft := UInt32.lt_iff_toNat_lt.mp (Backoff.lt_of_decide_retry hdecide)
        have hup := UInt32.le_iff_toNat_le.mp (le_countUp n.retryCount)
        rw [Notification.InPhase, hdead] at hphase
        have hspent := (Nat.le_max_right _ _).trans hphase.1
        omega

end

/-! ## Turns -/

section

variable {b : Backoff} {faults : Prop} {s s' : Account} {books books' : Books}

/-- Every row is in a phase. -/
def Books.Phased (books : Books) (b : Backoff) : Prop :=
  ∀ n ∈ books.rows, n.InPhase (b.policyFor n.medium)

namespace Rewrites

theorem phased (h : Rewrites ⟨(· = b), faults⟩ books books') (hbooks : books.Regular)
    (hrange : ∀ medium, Instant.canShiftBy (b.policyFor medium).maxDelay = true)
    (hphased : books.Phased b) : books'.Phased b := by
  intro k hk
  cases h with
  | same hrows => exact hphased k (hrows ▸ hk)
  | adds hrows hpending hcount hclean =>
      rw [hrows, List.mem_append, List.mem_singleton] at hk
      rcases hk with hk | rfl
      · exact hphased k hk
      · rw [Notification.InPhase, hpending]
        exact ⟨hcount, hclean⟩
  | replaces hn hopen hbecomes hrows =>
      rw [hrows, Store.mem_putInto hbooks.rows_nodup] at hk
      rcases hk with rfl | ⟨hk, -⟩
      · exact hbecomes.inPhase hrange
      · exact hphased k hk

theorem proceeds (h : Rewrites ⟨(· = b), faults⟩ books books') (hbooks : books.Regular)
    (hphased : books.Phased b) {n : Notification} (hn : n ∈ books.rows) :
    ∃ m ∈ books'.rows, n.Proceeds m :=
  h.exists_row hbooks .refl
    (fun n hn hopen _ hattempt => hattempt.proceeds hopen (hphased n hn)) hn

end Rewrites

namespace Turns

theorem phased (h : Turns ⟨(· = b), faults⟩ s s') (hs : s.world.books.Regular)
    (hrange : ∀ medium, Instant.canShiftBy (b.policyFor medium).maxDelay = true)
    (hphased : s.world.books.Phased b) : s'.world.books.Phased b := by
  induction h with
  | refl => exact hphased
  | tail hturns hturn ih => exact hturn.rewrites.phased (regular hturns hs) hrange ih

theorem proceeds (h : Turns ⟨(· = b), faults⟩ s s') (hs : s.world.books.Regular)
    (hrange : ∀ medium, Instant.canShiftBy (b.policyFor medium).maxDelay = true)
    (hphased : s.world.books.Phased b) {n : Notification} (hn : n ∈ s.world.books.rows) :
    ∃ m ∈ s'.world.books.rows, n.Proceeds m := by
  induction h with
  | refl => exact ⟨n, hn, .refl n⟩
  | tail hturns hturn ih =>
      obtain ⟨y, hy, hproceeds⟩ := ih
      have hmiddle := phased hturns hs hrange hphased
      obtain ⟨m, hm, hproceeds'⟩ := hturn.rewrites.proceeds (regular hturns hs) hmiddle hy
      exact ⟨m, hm, hproceeds.trans hproceeds'⟩

end Turns
end

/-! ## Closed runs -/

/-- After every closed run each row is in its phase, by the policy that all batches share. -/
theorem World.IsBlank.phased_after {w : World} {b : Backoff} {commands : List Command}
    (h : w.IsBlank) (hruns : ∀ op, Command.run op ∈ commands → op.task ≠ .delivery)
    (hbackoff : ∀ p ledger topic, Command.run (.batch p ledger topic) ∈ commands → p.backoff = b)
    (hrange : ∀ medium, Instant.canShiftBy (b.policyFor medium).maxDelay = true)
    (hserial : (w.after commands).serial ≤ Books.serialLimit) :
    (w.after commands).books.Phased b := by
  have hworld := Account.world_opened_after w commands
  rw [← hworld] at hserial ⊢
  have hfits : ∀ command ∈ commands, command.Fits ⟨(· = b), True⟩ :=
    Command.forall_fits hruns hbackoff fun _ _ => trivial
  have hturns := Account.turns_after hfits (Or.inl trivial) h.regular (Or.inl trivial) hserial
  refine hturns.phased h.regular hrange fun n hn => ?_
  have hrows : w.books.rows = [] := h.rows
  exact absurd hn (hrows ▸ List.not_mem_nil)

/-- After every closed run each row is in its phase, and whatever follows, it proceeds from there.
All batches share one policy, and its longest delay can be added to the clock: this is asked only
once, of the clock at the start. -/
theorem World.after_lifecycle {w : World} {b : Backoff} {commands more : List Command}
    (hblank : w.IsBlank)
    (hruns : ∀ op, Command.run op ∈ commands ++ more → op.task ≠ .delivery)
    (hbackoff : ∀ p ledger topic, Command.run (.batch p ledger topic) ∈ commands ++ more →
      p.backoff = b)
    (hdelay : ∀ medium, ∃ t, w.now.plus (b.policyFor medium).maxDelay = .ok t)
    (hserial : (w.after (commands ++ more)).serial ≤ Books.serialLimit) :
    (∀ n ∈ (w.after commands).store.notifications, n.InPhase (b.policyFor n.medium)) ∧
      ∀ n ∈ (w.after commands).store.notifications,
        ∃ m, (w.after (commands ++ more)).store.find? n.id = some m ∧ n.Proceeds m := by
  have hrange (medium : Medium) : Instant.canShiftBy (b.policyFor medium).maxDelay = true :=
    Instant.canShiftBy_of_plus (hdelay medium).choose_spec
  have hfits : ∀ command ∈ commands ++ more, command.Fits ⟨(· = b), True⟩ :=
    Command.forall_fits hruns hbackoff fun _ _ => trivial
  rw [List.forall_mem_append] at hfits
  rw [← Account.world_opened_after, Account.after_append] at hserial
  have hbefore := (Account.serial_le_after _ more).trans hserial
  have hturns := Account.turns_after hfits.1 (Or.inl trivial) hblank.regular (Or.inl trivial)
    hbefore
  have hregular := hturns.regular hblank.regular
  have hphased : ((Account.opened w).after commands).world.books.Phased b := by
    refine hturns.phased hblank.regular hrange fun n hn => ?_
    have hrows : w.books.rows = [] := hblank.rows
    exact absurd hn (hrows ▸ List.not_mem_nil)
  have hturns' := Account.turns_after hfits.2 (Or.inl trivial) hregular (Or.inl trivial) hserial
  rw [← Account.world_opened_after, ← Account.world_opened_after, Account.after_append]
  refine ⟨hphased, fun n hn => ?_⟩
  obtain ⟨m, hm, hproceeds⟩ := hturns'.proceeds hregular hrange hphased hn
  refine ⟨m, ?_, hproceeds⟩
  rw [← hproceeds.advances.id]
  exact Store.find?_of_mem (hturns'.regular hregular).rows_nodup hm

/-- A notification fails twice, is given up, and is sent when it is published again by hand: the
row that failed proceeds to the one that was sent. -/
theorem World.after_lifecycle_revived :
    ∃ n m : Notification, n.status = .failed ∧ m.status = .sent ∧
      n.InPhase ((Sample.pipeline 2).backoff.policyFor n.medium) ∧ n.Proceeds m := by
  let replies : List Reply := List.replicate 2 (.done (.error (.network "down")))
  let p := Sample.pipeline 2
  let later := Sample.secondAttempt p ++ Sample.revival p
  have hdelay (medium : Medium) :
      ∃ t, (Sample.world replies).now.plus (p.backoff.policyFor medium).maxDelay = .ok t := by
    refine ⟨⟨300, 0, by decide, by decide, by decide⟩, ?_⟩
    cases medium <;> decide +kernel
  have hrun : ((Sample.world replies).after (Sample.firstAttempt p ++ later)).serial ≤
        Books.serialLimit ∧
      (∃ n ∈ ((Sample.world replies).after (Sample.firstAttempt p)).store.notifications,
        n.status = .failed) ∧
      ∀ m ∈ ((Sample.world replies).after (Sample.firstAttempt p ++ later)).store.notifications,
        m.status = .sent := by
    decide +kernel
  obtain ⟨hserial, ⟨n, hn, hfailed⟩, hsent⟩ := hrun
  obtain ⟨hphase, hproceeds⟩ := World.after_lifecycle (Sample.isBlank_world replies)
    (fun op hop => (Sample.runs_pipeline hop).1)
    (fun q ledger topic hop => (Sample.runs_pipeline hop).2 q ledger topic rfl ▸ rfl) hdelay hserial
  obtain ⟨m, hm, hnm⟩ := hproceeds n hn
  exact ⟨n, m, hfailed, hsent m (Store.find?_some hm).1, hphase n hn, hnm⟩

end Courier
