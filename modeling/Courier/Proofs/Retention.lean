import Courier.Config.Fault
import Courier.Proofs.Alone.Promptness
import Courier.Proofs.Time.Instant

/-!
How sweeps end. A period of more than `2 ^ 63 - 1` milliseconds is refused as a setting out of
range; a shorter one is subtracted from the time of day. Main rule: a sweep breaks off just for
those of the shorter ones that reach further back than the first moment. Nothing is deleted for a
period that reaches back that far, however long it is.
-/

namespace Courier

namespace Prog

variable {α : Type} {w : World}

/-- A program comes to its end with a value. -/
def Returns (p : Prog α) (w : World) : Prop := ∃ a w', p.run w = (.done a, w')

theorem returns_done (a : α) (w : World) : (Prog.done a).Returns w := ⟨a, w, rfl⟩

/-- Only channels can leave a call without an answer. -/
theorem returns_ask {c : Call} {next : c.Answer → Prog α} (hc : ¬ c.IsSend)
    (hnext : ∀ a w', (next a).Returns w') : (ask c next).Returns w := by
  unfold Returns
  rw [run]
  rcases hanswer : w.answer c with ⟨a | _ | _, w'⟩
  · exact hnext a w'
  · obtain ⟨-, place, n, rfl⟩ := World.unanswered hanswer fun _ heq => by cases heq
    exact absurd trivial hc
  · obtain ⟨-, place, n, rfl⟩ := World.unanswered hanswer fun _ heq => by cases heq
    exact absurd trivial hc

end Prog

theorem Job.returns_bind {α β : Type} {w : World} {job : Job β} {f : β → Job α}
    (hjob : job.run.Returns w) (hf : ∀ b w', (f b).run.Returns w') :
    (job >>= f).run.Returns w := by
  obtain ⟨result, w', hrun⟩ := hjob
  unfold Prog.Returns
  rw [Prog.run_bind_job, hrun]
  cases result with
  | error error => exact ⟨_, _, rfl⟩
  | ok b => exact hf b w'

namespace Retention

open Instant

theorem returns_pruneTopics (cutoff : Instant) (topics : List String) (w : World) :
    (pruneTopics cutoff topics).run.Returns w := by
  induction topics generalizing w with
  | nil => exact Prog.returns_done _ w
  | cons topic rest ih =>
      refine Job.returns_bind (Prog.returns_ask id Prog.returns_done) fun dropped w' => ?_
      exact Job.returns_bind (ih w') fun _ => Prog.returns_done _

/-! ## The three ways of a sweep -/

variable {r : Retention} {w : World}

theorem run_sweep_of_overlong (h : canShiftBy r.period = false) :
    r.sweep.run.run w = (.done (.error (.configuration
      "retention period: Source duration value is out of range for the target type")), w) := by
  unfold sweep
  rw [if_pos (by simp [h])]
  rfl

/-- Once the period is taken for a span of time, all depends on whether it leads anywhere. -/
theorem run_sweep_of_canShiftBy (h : canShiftBy r.period = true) :
    r.sweep.run.run w = (do
      let cutoff ← Job.orCrash (w.now.minus r.period)
      let outboxEvents ← Job.store (.call (.deletePublished cutoff))
      let busRecords ← pruneTopics cutoff r.topics
      Job.call (.tally r.ledger (.pruned outboxEvents busRecords))
      return ⟨outboxEvents, busRecords⟩ : Job PruneReport).run.run w := by
  unfold sweep
  rw [if_neg (not_not.mpr h)]
  rfl

theorem run_sweep_of_overflow {overflow : Overflow} (h : canShiftBy r.period = true)
    (hminus : w.now.minus r.period = .error overflow) :
    r.sweep.run.run w = (.crashed overflow.message, w) := by
  rw [run_sweep_of_canShiftBy h, hminus]
  rfl

theorem returns_sweep_of_minus {cutoff : Instant} (h : canShiftBy r.period = true)
    (hminus : w.now.minus r.period = .ok cutoff) : r.sweep.run.Returns w := by
  unfold Prog.Returns
  rw [run_sweep_of_canShiftBy h, hminus]
  refine Job.returns_bind (Prog.returns_done _ w) fun cutoff w' => ?_
  have hdelete : (Job.store (.call (.deletePublished cutoff))).run.Returns w' :=
    Prog.returns_ask id fun _ => Prog.returns_done _
  refine Job.returns_bind hdelete fun outboxEvents w' => ?_
  refine Job.returns_bind (returns_pruneTopics cutoff r.topics w') fun busRecords _ => ?_
  exact Job.returns_bind (Prog.returns_ask id fun _ => Prog.returns_done _) fun _ =>
    Prog.returns_done _

/-- A sweep comes to its end exactly if its period is too long for a span of time, or leads back
to some moment. -/
theorem returns_sweep_iff : r.sweep.run.Returns w ↔
    canShiftBy r.period = false ∨ ∃ cutoff, w.now.minus r.period = .ok cutoff := by
  cases hshift : canShiftBy r.period with
  | false => exact iff_of_true ⟨_, _, run_sweep_of_overlong hshift⟩ (.inl rfl)
  | true =>
      cases hminus : w.now.minus r.period with
      | ok cutoff => exact iff_of_true (returns_sweep_of_minus hshift hminus) (.inr ⟨cutoff, rfl⟩)
      | error overflow =>
          refine iff_of_false ?_ (by simp)
          rintro ⟨result, w', hrun⟩
          rw [run_sweep_of_overflow hshift hminus] at hrun
          cases (Prod.mk.inj hrun).1

/-- Without a moment to go back to, a sweep leaves everything as it is. -/
theorem world_sweep_of_not_minus (h : ¬ ∃ cutoff, w.now.minus r.period = .ok cutoff) :
    (r.sweep.run.run w).2 = w := by
  cases hshift : canShiftBy r.period with
  | false => rw [run_sweep_of_overlong hshift]
  | true =>
      cases hminus : w.now.minus r.period with
      | ok cutoff => exact absurd ⟨cutoff, hminus⟩ h
      | error overflow => rw [run_sweep_of_overflow hshift hminus]

end Retention

namespace Config

/-- A sweep for as long a period as the configuration says. -/
def sweep (c : Config) (topics : List String) (ledger : Ledger) : Job PruneReport :=
  Retention.sweep ⟨c.pipeline.retentionPeriod, topics, ledger⟩

theorem nanos_retentionPeriod (c : Config) :
    c.pipeline.retentionPeriod.nanos = c.retentionPeriodSeconds.toNat * 1_000_000_000 :=
  Duration.nanos_ofSecs_toNat _

theorem canShiftBy_retentionPeriod (c : Config) :
    Instant.canShiftBy c.pipeline.retentionPeriod = false ↔
      2 ^ 63 ≤ c.retentionPeriodSeconds.toNat * 1000 := by
  unfold Instant.canShiftBy Instant.maxShift
  rw [decide_eq_false_iff_not, nanos_retentionPeriod]
  omega

/-- Whatever the store and the bus hold, a sweep comes to its end exactly if the period has `2 ^ 63`
milliseconds or more, or reaches back to the first moment at most. If it reaches further back, the
world stays as it is. -/
theorem sweep_returns_iff (c : Config) (topics : List String) (ledger : Ledger) (w : World) :
    ((c.sweep topics ledger).run.Returns w ↔
      2 ^ 63 ≤ c.retentionPeriodSeconds.toNat * 1000 ∨
        Instant.first.nanosSinceEpoch ≤
          w.now.nanosSinceEpoch - c.retentionPeriodSeconds.toNat * 1_000_000_000) ∧
    (w.now.nanosSinceEpoch - c.retentionPeriodSeconds.toNat * 1_000_000_000 <
        Instant.first.nanosSinceEpoch →
      ((c.sweep topics ledger).run.run w).2 = w) := by
  have hminus := Instant.exists_minus_iff w.clock.frac_now_lt c.pipeline.retentionPeriod
  rw [nanos_retentionPeriod] at hminus
  constructor
  · refine Retention.returns_sweep_iff.trans (or_congr c.canShiftBy_retentionPeriod ?_)
    exact_mod_cast hminus
  · intro hbefore
    refine Retention.world_sweep_of_not_minus fun hcutoff => ?_
    have hreaches := hminus.mp hcutoff
    push_cast at hreaches
    exact absurd hbefore (Int.not_lt.mpr hreaches)

/-- The service starts with a period of ten million million seconds, and breaks off in its first
sweep. -/
theorem sweep_overflows :
    let c : Config := { standard with retentionPeriodSeconds := 10_000_000_000_000 }
    c.fault? = none ∧
      ((c.sweep (Topic.all.map Topic.name) .loops).run.run
        { Sample.world [] with clock := ⟨1_735_689_600_000_000⟩ }).1 matches
          .crashed "`DateTime - TimeDelta` overflowed" := by
  decide +kernel

end Config
end Courier
