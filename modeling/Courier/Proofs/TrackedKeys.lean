import Courier.Proofs.RateLimiter
import Mathlib.Data.List.Nodup

/-!
How many keys a limiter tracks. Windows that have passed are dropped before a use, and only when
there are more than ten thousand; so what a use leaves behind is told from the moment of that use
alone, whatever the clock showed before. Main rule: after each use at most 10001 keys are tracked,
or no window of those tracked has passed. More than that may be tracked, by a clock that does not
go forward.
-/

namespace Courier.RateLimiter

variable {length : Duration} {l : RateLimiter} {windows : List (String × Window)} {key : String}

theorem length_put_le (key : String) (w : Window) (windows : List (String × Window)) :
    (put key w windows).length ≤ windows.length + 1 := by
  unfold put
  split
  · rw [List.length_map]
    exact Nat.le_succ _
  · exact Nat.le_refl _

theorem eq_or_mem_of_mem_put {w : Window} {entry : String × Window}
    (h : entry ∈ put key w windows) : entry = (key, w) ∨ entry ∈ windows := by
  unfold put at h
  split at h
  · obtain ⟨found, hfound, rfl⟩ := List.mem_map.mp h
    by_cases hkey : found.1 = key
    · exact Or.inl (if_pos hkey)
    · exact Or.inr ((if_neg hkey).symm ▸ hfound)
  · exact List.mem_cons.mp h

/-- Just after a use, the window of the key has not passed. -/
theorem isCurrent_use (hpos : 0 < length.nanos) (now : Instant) (kept : Option Window) :
    isCurrent length now (use length now kept) = true := by
  have hstarted : isCurrent length now ⟨now, 1⟩ = true :=
    decide_eq_true (by simpa [Instant.since] using hpos)
  cases kept with
  | none => exact hstarted
  | some w =>
      rw [use]
      split
      · next hcurrent => exact hcurrent
      · exact hstarted

/-- Few keys are tracked, or else only such whose windows have not passed. -/
def Bounded (l : RateLimiter) (now : Instant) : Prop :=
  l.tracked ≤ pruneThreshold + 1 ∨ ∀ entry ∈ l.windows, isCurrent l.window now entry.2 = true

/-- Whatever was tracked before, a use adds one key to few of them or has dropped what has
passed. -/
theorem bounded_acquire (hpos : 0 < l.window.nanos) (now : Instant) (key : String) :
    (l.acquire now key).2.Bounded now := by
  unfold Bounded tracked acquire
  dsimp only
  by_cases hmany : pruneThreshold < l.windows.length
  · refine Or.inr fun entry hentry => ?_
    rcases eq_or_mem_of_mem_put hentry with rfl | hkept
    · exact isCurrent_use hpos now _
    · rw [prune, if_pos hmany] at hkept
      exact (List.mem_filter.mp hkept).2
  · refine Or.inl (Nat.le_trans (length_put_le _ _ _) (Nat.succ_le_succ ?_))
    rw [prune, if_neg hmany]
    exact Nat.le_of_not_lt hmany

/-- The windows of a new limiter are as long as asked for or, if no moment can be moved by that
much, shorter. -/
theorem window_new_bounds (permits : UInt32) {window : Duration} (hpos : 0 < window.nanos) :
    0 < (new permits window).window.nanos ∧ (new permits window).window ≤ window := by
  unfold new
  dsimp only
  split
  · exact ⟨hpos, Nat.le_refl _⟩
  · next hlong =>
    unfold Instant.canShiftBy Instant.maxShift at hlong
    rw [decide_eq_true_eq] at hlong
    refine ⟨by decide, ?_⟩
    change (Duration.ofSecs 1).nanos ≤ window.nanos
    rw [Duration.ofSecs, Duration.nanos_ofNanos]
    omega

theorem window_after (l : RateLimiter) (uses : List Use) : (l.after uses).window = l.window := by
  induction uses using List.reverseRecOn with
  | nil => rfl
  | append_singleton uses u ih =>
      rw [after_concat]
      exact ih

theorem nodup_after (h : (l.windows.map Prod.fst).Nodup) (uses : List Use) :
    ((l.after uses).windows.map Prod.fst).Nodup := by
  induction uses using List.reverseRecOn with
  | nil => exact h
  | append_singleton uses u ih =>
      rw [after_concat]
      exact nodup_put (nodup_prune ih u.moment) _ _

/-- So it is after the last use of a run, whatever the clock showed at those before it. -/
theorem bounded_after (hpos : 0 < l.window.nanos) (uses : List Use) (u : Use) :
    (l.after (uses ++ [u])).Bounded u.moment := by
  rw [after_concat]
  exact bounded_acquire ((window_after l uses).symm ▸ hpos) u.moment u.key

/-- A key is dropped only when its window has passed. -/
theorem isSome_lookup_acquire {w : Window} {now : Instant} (hnodup : (l.windows.map Prod.fst).Nodup)
    (hw : l.windows.lookup key = some w) (hcurrent : isCurrent l.window now w = true)
    (used : String) : ((l.acquire now used).2.windows.lookup key).isSome = true := by
  have hkept : (l.prune now).lookup key = some w := by
    unfold prune
    split
    · rw [lookup_filter hnodup, hw]
      exact Option.filter_some_pos hcurrent
    · exact hw
  rw [acquire, lookup_put]
  split
  · rfl
  · rw [hkept]
    rfl

/-- A limiter is used again and again from its start, by a clock that goes forward and back at will.
After each use at most 10001 keys are tracked, or no window of those tracked has passed. Each key
is counted once, and none is forgotten whose window has not passed. -/
theorem tracked_le_or_current (permits : UInt32) (window : Duration) (hpos : 0 < window.nanos)
    (uses : List Use) (u : Use) :
    let before := (new permits window).after uses
    let l := (new permits window).after (uses ++ [u])
    l.window ≤ window ∧ (l.windows.map Prod.fst).Nodup ∧
      (l.tracked ≤ 10001 ∨ ∀ entry ∈ l.windows,
        u.moment.since entry.2.startedAt < l.window.nanos) ∧
      ∀ key w, before.windows.lookup key = some w → isCurrent l.window u.moment w = true →
        (l.windows.lookup key).isSome = true := by
  intro before l
  obtain ⟨hlength, hle⟩ := window_new_bounds permits hpos
  have hwindow : l.window = (new permits window).window := window_after _ _
  have hnodup : ∀ uses, (((new permits window).after uses).windows.map Prod.fst).Nodup :=
    nodup_after List.nodup_nil
  refine ⟨hwindow ▸ hle, hnodup _, ?_, fun key w hw hcurrent => ?_⟩
  · refine (bounded_after hlength uses u).imp_right fun hcurrent entry hentry => ?_
    exact of_decide_eq_true (hcurrent entry hentry)
  · rw [hwindow, ← window_after _ uses] at hcurrent
    have hfound := isSome_lookup_acquire (hnodup uses) hw hcurrent u.key
    rwa [← after_concat] at hfound

/-- While no time passes by the clock, no window does: each new key is one more. -/
theorem windows_after_of_back (hpos : 0 < l.window.nanos) (hempty : l.windows = [])
    (uses : List Use) (hkeys : (uses.map (·.key)).Nodup)
    (hback : uses.Pairwise fun earlier later => later.moment.since earlier.moment ≤ 0) :
    (l.after uses).windows = (uses.map fun u => (u.key, ⟨u.moment, 1⟩)).reverse := by
  induction uses using List.reverseRecOn with
  | nil => exact hempty
  | append_singleton uses u ih =>
      obtain ⟨hbefore, -, hlater⟩ := List.pairwise_append.mp hback
      rw [List.map_append] at hkeys
      obtain ⟨hdistinct, -, hfresh⟩ := List.nodup_append.mp hkeys
      have hwindows := ih hdistinct hbefore
      -- all windows start at the moment of this use or later, so even pruning keeps them
      have hprune : (l.after uses).prune u.moment = (l.after uses).windows := by
        unfold prune
        split
        · refine List.filter_eq_self.mpr fun entry hentry => decide_eq_true ?_
          rw [hwindows, List.mem_reverse] at hentry
          obtain ⟨earlier, hearlier, rfl⟩ := List.mem_map.mp hentry
          have hle := hlater earlier hearlier u List.mem_cons_self
          rw [window_after]
          dsimp only
          omega
        · rfl
      have hnone : (l.after uses).windows.lookup u.key = none := by
        refine lookup_eq_none_of_not_mem fun hmem => ?_
        rw [hwindows, ← List.map_reverse, List.map_map] at hmem
        obtain ⟨earlier, hearlier, hkey⟩ := List.mem_map.mp hmem
        exact hfresh _ (List.mem_map_of_mem (List.mem_reverse.mp hearlier)) _
          List.mem_cons_self hkey
      rw [after_concat, acquire, hprune, hnone, put, hnone, hwindows]
      simp [use]

private def aSecondIn : Instant := (Instant.epoch.add? (.ofSecs 1)).getD .last

private def crowd : List Use :=
  (List.range 10001).map fun n => ⟨aSecondIn, String.ofList (List.replicate n 'k')⟩

private def latecomer : Use := ⟨.epoch, "late"⟩

private theorem keys_crowd : ((crowd ++ [latecomer]).map (·.key)).Nodup := by
  have hinjective : Function.Injective fun n : Nat => String.ofList (List.replicate n 'k') := by
    intro n m h
    simpa using congrArg (·.toList.length) h
  rw [List.map_append, List.nodup_append, crowd, List.map_map]
  refine ⟨List.Nodup.map hinjective List.nodup_range, List.nodup_singleton _, ?_⟩
  rintro key hkey late hlate rfl
  obtain ⟨n, -, rfl⟩ := List.mem_map.mp hkey
  have hletters := congrArg String.toList (List.mem_singleton.mp hlate)
  have hmem : 'l' ∈ List.replicate n 'k' := by
    dsimp only [Function.comp] at hletters
    rw [String.toList_ofList] at hletters
    rw [hletters]
    decide
  exact absurd (List.eq_of_mem_replicate hmem) (by decide)

/-- When ten thousand and one keys are tracked and the clock jumps back by a second, one more is
tracked and none is dropped, as no window has passed. -/
theorem tracked_le_or_current_crowd :
    0 < (Duration.ofSecs 1).nanos ∧
      ((new 1 (.ofSecs 1)).after (crowd ++ [latecomer])).tracked = 10002 ∧
      ∀ entry ∈ ((new 1 (.ofSecs 1)).after (crowd ++ [latecomer])).windows,
        Instant.epoch.since entry.2.startedAt < 1_000_000_000 := by
  have hpos : 0 < (Duration.ofSecs 1).nanos := by decide
  have hback : (crowd ++ [latecomer]).Pairwise fun earlier later =>
      later.moment.since earlier.moment ≤ 0 := by
    rw [List.pairwise_append, crowd, List.pairwise_map]
    have hsame : aSecondIn.since aSecondIn ≤ 0 := by decide
    refine ⟨List.pairwise_of_forall fun _ _ => hsame, List.pairwise_singleton _ _, ?_⟩
    rintro u hu late hlate
    obtain ⟨n, -, rfl⟩ := List.mem_map.mp hu
    obtain rfl := List.mem_singleton.mp hlate
    change Instant.epoch.since aSecondIn ≤ 0
    decide
  have htracked : ((new 1 (.ofSecs 1)).after (crowd ++ [latecomer])).tracked = 10002 := by
    rw [tracked, windows_after_of_back (by decide) rfl _ keys_crowd hback, List.length_reverse,
      List.length_map, List.length_append, crowd, List.length_map, List.length_range,
      List.length_singleton]
  obtain ⟨-, -, hbounded, -⟩ := tracked_le_or_current 1 (.ofSecs 1) hpos crowd latecomer
  have hcurrent := hbounded.resolve_left (by rw [htracked]; decide)
  rw [window_after] at hcurrent
  exact ⟨hpos, htracked, hcurrent⟩

end Courier.RateLimiter
