import Courier.Proofs.Time.Instant
import Courier.RateLimiter
import Mathlib.Data.List.Induction
import Mathlib.Tactic.Common

/-!
Rate limits over whole runs. A limiter keeps one window for each key, and drops those that have
passed when there are too many. Beside it stand here all the moments at which a key was used, cut
into windows, with nothing dropped. Main rule: what a limiter answers for a key can be read off
the windows of that key alone. The clocks are such as show no leap seconds, as all do that count
the time from 1970: seen from within a leap second, a later moment may lie less far ahead.
-/

namespace Courier.RateLimiter

/-! ## Windows of one key -/

/-- Whether a moment lies in a window that starts at another one. -/
def within (length : Duration) (start t : Instant) : Bool :=
  t.since start < length.nanos

/-- The moments of use of one key by window. A window starts with the first use that no earlier
window holds. -/
def windowsOf (length : Duration) : List Instant → List (List Instant)
  | [] => []
  | start :: rest =>
    (start :: rest.takeWhile (within length start)) ::
      windowsOf length (rest.dropWhile (within length start))
termination_by moments => moments.length
decreasing_by
  have := (rest.dropWhile_suffix (within length start)).length_le
  simp only [List.length_cons]
  omega

/-- The answers within one window: as many uses as there are permits are allowed. -/
def verdicts (permits : Nat) (moments : List Instant) : List Bool :=
  (List.range moments.length).map (· < permits)

variable {length : Duration} {own : List Instant} {before : List (List Instant)}
  {start now later : Instant} {rest : List Instant}

/-- Every use lies in one window, and they keep their order. -/
theorem flatten_windowsOf (length : Duration) (own : List Instant) :
    (windowsOf length own).flatten = own := by
  fun_induction windowsOf length own with
  | case1 => rfl
  | case2 start rest ih =>
      rw [List.flatten_cons, ih, List.cons_append, List.takeWhile_append_dropWhile]

theorem windowsOf_ne_nil (h : own ≠ []) : windowsOf length own ≠ [] := by
  intro hnil
  apply h
  rw [← flatten_windowsOf length own, hnil, List.flatten_nil]

theorem eq_of_last_window {windows before' : List (List Instant)} {start' : Instant}
    {rest' : List Instant} (h : windows = before ++ [start :: rest])
    (h' : windows = before' ++ [start' :: rest']) : start = start' ∧ rest = rest' := by
  have hlast := List.append_inj_right' (h.symm.trans h') rfl
  exact List.cons.inj (List.cons.inj hlast).1

/-- One more use falls into the last window, or else it starts another one. -/
theorem windowsOf_concat (h : windowsOf length own = before ++ [start :: rest]) (now : Instant) :
    windowsOf length (own ++ [now]) =
      if within length start now then before ++ [start :: (rest ++ [now])]
      else before ++ [start :: rest] ++ [[now]] := by
  induction own using windowsOf.induct length generalizing before with
  | case1 => simp [windowsOf] at h
  | case2 first moments ih =>
      rw [List.cons_append, windowsOf, List.takeWhile_append, List.dropWhile_append]
      rw [windowsOf] at h
      -- either the first window is also the last one, or the last one lies among the others
      by_cases hdrop : moments.dropWhile (within length first) = []
      · have htake : moments.takeWhile (within length first) = moments := by
          rw [← List.append_nil (moments.takeWhile _), ← hdrop, List.takeWhile_append_dropWhile]
        rw [hdrop, htake, windowsOf] at h
        obtain ⟨rfl, rfl, rfl⟩ : before = [] ∧ first = start ∧ moments = rest := by
          cases before <;> simp_all
        by_cases hin : within length first now = true
        · simp [htake, hdrop, hin, windowsOf]
        · simp [htake, hdrop, hin, windowsOf]
      · have hlater : windowsOf length (moments.dropWhile (within length first)) ≠ [] :=
          windowsOf_ne_nil hdrop
        obtain ⟨more, rfl⟩ : ∃ more, before =
            (first :: moments.takeWhile (within length first)) :: more := by
          cases before with
          | nil => exact absurd (List.cons.inj h).2 hlater
          | cons w more => exact ⟨more, by rw [(List.cons.inj h).1]⟩
        have hshort : (moments.takeWhile (within length first)).length ≠ moments.length := by
          have hparts := congrArg List.length
            (moments.takeWhile_append_dropWhile (p := within length first))
          have hpos := List.length_pos_iff.mpr hdrop
          rw [List.length_append] at hparts
          omega
        rw [if_neg hshort, if_neg (by simpa using hdrop), ih (List.cons.inj h).2]
        split_ifs <;> rfl

theorem exists_last_window (length : Duration) (h : own ≠ []) :
    ∃ before start rest, windowsOf length own = before ++ [start :: rest] := by
  induction own using windowsOf.induct length with
  | case1 => exact absurd rfl h
  | case2 first moments ih =>
      rw [windowsOf]
      by_cases hdrop : moments.dropWhile (within length first) = []
      · exact ⟨[], _, _, by rw [hdrop, windowsOf]; rfl⟩
      · obtain ⟨before, start, rest, hlast⟩ := ih hdrop
        exact ⟨_ :: before, start, rest, by rw [hlast]; rfl⟩

/-- One more use falls into the last window, or that has passed and another one starts. -/
theorem windowsOf_concat_cases (length : Duration) (own : List Instant) (now : Instant) :
    (∃ before start rest, windowsOf length own = before ++ [start :: rest] ∧
      within length start now = true ∧
      windowsOf length (own ++ [now]) = before ++ [start :: (rest ++ [now])]) ∨
    (∀ before start rest, windowsOf length own = before ++ [start :: rest] →
      within length start now = false) ∧
      windowsOf length (own ++ [now]) = windowsOf length own ++ [[now]] := by
  by_cases hown : own = []
  · subst hown
    refine Or.inr ⟨fun before start rest h => ?_, by simp [windowsOf]⟩
    simp [windowsOf] at h
  · obtain ⟨before, start, rest, hlast⟩ := exists_last_window length hown
    have hconcat := windowsOf_concat hlast now
    by_cases hin : within length start now = true
    · rw [if_pos hin] at hconcat
      exact Or.inl ⟨before, start, rest, hlast, hin, hconcat⟩
    · rw [if_neg hin, ← hlast] at hconcat
      refine Or.inr ⟨fun before' start' rest' hlast' => ?_, hconcat⟩
      rw [← (eq_of_last_window hlast hlast').1]
      exact eq_false_of_ne_true hin

theorem forall_length_lt_of_concat {bound : Nat}
    (h : ∀ w ∈ windowsOf length (own ++ [now]), w.length < bound) :
    ∀ w ∈ windowsOf length own, w.length < bound := by
  rcases windowsOf_concat_cases length own now with
    ⟨before, start, rest, hlast, -, hconcat⟩ | ⟨-, hconcat⟩
  · rw [hconcat] at h
    rw [hlast]
    intro w hw
    rcases List.mem_append.mp hw with hw | hw
    · exact h w (List.mem_append_left _ hw)
    · obtain rfl := List.mem_singleton.mp hw
      have hlonger := h _ (List.mem_append_right _ List.mem_cons_self)
      simp only [List.length_cons, List.length_append] at hlonger ⊢
      omega
  · rw [hconcat] at h
    exact fun w hw => h w (List.mem_append_left _ hw)

theorem verdicts_concat (permits : Nat) (moments : List Instant) (now : Instant) :
    verdicts permits (moments ++ [now]) =
      verdicts permits moments ++ [decide (moments.length < permits)] := by
  rw [verdicts, List.length_append, List.length_singleton, List.range_succ, List.map_append]
  rfl

/-- The last answer goes by the place of the last use in its window. -/
theorem flatMap_verdicts_concat (permits : Nat)
    (h : windowsOf length (own ++ [now]) = before ++ [start :: rest]) :
    (windowsOf length (own ++ [now])).flatMap (verdicts permits) =
      (windowsOf length own).flatMap (verdicts permits) ++ [decide (rest.length < permits)] := by
  rcases windowsOf_concat_cases length own now with
    ⟨before', start', rest', hlast, -, hconcat⟩ | ⟨-, hconcat⟩
  · obtain ⟨-, rfl⟩ := eq_of_last_window h hconcat
    rw [hconcat, hlast, List.flatMap_append, List.flatMap_append, List.flatMap_singleton,
      List.flatMap_singleton, ← List.cons_append, verdicts_concat, List.append_assoc,
      List.length_append]
    rfl
  · obtain ⟨-, rfl⟩ := eq_of_last_window h hconcat
    rw [hconcat, List.flatMap_append, List.flatMap_singleton]
    rfl

/-! ## What a limiter keeps -/

/-- What a limiter keeps of a key agrees with all its uses up to a moment: the start and the count
of its last window, which is forgotten only when it has passed. -/
def Agrees (length : Duration) (own : List Instant) (now : Instant) : Option Window → Prop
  | some w => ∃ before rest, windowsOf length own = before ++ [w.startedAt :: rest] ∧
      w.count.toNat = min (rest.length + 1) 0xffff_ffff
  | none => ∀ before start rest, windowsOf length own = before ++ [start :: rest] →
      within length start now = false

variable {kept : Option Window} {windows : List (String × Window)} {key : String}

/-- A window that has passed has passed at every later moment. -/
theorem Agrees.mono (h : Agrees length own now kept)
    (hown : ∀ t ∈ own, t.frac < 1_000_000_000) (hnow : now.frac < 1_000_000_000)
    (hlater : later.frac < 1_000_000_000) (hle : now ≤ later) : Agrees length own later kept := by
  cases kept with
  | some w => exact h
  | none =>
      intro before start rest hlast
      have hstart : start.frac < 1_000_000_000 := by
        refine hown start ?_
        rw [← flatten_windowsOf length own, hlast]
        simp
      have hpassed := of_decide_eq_false (h before start rest hlast)
      have hnanos := Instant.nanosSinceEpoch_le hle hnow
      rw [Instant.since_eq hstart hnow] at hpassed
      refine decide_eq_false ?_
      rw [Instant.since_eq hstart hlater]
      omega

/-- Use by use, a window is counted up, or another one starts. -/
theorem Agrees.use (h : Agrees length own now kept) (later : Instant) :
    Agrees length (own ++ [now]) later (some (use length now kept)) := by
  have hcases := windowsOf_concat_cases length own now
  cases kept with
  | none =>
      rcases hcases with ⟨before, start, rest, hlast, hin, -⟩ | ⟨-, hconcat⟩
      · rw [h before start rest hlast] at hin
        cases hin
      · exact ⟨_, _, hconcat, rfl⟩
  | some w =>
      obtain ⟨before, rest, hlast, hcount⟩ := h
      rw [RateLimiter.use]
      rcases hcases with ⟨before', start, rest', hlast', hin, hconcat⟩ | ⟨hpassed, hconcat⟩
      · obtain ⟨rfl, rfl⟩ := eq_of_last_window hlast hlast'
        rw [if_pos (show isCurrent length now w = true from hin)]
        refine ⟨_, _, hconcat, ?_⟩
        rw [toNat_countUp, hcount, List.length_append, List.length_singleton]
        omega
      · have hnot : isCurrent length now w = false := hpassed _ _ _ hlast
        rw [if_neg (Bool.eq_false_iff.mp hnot)]
        exact ⟨_, _, hconcat, rfl⟩

/-! ## Tables of windows -/

theorem lookup_eq_none_of_not_mem (h : key ∉ windows.map Prod.fst) :
    windows.lookup key = none := by
  rw [List.lookup_eq_none_iff]
  intro entry hentry
  exact bne_iff_ne.mpr fun heq => h (List.mem_map.mpr ⟨entry, hentry, heq.symm⟩)

/-- Where each key stands once, its entry is dropped or it is found as before. -/
theorem lookup_filter {p : String × Window → Bool} (h : (windows.map Prod.fst).Nodup) :
    (windows.filter p).lookup key = (windows.lookup key).filter fun w => p (key, w) := by
  induction windows with
  | nil => rfl
  | cons entry windows ih =>
      obtain ⟨other, w⟩ := entry
      obtain ⟨hfresh, hnodup⟩ := List.nodup_cons.mp h
      have hrest := ih hnodup
      by_cases hkey : key = other
      · subst hkey
        rw [lookup_eq_none_of_not_mem hfresh] at hrest
        by_cases hp : p (key, w) = true
        · simp [hp, Option.filter]
        · simp [hp, hrest, Option.filter]
      · have hne : (key == other) = false := beq_false_of_ne hkey
        by_cases hp : p (other, w) = true
        · simp [hp, hne, List.lookup_cons, hrest]
        · simp [hp, hne, List.lookup_cons, hrest]

theorem lookup_map_replace (key : String) (w : Window) (windows : List (String × Window))
    (other : String) :
    (windows.map fun entry => if entry.1 = key then (key, w) else entry).lookup other =
      if other = key then (windows.lookup key).map fun _ => w else windows.lookup other := by
  induction windows with
  | nil => simp
  | cons entry windows ih =>
      obtain ⟨found, kept⟩ := entry
      by_cases hfound : found = key
      · subst hfound
        by_cases hother : other = found
        · simp [hother]
        · simp [List.lookup_cons, beq_false_of_ne hother, ih, hother]
      · have hne : (key == found) = false := beq_false_of_ne (Ne.symm hfound)
        by_cases hother : other = found
        · subst hother
          simp [hfound]
        · simp [List.lookup_cons, beq_false_of_ne hother, hne, ih, hfound]

theorem lookup_put (key : String) (w : Window) (windows : List (String × Window))
    (other : String) :
    (put key w windows).lookup other = if other = key then some w else windows.lookup other := by
  unfold put
  split
  · next hsome =>
    obtain ⟨kept, hkept⟩ := Option.isSome_iff_exists.mp hsome
    rw [lookup_map_replace, hkept, Option.map_some]
  · by_cases hother : other = key
    · simp [hother]
    · simp [List.lookup_cons, beq_false_of_ne hother, hother]

theorem nodup_put (h : (windows.map Prod.fst).Nodup) (key : String) (w : Window) :
    ((put key w windows).map Prod.fst).Nodup := by
  unfold put
  split
  · have hkeys : (windows.map fun entry => if entry.1 = key then (key, w) else entry).map
        Prod.fst = windows.map Prod.fst := by
      rw [List.map_map]
      refine List.map_congr_left fun entry hentry => ?_
      by_cases hentry : entry.1 = key
      · simp [hentry]
      · simp [hentry]
    rwa [hkeys]
  · next hnone =>
    rw [List.map_cons, List.nodup_cons]
    refine ⟨fun hmem => hnone ?_, h⟩
    obtain ⟨entry, hentry, rfl⟩ := List.mem_map.mp hmem
    by_contra hnot
    have hne := List.lookup_eq_none_iff.mp (Option.not_isSome_iff_eq_none.mp hnot) entry hentry
    simp at hne

/-! ## Runs -/

/-- A use of a key at a moment. -/
structure Use where
  moment : Instant
  key : String

/-- The moments at which a key was used. -/
def momentsOf (key : String) (uses : List Use) : List Instant :=
  (uses.filter (·.key = key)).map Use.moment

def after (l : RateLimiter) (uses : List Use) : RateLimiter :=
  uses.foldl (fun l u => (l.acquire u.moment u.key).2) l

/-- What is answered to the uses of a key, in their order. -/
def answersTo (key : String) (l : RateLimiter) : List Use → List Bool
  | [] => []
  | u :: uses =>
    let (allowed, next) := l.acquire u.moment u.key
    if u.key = key then allowed :: next.answersTo key uses else next.answersTo key uses

/-- All uses are outside of leap seconds. -/
def Plain (uses : List Use) : Prop := ∀ u ∈ uses, u.moment.frac < 1_000_000_000

/-- The windows of a limiter say of each key what its uses say, and they will for as long as no
time goes by. -/
structure Tracks (l : RateLimiter) (permits : UInt32) (length : Duration) (uses : List Use) :
    Prop where
  permits_eq : l.permits = permits
  window_eq : l.window = length
  nodup : (l.windows.map Prod.fst).Nodup
  agrees : ∀ key now, now.frac < 1_000_000_000 → (∀ u ∈ uses, u.moment ≤ now) →
    Agrees length (momentsOf key uses) now (l.windows.lookup key)

variable {l : RateLimiter} {permits : UInt32} {uses : List Use} {u : Use}

theorem nodup_prune (h : (l.windows.map Prod.fst).Nodup) (now : Instant) :
    ((l.prune now).map Prod.fst).Nodup := by
  unfold prune
  split
  · exact h.sublist (List.filter_sublist.map Prod.fst)
  · exact h

/-- What is dropped has passed. -/
theorem Agrees.prune (h : Agrees l.window own now (l.windows.lookup key))
    (hnodup : (l.windows.map Prod.fst).Nodup) :
    Agrees l.window own now ((l.prune now).lookup key) := by
  unfold RateLimiter.prune
  split
  · rw [lookup_filter hnodup]
    cases hlookup : l.windows.lookup key with
    | none => rwa [hlookup] at h
    | some w =>
        rw [hlookup] at h
        by_cases hcurrent : isCurrent l.window now w = true
        · rwa [Option.filter_some_pos hcurrent]
        · rw [Option.filter_some_neg (eq_false_of_ne_true hcurrent)]
          obtain ⟨before, rest, hlast, -⟩ := h
          intro before' start' rest' hlast'
          rw [← (eq_of_last_window hlast hlast').1]
          exact eq_false_of_ne_true hcurrent
  · exact h

theorem momentsOf_concat (key : String) (uses : List Use) (u : Use) :
    momentsOf key (uses ++ [u]) =
      if u.key = key then momentsOf key uses ++ [u.moment] else momentsOf key uses := by
  unfold momentsOf
  by_cases hkey : u.key = key
  · simp [hkey]
  · simp [hkey]

theorem Plain.momentsOf (h : Plain uses) (key : String) :
    ∀ t ∈ momentsOf key uses, t.frac < 1_000_000_000 := by
  intro t ht
  obtain ⟨u, hu, rfl⟩ := List.mem_map.mp ht
  exact h u (List.mem_filter.mp hu).1

theorem tracks_new (permits : UInt32) (window : Duration) :
    Tracks (new permits window) permits (if Instant.canShiftBy window then window else .ofSecs 1)
      [] :=
  ⟨rfl, rfl, List.nodup_nil, fun _ _ _ _ _ _ _ h => by simp [momentsOf, windowsOf] at h⟩

/-- A use tells of its own key, and of the others it leaves what is needed. -/
theorem Tracks.use (h : Tracks l permits length uses) (hplain : Plain (uses ++ [u]))
    (hclock : ∀ earlier ∈ uses, earlier.moment ≤ u.moment) :
    Tracks (l.acquire u.moment u.key).2 permits length (uses ++ [u]) := by
  obtain ⟨rfl, rfl, hnodup, hagrees⟩ := h
  obtain ⟨hbefore, hmoment⟩ := List.forall_mem_append.mp hplain
  have hu := hmoment u List.mem_cons_self
  refine ⟨rfl, rfl, nodup_put (nodup_prune hnodup _) _ _, fun key now hnow hlatest => ?_⟩
  have hle := hlatest u (List.mem_append_right _ List.mem_cons_self)
  have hkept := (hagrees key u.moment hu hclock).prune hnodup
  rw [momentsOf_concat, acquire, lookup_put]
  by_cases hkey : key = u.key
  · subst hkey
    rw [if_pos rfl, if_pos rfl]
    exact hkept.use now
  · rw [if_neg hkey, if_neg (Ne.symm hkey)]
    exact hkept.mono (Plain.momentsOf hbefore key) hu hnow hle

theorem after_concat (l : RateLimiter) (uses : List Use) (u : Use) :
    l.after (uses ++ [u]) = ((l.after uses).acquire u.moment u.key).2 :=
  List.foldl_append

theorem answersTo_concat (key : String) (l : RateLimiter) (uses : List Use) (u : Use) :
    l.answersTo key (uses ++ [u]) = l.answersTo key uses ++
      if u.key = key then [((l.after uses).acquire u.moment u.key).1] else [] := by
  induction uses generalizing l with
  | nil => rfl
  | cons first uses ih =>
      rw [List.cons_append, answersTo, answersTo]
      dsimp only
      rw [ih]
      by_cases hkey : first.key = key
      · rw [if_pos hkey, if_pos hkey]
        rfl
      · rw [if_neg hkey, if_neg hkey]
        rfl

theorem Tracks.after (h : Tracks l permits length []) (hplain : Plain uses)
    (hclock : uses.Pairwise fun earlier later => earlier.moment ≤ later.moment) :
    Tracks (l.after uses) permits length uses := by
  induction uses using List.reverseRecOn with
  | nil => exact h
  | append_singleton uses u ih =>
      obtain ⟨hbefore, -, hlast⟩ := List.pairwise_append.mp hclock
      rw [after_concat]
      exact (ih (List.forall_mem_append.mp hplain).1 hbefore).use hplain
        fun earlier hearlier => hlast earlier hearlier u List.mem_cons_self

/-- The answer to one more use, by its place in its window. -/
theorem Tracks.allowed (h : Tracks l permits length uses)
    (hplain : u.moment.frac < 1_000_000_000) (hclock : ∀ earlier ∈ uses, earlier.moment ≤ u.moment)
    (hlast : windowsOf length (momentsOf u.key uses ++ [u.moment]) = before ++ [start :: rest])
    (hfew : rest.length + 1 < 0x1_0000_0000) :
    (l.acquire u.moment u.key).1 = decide (rest.length < permits.toNat) := by
  obtain ⟨rfl, rfl, hnodup, hagrees⟩ := h
  have hkept := ((hagrees u.key u.moment hplain hclock).prune hnodup).use u.moment
  obtain ⟨before', rest', hlast', hcount⟩ := hkept
  obtain ⟨-, rfl⟩ := eq_of_last_window hlast hlast'
  rw [acquire]
  refine decide_eq_decide.mpr ?_
  rw [UInt32.le_iff_toNat_le, hcount]
  omega

/-- A limiter used again and again from its start, by a clock that never goes back and shows no
leap seconds, with fewer than `2 ^ 32` uses of a key in any of its windows. The answers for the key
are those of its own windows, as many in each as there are permits; no other key has a say in them,
and nothing that is dropped changes them. A window that is too long to move any moment counts as
one second. -/
theorem answersTo_eq_verdicts (permits : UInt32) (window : Duration) (uses : List Use)
    (key : String) (hplain : Plain uses)
    (hclock : uses.Pairwise fun earlier later => earlier.moment ≤ later.moment)
    (hfew : ∀ w ∈ windowsOf (if Instant.canShiftBy window then window else .ofSecs 1)
      (momentsOf key uses), w.length < 0x1_0000_0000) :
    (new permits window).answersTo key uses =
      (windowsOf (if Instant.canShiftBy window then window else .ofSecs 1)
        (momentsOf key uses)).flatMap (verdicts permits.toNat) := by
  generalize hlength : (if Instant.canShiftBy window then window else .ofSecs 1) = length at hfew ⊢
  have hnew : Tracks (new permits window) permits length [] := hlength ▸ tracks_new permits window
  -- from the end: only the last use is asked about, and the windows before it are tracked
  induction uses using List.reverseRecOn with
  | nil => simp [answersTo, momentsOf, windowsOf]
  | append_singleton uses u ih =>
      obtain ⟨hbefore, -, hlater⟩ := List.pairwise_append.mp hclock
      obtain ⟨hplains, hmoment⟩ := List.forall_mem_append.mp hplain
      have htracks := hnew.after hplains hbefore
      rw [answersTo_concat]
      rw [momentsOf_concat] at hfew ⊢
      by_cases hkey : u.key = key
      · subst hkey
        rw [if_pos rfl] at hfew ⊢
        obtain ⟨before, start, rest, hlast⟩ := exists_last_window length
          (List.append_ne_nil_of_right_ne_nil (momentsOf u.key uses) (List.cons_ne_nil u.moment []))
        have hplace : (start :: rest).length < 0x1_0000_0000 :=
          hfew _ (by rw [hlast]; exact List.mem_append_right _ List.mem_cons_self)
        have hanswer := htracks.allowed (hmoment u List.mem_cons_self)
          (fun earlier hearlier => hlater earlier hearlier u List.mem_cons_self) hlast hplace
        rw [if_pos rfl, ih hplains hbefore (forall_length_lt_of_concat hfew), hanswer,
          flatMap_verdicts_concat permits.toNat hlast]
      · rw [if_neg hkey] at hfew ⊢
        rw [if_neg hkey, List.append_nil]
        exact ih hplains hbefore hfew

private def momentAt (millis : Nat) : Instant :=
  (Instant.epoch.add? (.ofMillis millis)).getD .last

private def rush : List Use :=
  [⟨momentAt 0, "k"⟩, ⟨momentAt 0, "other"⟩, ⟨momentAt 500, "k"⟩, ⟨momentAt 999, "k"⟩,
    ⟨momentAt 1000, "other"⟩, ⟨momentAt 1000, "k"⟩]

private theorem windowsOf_rush : windowsOf (.ofSecs 1) (momentsOf "k" rush) =
    [[momentAt 0, momentAt 500, momentAt 999], [momentAt 1000]] := by
  have hmoments : momentsOf "k" rush =
      [momentAt 0, momentAt 500, momentAt 999, momentAt 1000] := rfl
  rw [hmoments, windowsOf]
  change _ :: windowsOf _ [momentAt 1000] = _
  rw [windowsOf]
  change _ :: _ :: windowsOf _ [] = _
  rw [windowsOf]
  rfl

/-- The third use in a second is refused, and the next second is another window. -/
theorem answersTo_eq_verdicts_rush :
    Plain rush ∧ (rush.Pairwise fun earlier later => earlier.moment ≤ later.moment) ∧
    (∀ w ∈ windowsOf (.ofSecs 1) (momentsOf "k" rush), w.length < 0x1_0000_0000) ∧
    (new 2 (.ofSecs 1)).answersTo "k" rush = [true, true, false, true] := by
  have hplain : Plain rush := by
    unfold Plain
    decide +kernel
  have hclock : rush.Pairwise fun earlier later => earlier.moment ≤ later.moment := by
    decide +kernel
  have hfew : ∀ w ∈ windowsOf (.ofSecs 1) (momentsOf "k" rush), w.length < 0x1_0000_0000 := by
    rw [windowsOf_rush]
    decide
  refine ⟨hplain, hclock, hfew, ?_⟩
  have hanswers := answersTo_eq_verdicts 2 (.ofSecs 1) rush "k" hplain hclock hfew
  change _ = (windowsOf (.ofSecs 1) _).flatMap _ at hanswers
  rw [hanswers, windowsOf_rush]
  rfl

/-- The longest window that can be asked for. -/
private def eternity : Duration := .ofNanos Duration.maxNanos

private def apart : List Use := [⟨momentAt 0, "k"⟩, ⟨momentAt 1000, "k"⟩]

/-- A window that is longer than all time does not hold for that long. -/
theorem answersTo_overlong_ne : ¬ ∀ (permits : UInt32) (window : Duration) (uses : List Use)
    (key : String), Plain uses →
    (uses.Pairwise fun earlier later => earlier.moment ≤ later.moment) →
    (∀ w ∈ windowsOf window (momentsOf key uses), w.length < 0x1_0000_0000) →
    (new permits window).answersTo key uses =
      (windowsOf window (momentsOf key uses)).flatMap (verdicts permits.toNat) := by
  intro hall
  have hwindows : windowsOf eternity (momentsOf "k" apart) = [[momentAt 0, momentAt 1000]] := by
    have hmoments : momentsOf "k" apart = [momentAt 0, momentAt 1000] := rfl
    rw [hmoments, windowsOf]
    change _ :: windowsOf _ [] = _
    rw [windowsOf]
    rfl
  have hplain : Plain apart := by
    unfold Plain
    decide +kernel
  have hrefused := hall 1 eternity apart "k" hplain (by decide +kernel) (by rw [hwindows]; decide)
  rw [hwindows] at hrefused
  have hallowed : (new 1 eternity).answersTo "k" apart = [true, true] := by decide +kernel
  rw [hallowed] at hrefused
  exact absurd hrefused (by decide)

end Courier.RateLimiter
