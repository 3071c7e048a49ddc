import Courier.Proofs.Breaker
import Courier.Proofs.Time.Instant
import Courier.World

/-!
Channels behind a breaker, and what they do from call to call. A breaker keeps a count and one
moment; here stands beside it the whole record of how the calls returned that it let through, with
the trips in it: the failures that complete a row of as many as the threshold asks for since the
last success or trip. Main rule: whether a call is refused is read off that record and the moment
of the call alone, and one that is not refused is passed on as it is.
-/

namespace Courier

/-! ## Trips -/

namespace Breaker

/-- The failures since the last success or trip. Of the returns the latest is told first. -/
def streak (threshold : Nat) : List Return → Nat
  | [] => 0
  | r :: earlier =>
    if r.failed ∧ streak threshold earlier + 1 ≠ threshold then streak threshold earlier + 1 else 0

/-- A call that failed, as the last of `threshold` failures since the last success or trip. -/
def Trips (threshold : Nat) (r : Return) (earlier : List Return) : Prop :=
  r.failed = true ∧ streak threshold earlier + 1 = threshold

instance (threshold : Nat) (r : Return) (earlier : List Return) :
    Decidable (Trips threshold r earlier) :=
  inferInstanceAs (Decidable (_ ∧ _))

/-- When the last trip was recorded. -/
def lastTrip? (threshold : Nat) : List Return → Option Instant
  | [] => none
  | r :: earlier =>
    if Trips threshold r earlier then some r.moment else lastTrip? threshold earlier

variable {rs : List Return} {threshold : Nat} {s : Instant}

theorem streak_lt (h : 0 < threshold) (rs : List Return) : streak threshold rs < threshold := by
  induction rs with
  | nil => exact h
  | cons r earlier ih =>
      rw [streak]
      split_ifs with hcounted
      · have := hcounted.2
        omega
      · exact h

theorem mem_of_lastTrip? (h : lastTrip? threshold rs = some s) : ∃ r ∈ rs, r.moment = s := by
  induction rs with
  | nil => cases h
  | cons r earlier ih =>
      rw [lastTrip?] at h
      split_ifs at h with htrips
      · exact ⟨r, List.mem_cons_self, Option.some.inj h⟩
      · obtain ⟨r', hr', hmoment⟩ := ih h
        exact ⟨r', List.mem_cons_of_mem r hr', hmoment⟩

end Breaker

/-- The moment lies before the end of a span that begins at another one, and before the last
moment. A span that leads out of range has no end. -/
def Instant.Precedes (t s : Instant) (d : Duration) : Prop :=
  t < last ∧ ∀ later, s.add? d = some later → t < later

namespace Breaker

variable {b : Breaker} {rs : List Return} {s t : Instant}

/-- A breaker that opens closes at the end of its window, or at the last moment if that comes
first. -/
theorem lt_closingTime_iff (hs : s ≤ Instant.last) :
    t < b.closingTime s ↔ t.Precedes s b.config.openWindow := by
  unfold closingTime Instant.Precedes
  cases hadd : s.add? b.config.openWindow with
  | none => simp
  | some later =>
      rw [if_pos (Instant.canShiftBy_of_add? hadd), Option.getD_some]
      have hle : later.key ≤ Instant.last.key := Instant.le_last_of_add? hs hadd
      constructor
      · intro hlt
        refine ⟨Int.lt_of_lt_of_le hlt hle, ?_⟩
        rintro _ ⟨⟩
        exact hlt
      · exact fun h => h.2 later rfl

/-- The breaker says what the returns say that it has counted: its count are the failures since the
last success or trip, and it opened last at the last trip. -/
structure Reflects (b : Breaker) (config : BreakerConfig) (rs : List Return) : Prop where
  config_eq : b.config = config
  failures_eq : b.failures.toNat = streak (max config.failureThreshold.toNat 1) rs
  openUntil_eq : b.openUntil =
    (lastTrip? (max config.failureThreshold.toNat 1) rs).map b.closingTime

variable {config : BreakerConfig}

theorem reflects_new (config : BreakerConfig) : Reflects { config } config [] := ⟨rfl, rfl, rfl⟩

theorem Reflects.count (h : b.Reflects config rs) (r : Return) :
    (b.count r).Reflects config (r :: rs) := by
  obtain ⟨rfl, hfailures, hopen⟩ := h
  have hclosing : (b.count r).closingTime = b.closingTime := by
    funext now
    rw [closingTime, closingTime, config_count]
  have hlt : streak (max b.config.failureThreshold.toNat 1) rs <
      max b.config.failureThreshold.toNat 1 := streak_lt (by omega) rs
  refine ⟨config_count b r, ?_, ?_⟩
  -- a count below the threshold cannot be the highest one, so it never saturates
  · rw [streak, Breaker.count]
    by_cases hfailed : r.failed = true
    · rw [if_pos hfailed]
      by_cases hmore : b.failures.toNat + 1 < b.config.failureThreshold.toNat
      · have hcount := toNat_countUp b.failures
        have hbound := b.config.failureThreshold.toNat_lt
        rw [recordFailure_of_lt _ hmore, if_pos ⟨hfailed, by omega⟩]
        dsimp only
        omega
      · rw [recordFailure_of_le _ (Nat.le_of_not_lt hmore), if_neg fun h => h.2 (by omega)]
        rfl
    · rw [if_neg hfailed, if_neg fun h => hfailed h.1]
      rfl
  · rw [lastTrip?, hclosing, Breaker.count]
    by_cases hfailed : r.failed = true
    · rw [if_pos hfailed]
      by_cases hmore : b.failures.toNat + 1 < b.config.failureThreshold.toNat
      · rw [recordFailure_of_lt _ hmore, if_neg fun h => absurd h.2 (by omega)]
        exact hopen
      · rw [recordFailure_of_le _ (Nat.le_of_not_lt hmore), if_pos ⟨hfailed, by omega⟩]
        rfl
    · rw [if_neg hfailed, if_neg fun h => hfailed h.1]
      exact hopen

/-- The last trip was recorded so late that its window lasts beyond the moment. -/
def OpenAt (config : BreakerConfig) (rs : List Return) (t : Instant) : Prop :=
  ∃ s, lastTrip? (max config.failureThreshold.toNat 1) rs = some s ∧
    t.Precedes s config.openWindow

theorem Reflects.allows_iff (h : b.Reflects config rs)
    (hclock : ∀ r ∈ rs, r.moment ≤ Instant.last) : b.allows t = true ↔ ¬ OpenAt config rs t := by
  obtain ⟨rfl, -, hopen⟩ := h
  rw [allows, hopen, OpenAt]
  cases hlast : lastTrip? (max b.config.failureThreshold.toNat 1) rs with
  | none => simp
  | some s =>
      obtain ⟨r, hr, rfl⟩ := mem_of_lastTrip? hlast
      have hiff := lt_closingTime_iff (b := b) (t := t) (hclock r hr)
      have hle : b.closingTime r.moment ≤ t ↔ ¬ t < b.closingTime r.moment := Int.not_lt.symm
      simp [hle, hiff]

end Breaker

/-! ## Calls from start to end -/

/-- The end of a call as its caller sees it. -/
def Ending.outcome : Ending → Outcome (Except DeliveryError Unit)
  | .returned result => .done result
  | .brokenOff text => .crashed text

/-- A call that ends within the budget ends as it does by itself. Timers are exact to the
millisecond. -/
theorem Reply.courseWithin_of_lt {reply : Reply} {budget : Duration} {delay : Nat}
    {ending : Ending} (hcourse : reply.course = some (delay, ending))
    (hdelay : delay * 1_000_000 < budget.nanos + 1_000_000) :
    (reply.courseWithin budget).2 = ending := by
  rw [courseWithin, hcourse]
  dsimp only
  rw [if_pos (by omega)]

/-- A call that takes longer, or that never ends, times out. -/
theorem Reply.courseWithin_of_le {reply : Reply} {budget : Duration}
    (hlate : ∀ delay ending, reply.course = some (delay, ending) →
      budget.nanos + 1_000_000 ≤ delay * 1_000_000) :
    (reply.courseWithin budget).2 = .returned (.error (.timedOut budget)) := by
  rw [courseWithin]
  cases hcourse : reply.course with
  | none => rfl
  | some course =>
      have := hlate course.1 course.2 hcourse
      dsimp only
      rw [if_neg (by omega)]

/-- What a breaker is told of the end of a call: whether it failed, unless it broke off. -/
def Ending.recorded (moment : Instant) : Ending → Option Breaker.Return
  | .returned result => some ⟨moment, !result.isOk⟩
  | .brokenOff _ => none

namespace Channel

/-- A call: what is to be delivered, when the call is made and when its end is recorded. -/
structure Visit where
  notification : Notification
  made : Instant
  ended : Instant

/-- How a call ends, and the channel after it. Nothing if it never ends. -/
def serve (c : Channel) (v : Visit) : Option Ending × Channel :=
  match c.start v.notification v.made with
  | (.refused error, c) => (some (.returned (.error error)), c)
  | (.underWay (some (_, ending)) _, c) => (some ending, c.finish ending v.ended)
  | (.underWay none _, c) => (none, c)

/-- The return of a call that is let through, if it does return. -/
def returns (c : Channel) (v : Visit) : Option Breaker.Return :=
  match (c.start v.notification v.made).1 with
  | .refused _ => none
  | .underWay course _ => course.bind fun (_, ending) => ending.recorded v.ended

/-- A channel with the returns of the calls that were let through, the latest first. -/
structure Record where
  channel : Channel
  history : List Breaker.Return

/-- Calls are made one after the other. -/
def recorded (c : Channel) (visits : List Visit) : Record :=
  visits.foldl
    (fun r v => ⟨(r.channel.serve v).2, (r.channel.returns v).toList ++ r.history⟩) ⟨c, []⟩

variable {c : Channel} {b : Breaker} {config : BreakerConfig} {v : Visit}

theorem recorded_concat (c : Channel) (visits : List Visit) (v : Visit) :
    c.recorded (visits ++ [v]) = ⟨((c.recorded visits).channel.serve v).2,
      ((c.recorded visits).channel.returns v).toList ++ (c.recorded visits).history⟩ :=
  List.foldl_append

/-- The channel once what stands behind it has been called. -/
def calling (c : Channel) (n : Notification) : Channel :=
  { c with line := (answer c.line n).2.2, calls := c.calls + 1 }

theorem start_of_allows {n : Notification} {now : Instant}
    (h : (c.breaker.map (·.allows now)).getD true = true) :
    c.start n now = (.underWay (match c.breaker with
        | some b => some ((answer c.line n).1.courseWithin b.config.callTimeout)
        | none => (answer c.line n).1.course) (answer c.line n).2.1, c.calling n) :=
  if_pos h

theorem start_of_not_allows {n : Notification} {now : Instant}
    (h : ¬ (c.breaker.map (·.allows now)).getD true = true) :
    c.start n now = (.refused (.circuitOpen c.name), c) :=
  if_neg h

/-- So a world answers a call while its clock stands still. -/
theorem sendAndWait_eq_serve {w : World} {place : Nat} (hplace : w.channels[place]? = some c)
    (hmade : v.made = w.now) (hended : v.ended = w.now) :
    (w.sendAndWait place v.notification).1 = (c.serve v).1.elim .stuck Ending.outcome ∧
      (w.sendAndWait place v.notification).2.channels[place]? = some (c.serve v).2 := by
  unfold World.sendAndWait World.startCall serve
  rw [hplace, hmade, hended]
  dsimp only
  by_cases hallows : (c.breaker.map (·.allows w.now)).getD true = true
  · rw [start_of_allows hallows]
    generalize (match c.breaker with
      | some b => some ((answer c.line v.notification).1.courseWithin b.config.callTimeout)
      | none => (answer c.line v.notification).1.course) = course
    rcases course with _ | ⟨delay, ending⟩
    · exact ⟨rfl, by simp [World.changeChannel, hplace]⟩
    · cases ending with
      | returned result =>
          refine ⟨rfl, ?_⟩
          simp [World.changeChannel, World.finishCall, World.now, hplace]
      | brokenOff text =>
          refine ⟨rfl, ?_⟩
          simp [World.changeChannel, World.finishCall, World.now, hplace]
  · rw [start_of_not_allows hallows]
    exact ⟨rfl, hplace⟩

theorem serve_of_allows (hb : c.breaker = some b) (hallows : b.allows v.made = true) :
    c.serve v = (some ((answer c.line v.notification).1.courseWithin b.config.callTimeout).2,
      (c.calling v.notification).finish
        ((answer c.line v.notification).1.courseWithin b.config.callTimeout).2 v.ended) := by
  rw [serve, start_of_allows (by rw [hb]; exact hallows), hb]

theorem serve_of_not_allows (hb : c.breaker = some b) (hrefuses : ¬ b.allows v.made = true) :
    c.serve v = (some (.returned (.error (.circuitOpen c.name))), c) := by
  rw [serve, start_of_not_allows (by rw [hb]; exact hrefuses)]

theorem returns_of_allows (hb : c.breaker = some b) (hallows : b.allows v.made = true) :
    c.returns v =
      ((answer c.line v.notification).1.courseWithin b.config.callTimeout).2.recorded v.ended := by
  rw [returns, start_of_allows (by rw [hb]; exact hallows), hb]
  rfl

theorem returns_of_not_allows (hb : c.breaker = some b) (hrefuses : ¬ b.allows v.made = true) :
    c.returns v = none := by
  rw [returns, start_of_not_allows (by rw [hb]; exact hrefuses)]

theorem breaker_finish (c : Channel) (hb : c.breaker = some b) (ending : Ending) (now : Instant) :
    (c.finish ending now).breaker = some ((ending.recorded now).elim b b.count) := by
  obtain ⟨name, media, line, breaker, calls⟩ := c
  obtain rfl : breaker = some b := hb
  rcases ending with (error | ⟨⟨⟩⟩) | text <;> rfl

/-- The breaker counts what returned, and nothing else. -/
theorem breaker_serve (hb : c.breaker = some b) :
    (c.serve v).2.breaker = some ((c.returns v).elim b b.count) := by
  by_cases hallows : b.allows v.made = true
  · rw [serve_of_allows hb hallows, returns_of_allows hb hallows]
    exact (c.calling v.notification).breaker_finish hb _ _
  · rw [serve_of_not_allows hb hallows, returns_of_not_allows hb hallows]
    exact hb

theorem finish_eq (c : Channel) (ending : Ending) (now : Instant) :
    ∃ breaker, c.finish ending now = { c with breaker } := by
  unfold finish
  split
  · exact ⟨_, rfl⟩
  · exact ⟨_, rfl⟩
  · exact ⟨c.breaker, rfl⟩

theorem name_serve (hb : c.breaker = some b) : (c.serve v).2.name = c.name := by
  by_cases hallows : b.allows v.made = true
  · rw [serve_of_allows hb hallows]
    obtain ⟨breaker, heq⟩ := (c.calling v.notification).finish_eq _ v.ended
    rw [heq]
    rfl
  · rw [serve_of_not_allows hb hallows]

theorem moment_of_returns {r : Breaker.Return} (h : c.returns v = some r) :
    r.moment = v.ended := by
  have hrecorded {ending : Ending} (h : ending.recorded v.ended = some r) :
      r.moment = v.ended := by
    cases ending with
    | returned result => exact Option.some.inj h ▸ rfl
    | brokenOff text => cases h
  unfold returns at h
  split at h
  · cases h
  · obtain ⟨⟨delay, ending⟩, -, h⟩ := Option.bind_eq_some_iff.mp h
    exact hrecorded h

/-! ## Runs of calls -/

/-- The channel goes by its record, and no call ended behind the last moment. -/
structure Record.Faithful (r : Record) (name : String) (config : BreakerConfig) : Prop where
  name_eq : r.channel.name = name
  reflects : ∃ b, r.channel.breaker = some b ∧ b.Reflects config r.history
  moments : ∀ x ∈ r.history, x.moment ≤ Instant.last

theorem Record.Faithful.visit {r : Record} {name : String} (h : r.Faithful name config)
    (hv : v.ended ≤ Instant.last) :
    Record.Faithful ⟨(r.channel.serve v).2, (r.channel.returns v).toList ++ r.history⟩ name
      config := by
  obtain ⟨b, hb, hreflects⟩ := h.reflects
  refine ⟨(name_serve hb).trans h.name_eq, ⟨_, breaker_serve hb, ?_⟩, ?_⟩
  · cases r.channel.returns v with
    | none => exact hreflects
    | some returned => exact hreflects.count returned
  · intro x hx
    rcases List.mem_append.mp hx with hx | hx
    · rw [moment_of_returns (Option.mem_toList.mp hx)]
      exact hv
    · exact h.moments x hx

theorem faithful_recorded (name : String) (media : List Medium) (line : Line)
    (config : BreakerConfig) {visits : List Visit} (hclock : ∀ u ∈ visits, u.ended ≤ Instant.last) :
    (recorded ⟨name, media, line, some { config }, 0⟩ visits).Faithful name config := by
  induction visits using List.reverseRecOn with
  | nil => exact ⟨rfl, ⟨_, rfl, Breaker.reflects_new config⟩, List.forall_mem_nil _⟩
  | append_singleton visits v ih =>
      rw [recorded_concat]
      refine (ih fun u hu => hclock u (List.mem_append_left _ hu)).visit ?_
      exact hclock v (List.mem_append_right _ List.mem_cons_self)

/-- A guarded channel, called again and again from the start. A call is refused exactly if the last
trip on record was so late that its window, cut off at the last moment, lasts beyond the moment at
which the call is made; then nothing happens behind the breaker. Any other call is made there once
and ends as it does by itself, or with a timeout if it takes too long. The breaker counts the
failures since the last success or trip. A world answers calls just so. No call ends behind
the last moment, in the leap second that can still be told there. -/
theorem serve_recorded (name : String) (media : List Medium) (line : Line) (config : BreakerConfig)
    (visits : List Visit) (v : Visit) (hclock : ∀ u ∈ visits, u.ended ≤ Instant.last) :
    let c := (recorded ⟨name, media, line, some { config }, 0⟩ visits).channel
    let history := (recorded ⟨name, media, line, some { config }, 0⟩ visits).history
    let (reply, _, line') := answer c.line v.notification
    (Breaker.OpenAt config history v.made →
      c.serve v = (some (.returned (.error (.circuitOpen name))), c)) ∧
    (¬ Breaker.OpenAt config history v.made → ∃ ending,
      (c.serve v).1 = some ending ∧ (c.serve v).2.calls = c.calls + 1 ∧
      (c.serve v).2.line = line' ∧
      (∀ delay own, reply.course = some (delay, own) →
        delay * 1_000_000 < config.callTimeout.nanos + 1_000_000 → ending = own) ∧
      ((∀ delay own, reply.course = some (delay, own) →
          config.callTimeout.nanos + 1_000_000 ≤ delay * 1_000_000) →
        ending = .returned (.error (.timedOut config.callTimeout)))) ∧
    (∃ b, c.breaker = some b ∧
      b.failures.toNat = Breaker.streak (max config.failureThreshold.toNat 1) history) ∧
    ∀ (w : World) (place : Nat), w.channels[place]? = some c → v.made = w.now → v.ended = w.now →
      (w.sendAndWait place v.notification).1 = (c.serve v).1.elim .stuck Ending.outcome ∧
        (w.sendAndWait place v.notification).2.channels[place]? = some (c.serve v).2 := by
  intro c history
  have hfaithful := faithful_recorded name media line config hclock
  obtain ⟨b, hb, hreflects⟩ := hfaithful.reflects
  have hallows := hreflects.allows_iff (t := v.made) hfaithful.moments
  refine ⟨fun hopen => ?_, fun hclosed => ?_, ⟨b, hb, hreflects.failures_eq⟩, fun w place => ?_⟩
  · rw [serve_of_not_allows hb fun h => hallows.mp h hopen, hfaithful.name_eq]
  · obtain ⟨breaker, heq⟩ := (c.calling v.notification).finish_eq
      ((answer c.line v.notification).1.courseWithin b.config.callTimeout).2 v.ended
    rw [serve_of_allows hb (hallows.mpr hclosed), heq, hreflects.config_eq]
    refine ⟨_, rfl, rfl, rfl, fun delay own hcourse hdelay => ?_, fun hlate => ?_⟩
    · exact Reply.courseWithin_of_lt hcourse hdelay
    · exact Reply.courseWithin_of_le hlate
  · exact fun hplace hmade hended => sendAndWait_eq_serve hplace hmade hended

/-- Two failures open this breaker for half a minute. -/
private def hasty : BreakerConfig := { BreakerConfig.standard with failureThreshold := 2 }

private def visitAt (seconds : Nat) : Visit where
  notification := .ofRequest ⟨.email, "user@example.com", "client", "{}", "key"⟩ .nil .epoch
  made := (Instant.epoch.add? (.ofSecs seconds)).getD .last
  ended := (Instant.epoch.add? (.ofSecs seconds)).getD .last

/-- Two failures trip the breaker, a call is refused, and when the window has passed two more trip
it again. -/
private def visits : List Visit :=
  [visitAt 0, visitAt 0, visitAt 10, visitAt 30, visitAt 31]

private def failing : Line := .script [] (.done (.error (.network "down")))

/-- The first window has passed, but the second one has not. -/
theorem serve_recorded_retripped :
    (∀ u ∈ visits, u.ended ≤ Instant.last) ∧
      ((recorded ⟨"mail", [.email], failing, some { config := hasty }, 0⟩ visits).channel.serve
        (visitAt 60)).1 = some (.returned (.error (.circuitOpen "mail"))) ∧
      ∃ ending, ((recorded ⟨"mail", [.email], failing, some { config := hasty }, 0⟩
        visits).channel.serve (visitAt 61)).1 = some ending ∧
          ending = .returned (.error (.network "down")) := by
  have hclock : ∀ u ∈ visits, u.ended ≤ Instant.last := by decide
  obtain ⟨hopen, -⟩ := serve_recorded "mail" [.email] failing hasty visits (visitAt 60) hclock
  obtain ⟨-, hclosed, -⟩ := serve_recorded "mail" [.email] failing hasty visits (visitAt 61) hclock
  have htrip : Breaker.lastTrip? 2
      (recorded ⟨"mail", [.email], failing, some { config := hasty }, 0⟩ visits).history =
        some (visitAt 31).ended := by
    decide +kernel
  refine ⟨hclock, ?_, ?_⟩
  · rw [hopen ⟨_, htrip, by decide, fun later hlater => ?_⟩]
    obtain rfl := Option.some.inj hlater
    decide
  · have hpassed : ¬ Breaker.OpenAt hasty
        (recorded ⟨"mail", [.email], failing, some { config := hasty }, 0⟩ visits).history
        (visitAt 61).made := by
      rintro ⟨s, hs, -, hprecedes⟩
      obtain rfl := Option.some.inj (htrip.symm.trans hs)
      exact absurd (hprecedes _ rfl) (by decide)
    obtain ⟨ending, hserve, -, -, hown, -⟩ := hclosed hpassed
    exact ⟨ending, hserve, hown 0 _ rfl (by decide)⟩

end Channel
end Courier
