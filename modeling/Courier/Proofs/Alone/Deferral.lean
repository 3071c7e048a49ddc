import Courier.Proofs.Alone.Promptness

/-!
How long a record can hold up the retry topic. Whatever waits there was put off by a delay of the
policy, counted from the moment of a failure, and published after that moment. So if the clock does
not go back, a record is due at the latest when the longest delay has passed since it was
published, and so are those before it, which were published no later.
-/

namespace Courier

/-! ## What calls do to rows and to a log -/

theorem Store.mem_of_mem_putInto {x n : Notification} {rows : List Notification}
    (h : x ∈ putInto n rows) : x = n ∨ x ∈ rows := by
  induction rows with
  | nil => exact Or.inl (List.mem_singleton.mp h)
  | cons m rows ih =>
      rw [putInto] at h
      split at h
      · exact (List.mem_cons.mp h).imp_right (List.mem_cons_of_mem m)
      · rcases List.mem_cons.mp h with rfl | h
        · exact Or.inr List.mem_cons_self
        · exact (ih h).imp_right (List.mem_cons_of_mem m)

namespace World

/-- Rows are there before a call, or written by it. -/
theorem mem_rows_answer {w : World} {c : Call} {x : Notification}
    (hx : x ∈ (w.answer c).2.store.notifications) :
    x ∈ w.store.notifications ∨ c = .save x ∨ ∃ topic, c = .saveWithOutbox x topic := by
  have hsame (h : (w.answer c).2.books.rows = w.books.rows) : x ∈ w.store.notifications := by
    change x ∈ (w.answer c).2.books.rows at hx
    rwa [h] at hx
  have hquiet (h : ∀ a, c.IsQuiet a) : x ∈ w.store.notifications := by
    refine hsame ?_
    rcases hanswer : w.answer c with ⟨a | _ | _, w'⟩
    · exact (effect_of_answer hanswer).rows_eq (h a)
    · rw [(unanswered hanswer nofun).1]
    · rw [(unanswered hanswer nofun).1]
  cases c with
  | save n =>
      rcases Store.save_cases (s := w.store) (n := n) rfl with ⟨-, hrows, -⟩ | ⟨-, hrows, -⟩
      · exact Or.inl (hsame hrows)
      · rcases Store.mem_of_mem_putInto (hrows ▸ hx) with rfl | hx
        · exact Or.inr (Or.inl rfl)
        · exact Or.inl hx
  | saveWithOutbox n topic =>
      rcases hsave : w.store.saveWithOutbox n topic (w.ids.draw w.serial) w.now with ⟨result, store⟩
      have hstore : (w.answer (.saveWithOutbox n topic)).2.store = store := congrArg Prod.snd hsave
      rw [hstore] at hx
      rcases Store.saveWithOutbox_cases hsave with ⟨-, hrows, -⟩ | ⟨-, hrows, -⟩
      · exact Or.inl (hrows ▸ hx)
      · rcases Store.mem_of_mem_putInto (hrows ▸ hx) with rfl | hx
        · exact Or.inr (Or.inr ⟨topic, rfl⟩)
        · exact Or.inl hx
  | send place n => exact Or.inl (hsame (congrArg Books.rows (w.books_sendAndWait place n)))
  | tally ledger what => exact Or.inl (hsame (congrArg Books.rows (w.books_count ledger what)))
  | _ => exact Or.inl (hquiet fun _ => trivial)

/-- A call leaves a log as it is, but for records that it drops, or it appends to the log what it
publishes there. -/
theorem log_answer (w : World) (c : Call) (topic : String) :
    ((w.answer c).2.bus.log topic).head = (w.bus.log topic).head ∧
        ((w.answer c).2.bus.log topic).entries.Sublist (w.bus.log topic).entries ∨
      ∃ key payload, c = .publish topic key payload ∧
        (w.answer c).2.bus.log topic =
          ⟨(w.bus.log topic).entries ++
              [⟨⟨topic, 0, (w.bus.log topic).head, key, payload⟩, w.now⟩],
            (w.bus.log topic).head + 1⟩ := by
  have hsame {b : Bus} (h : b.logs = w.bus.logs) :
      (b.log topic).head = (w.bus.log topic).head ∧
        (b.log topic).entries.Sublist (w.bus.log topic).entries := by
    have hlog : b.log topic = w.bus.log topic := by rw [Bus.log, h, Bus.log]
    rw [hlog]
    exact ⟨rfl, List.Sublist.refl _⟩
  cases c with
  | publish name key payload =>
      rcases hpublish : w.bus.publish name key payload w.now with ⟨result, bus⟩
      have hbus : (w.answer (.publish name key payload)).2.bus = bus := congrArg Prod.snd hpublish
      rw [hbus]
      rcases Bus.publish_cases hpublish with ⟨-, hlogs, -⟩ | ⟨-, happend⟩
      · exact Or.inl (hsame hlogs)
      · have hlog := congrArg (fun b : Bus => b.log topic) happend
        change bus.log topic = (w.bus.append name key payload w.now).log topic at hlog
        rw [hlog]
        by_cases hname : topic = name
        · subst hname
          exact Or.inr ⟨key, payload, rfl, Bus.log_append_self _ _ _ _ _⟩
        · rw [Bus.log_append_of_ne _ _ _ _ _ hname]
          exact Or.inl ⟨rfl, List.Sublist.refl _⟩
  | prune name cutoff =>
      exact Or.inl ⟨Bus.head_prune _ _ _, Bus.entries_prune_sublist _ _ _⟩
  | send place n =>
      refine Or.inl (hsame ?_)
      exact congrArg (fun b : Books => b.bus.logs) (w.books_sendAndWait place n)
  | tally ledger what =>
      exact Or.inl (hsame (congrArg (fun b : Books => b.bus.logs) (w.books_count ledger what)))
  | _ => exact Or.inl (hsame rfl)

end World

/-! ## What stays true of a world -/

namespace World

/-- The records to be tried again, with the moments at which they were appended. -/
def retries (w : World) : List LogEntry := (w.bus.log Topic.retry.name).entries

/-- Nothing waits longer than a delay: no row, counted from now, and no record to be tried again,
counted from when it was appended. Such records were appended in their order. -/
structure Prompt (w : World) (delay : Nat) : Prop where
  rows : ∀ n ∈ w.store.notifications, n.DueWithin delay w.now
  offset_lt : ∀ e ∈ w.retries, e.record.offset < (w.bus.log Topic.retry.name).head
  appended_le : ∀ e ∈ w.retries, e.appendedAt.nanosSinceEpoch ≤ w.now.nanosSinceEpoch
  carried : ∀ e ∈ w.retries, ∀ m, Envelope.decode e.record.payload = .ok m →
    m.notification.DueWithin delay e.appendedAt
  ordered : w.retries.Pairwise fun e e' => e.record.offset < e'.record.offset ∧
    e.appendedAt.nanosSinceEpoch ≤ e'.appendedAt.nanosSinceEpoch

namespace Prompt

variable {w : World} {delay : Nat} {c : Call}

theorem of_isBlank (h : w.IsBlank) : w.Prompt delay := by
  have hlog : w.bus.log Topic.retry.name = {} := h.log_eq Topic.retry.name
  have hretries : w.retries = [] := by rw [retries, hlog]
  have hnone {e : LogEntry} : e ∉ w.retries := hretries ▸ List.not_mem_nil
  exact {
    rows := fun n hn => absurd (h.rows ▸ hn) List.not_mem_nil
    offset_lt := fun e he => absurd he hnone
    appended_le := fun e he => absurd he hnone
    carried := fun e he => absurd he hnone
    ordered := hretries ▸ List.Pairwise.nil }

theorem answer (h : w.Prompt delay) (hc : c.Prompt delay w.now) :
    (w.answer c).2.Prompt delay := by
  have hnow : (w.answer c).2.now = w.now := congrArg Clock.now (w.clock_answer c)
  have hrows : ∀ n ∈ (w.answer c).2.store.notifications, n.DueWithin delay (w.answer c).2.now := by
    intro n hn
    rw [hnow]
    rcases mem_rows_answer hn with hn | rfl | ⟨topic, rfl⟩
    · exact h.rows n hn
    · exact hc
    · exact hc
  rcases w.log_answer c Topic.retry.name with ⟨hhead, hsublist⟩ | ⟨key, payload, rfl, hlog⟩
  · refine ⟨hrows, fun e he => ?_, fun e he => ?_, fun e he => ?_, h.ordered.sublist hsublist⟩
    · rw [hhead]
      exact h.offset_lt e (hsublist.subset he)
    · rw [hnow]
      exact h.appended_le e (hsublist.subset he)
    · exact h.carried e (hsublist.subset he)
  · have hmem {e : LogEntry} {P : LogEntry → Prop} (hold : ∀ e ∈ w.retries, P e)
        (hnew : P ⟨⟨Topic.retry.name, 0, (w.bus.log Topic.retry.name).head, key, payload⟩, w.now⟩)
        (he : e ∈ (w.answer (.publish Topic.retry.name key payload)).2.retries) : P e := by
      rw [retries, hlog] at he
      rcases List.mem_append.mp he with he | he
      · exact hold e he
      · exact List.mem_singleton.mp he ▸ hnew
    refine ⟨hrows, fun e he => ?_, fun e he => ?_, fun e he => ?_, ?_⟩
    · rw [hlog]
      refine hmem (P := fun e => e.record.offset < _) (fun e he => ?_) (Int.lt_succ _) he
      exact Int.lt_trans (h.offset_lt e he) (Int.lt_succ _)
    · rw [hnow]
      exact hmem (P := fun e => e.appendedAt.nanosSinceEpoch ≤ _) h.appended_le
        (Int.le_refl _) he
    · exact hmem (P := fun e => ∀ m, Envelope.decode e.record.payload = .ok m →
        m.notification.DueWithin delay e.appendedAt) h.carried (hc rfl) he
    · rw [retries, hlog]
      refine List.pairwise_append.mpr ⟨h.ordered, List.pairwise_singleton _ _, ?_⟩
      intro e he e' he'
      rw [List.mem_singleton.mp he']
      exact ⟨h.offset_lt e he, h.appended_le e he⟩

/-- What is found are rows, and the clock shows the time. -/
theorem answered (h : w.Prompt delay) {a : c.Answer} (hanswer : (w.answer c).1 = .done a) :
    Answered.Prompt delay w.now ⟨c, a⟩ := by
  cases c with
  | now => exact (Outcome.done.inj hanswer).symm
  | findById id =>
      obtain rfl := Outcome.done.inj hanswer
      cases hfound : w.store.find? id with
      | none => exact trivial
      | some n => exact h.rows n (Store.find?_some hfound).1
  | findByStatus status limit =>
      obtain rfl := Outcome.done.inj hanswer
      exact fun n hn => h.rows n (Store.mem_findByStatus hn).1
  | _ => exact trivial

/-- An operation keeps it. -/
theorem run (h : w.Prompt delay) {α : Type} {p : Prog α} {Q : α → Prop}
    (hp : p.Heeds (Answered.Prompt delay w.now) (Call.Prompt delay w.now) Q) :
    (p.run w).2.Prompt delay := by
  refine (hp.run (I := fun w' => w'.Prompt delay ∧ w'.clock = w.clock) ⟨h, rfl⟩ ?_).1
  rintro w' c ⟨hprompt, hclock⟩ hc
  have hnow : w'.now = w.now := congrArg Clock.now hclock
  rw [← hnow] at hc ⊢
  exact ⟨⟨hprompt.answer hc, (w'.clock_answer c).trans hclock⟩, fun a => hprompt.answered⟩

/-- It holds at any later moment. -/
theorem setClock (h : w.Prompt delay) {clock : Clock}
    (hle : w.now.nanosSinceEpoch ≤ clock.now.nanosSinceEpoch) :
    Prompt { w with clock } delay :=
  { h with
    rows := fun n hn => (h.rows n hn).mono hle
    appended_le := fun e he => (h.appended_le e he).trans hle }

end Prompt
/-- What stands on the retry topic up to an offset was appended by some moment, and whatever comes
will come behind. -/
structure SettledTo (w : World) (offset : Int) (moment : Instant) : Prop where
  offset_lt : offset < (w.bus.log Topic.retry.name).head
  appended_le : ∀ e ∈ w.retries, e.record.offset ≤ offset →
    e.appendedAt.nanosSinceEpoch ≤ moment.nanosSinceEpoch

variable {w : World} {offset : Int} {moment : Instant} {delay : Nat}

/-- What stands before a record was appended no later. -/
theorem Prompt.settledTo (h : w.Prompt delay) {e : LogEntry} (he : e ∈ w.retries) :
    w.SettledTo e.record.offset e.appendedAt := by
  refine ⟨h.offset_lt e he, fun e' he' hle => ?_⟩
  obtain ⟨i, hi, rfl⟩ := List.mem_iff_getElem.mp he
  obtain ⟨k, hk, rfl⟩ := List.mem_iff_getElem.mp he'
  have hordered := List.pairwise_iff_getElem.mp h.ordered
  rcases Nat.lt_trichotomy i k with hlt | rfl | hlt
  · exact absurd hle (Int.not_le.mpr (hordered i k hi hk hlt).1)
  · exact Int.le_refl _
  · exact (hordered k i hk hi hlt).2

theorem SettledTo.answer (h : w.SettledTo offset moment) (c : Call) :
    (w.answer c).2.SettledTo offset moment := by
  rcases w.log_answer c Topic.retry.name with ⟨hhead, hsublist⟩ | ⟨key, payload, rfl, hlog⟩
  · exact ⟨hhead ▸ h.offset_lt, fun e he => h.appended_le e (hsublist.subset he)⟩
  · refine ⟨?_, fun e he hle => ?_⟩
    · rw [hlog]
      exact Int.lt_trans h.offset_lt (Int.lt_succ _)
    · rw [retries, hlog] at he
      rcases List.mem_append.mp he with he | he
      · exact h.appended_le e he hle
      · rw [List.mem_singleton.mp he] at hle
        exact absurd h.offset_lt (Int.not_lt.mpr hle)

theorem SettledTo.after (h : w.SettledTo offset moment) (commands : List Command) :
    (w.after commands).SettledTo offset moment := by
  induction commands generalizing w with
  | nil => exact h
  | cons command commands ih =>
      refine ih ?_
      cases command with
      | run op =>
          exact op.program.keeps_run (I := fun w => w.SettledTo offset moment) h
            fun h c => h.answer c
      | _ => exact ⟨h.offset_lt, h.appended_le⟩

end World

/-! ## Closed runs -/

/-- The clock is never put back. -/
def Clock.Onward (clock : Clock) : List Command → Prop
  | [] => True
  | .setClock later :: commands => clock.now ≤ later.now ∧ later.Onward commands
  | _ :: commands => clock.Onward commands

theorem Clock.Onward.of_append {clock : Clock} {commands more : List Command}
    (h : clock.Onward (commands ++ more)) : clock.Onward commands := by
  induction commands generalizing clock with
  | nil => exact trivial
  | cons command commands ih =>
      cases command with
      | setClock later => exact ⟨h.1, ih h.2⟩
      | _ => exact ih h

namespace World

variable {w : World} {delay : Nat} {commands before more : List Command}

theorem after_append (w : World) (commands more : List Command) :
    w.after (commands ++ more) = (w.after commands).after more :=
  List.foldl_append

theorem clock_run {α : Type} (p : Prog α) (w : World) : (p.run w).2.clock = w.clock :=
  p.keeps_run (I := fun w' => w'.clock = w.clock) rfl fun h c => (clock_answer _ c).trans h

theorem Prompt.after (h : w.Prompt delay)
    (hwithin : ∀ op, Command.run op ∈ commands → op.RepeatsWithin delay)
    (honward : w.clock.Onward commands) : (w.after commands).Prompt delay := by
  induction commands generalizing w with
  | nil => exact h
  | cons command commands ih =>
      have hrest : ∀ op, Command.run op ∈ commands → op.RepeatsWithin delay :=
        fun op hop => hwithin op (List.mem_cons_of_mem command hop)
      cases command with
      | run op =>
          have hprompt := Operation.prompt_program (hwithin op List.mem_cons_self)
            w.clock.frac_now_lt
          exact ih (h.run hprompt) hrest ((clock_run op.program w).symm ▸ honward)
      | setClock later =>
          have hle := Instant.nanosSinceEpoch_le honward.1 w.clock.frac_now_lt
          exact ih (h.setClock hle) hrest honward.2
      | _ => exact ih { h with } hrest honward

end World

/-- A record that a batch comes to was polled, and meanwhile the clock stands. -/
theorem Consumer.Reaches.polled {c : Consumer} {w : World} {r : Record} {s : Account}
    (h : c.Reaches (.opened w) r s) :
    r ∈ w.bus.poll c.subscription c.batchSize ∧ s.world.now = w.now := by
  obtain @⟨earlier, later, hpoll, hearlier⟩ := h
  refine ⟨hpoll ▸ List.mem_append_right _ List.mem_cons_self, ?_⟩
  have hworld := congrArg (fun ended => ended.2.world) hearlier
  rw [Prog.world_perform] at hworld
  rw [World.now, ← hworld]
  exact congrArg Clock.now (World.clock_run _ w)

/-- Only what is to wait is deferred. -/
theorem Pipeline.isRetryPending_of_defers {p : Pipeline} {r : Record} {s : Account}
    (h : (((p.handler .retry).handle r).run.perform s).1 = .returned (.ok .defer)) :
    ∃ e, Envelope.decode r.payload = .ok e ∧ e.notification.isRetryPending s.world.now = true := by
  obtain ⟨close, w', calls, hperform, hhandling⟩ :=
    p.runsAs_handle (show Topic.retry ≠ .deadLetter from nofun) r s.world s.history
  have hclose : close = .returned (.ok .defer) := (congrArg Prod.fst hperform).symm.trans h
  cases hhandling with
  | unreadable => exact nomatch hclose
  | defers htopic hr hpending =>
      unfold Record.snapshot at hr
      cases hdecode : Envelope.decode r.payload with
      | error error =>
          rw [hdecode] at hr
          exact nomatch hr
      | ok e =>
          rw [hdecode] at hr
          obtain rfl := Option.some.inj hr
          exact ⟨e, rfl, hpending⟩
  | @delivers m close =>
      rcases close with (error | outcome) | _ | _ <;> exact nomatch hclose

/-- In a closed run in which the clock is never put back, what is published to be tried again has
nothing to wait for, at the latest, when the longest delay of all policies has passed. From then on
no batch defers it, nor any record that stands before it. -/
theorem World.after_deferral {w : World} {delay : Nat} {before more : List Command}
    (hblank : w.IsBlank)
    (hwithin : ∀ op, Command.run op ∈ before ++ more → op.RepeatsWithin delay)
    (honward : w.clock.Onward (before ++ more)) :
    ∀ e ∈ ((w.after before).bus.log Topic.retry.name).entries,
      (∀ m, Envelope.decode e.record.payload = .ok m →
        m.notification.DueWithin delay e.appendedAt) ∧
      (e.appendedAt.nanosSinceEpoch + delay ≤
          (w.after (before ++ more)).now.nanosSinceEpoch →
        ∀ (p : Pipeline) (ledger : Ledger) (r : Record) (s : Account),
          (p.consumer ledger .retry).Reaches (.opened (w.after (before ++ more))) r s →
          r.offset ≤ e.record.offset →
            (((p.handler .retry).handle r).run.perform s).1 ≠ .returned (.ok .defer)) := by
  have hbefore : (w.after before).Prompt delay :=
    (Prompt.of_isBlank hblank).after
      (fun op hop => hwithin op (List.mem_append_left more hop)) honward.of_append
  have hend : (w.after (before ++ more)).Prompt delay :=
    (Prompt.of_isBlank hblank).after hwithin honward
  intro e he
  refine ⟨hbefore.carried e he, fun hpassed p ledger r s hreaches hoffset hdefers => ?_⟩
  obtain ⟨hpolled, hnow⟩ := hreaches.polled
  obtain ⟨m, hdecode, hpending⟩ := Pipeline.isRetryPending_of_defers hdefers
  obtain ⟨e', he', rfl⟩ := List.mem_map.mp (List.mem_filter.mp (List.mem_of_mem_take hpolled)).1
  have hsettled : (w.after (before ++ more)).SettledTo e.record.offset e.appendedAt := by
    rw [World.after_append]
    exact (hbefore.settledTo he).after more
  have hdue := (hend.carried e' he' m hdecode).mono (hsettled.appended_le e' he' hoffset)
  rw [hnow, hdue.not_isRetryPending hpassed (Clock.frac_now_lt _)] at hpending
  exact nomatch hpending

/-- A notification has failed and was published to be tried again. -/
private def Sample.putOff : List Command :=
  firstAttempt (pipeline 5) ++ [.run (.publishDue (pipeline 5).publication 100)]

/-- At first its record is deferred. Five minutes later, when the longest delay has passed, a batch
that comes to it does not defer it. -/
theorem World.after_deferral_passed :
    ∃ r s s', ((Sample.pipeline 5).consumer .loops .retry).Reaches
        (.opened ((Sample.world [.done (.error (.network "down"))]).after Sample.putOff)) r s ∧
      (((Sample.pipeline 5).handler .retry).handle r |>.run.perform s).1 =
        .returned (.ok .defer) ∧
      ((Sample.pipeline 5).consumer .loops .retry).Reaches
        (.opened ((Sample.world [.done (.error (.network "down"))]).after
          (Sample.putOff ++ [.setClock ⟨300_000_000⟩]))) r s' ∧
      (((Sample.pipeline 5).handler .retry).handle r |>.run.perform s').1 ≠
        .returned (.ok .defer) := by
  let p := Sample.pipeline 5
  let c := p.consumer .loops .retry
  let w := Sample.world [.done (.error (.network "down"))]
  let later : List Command := [.setClock ⟨300_000_000⟩]
  have hwithin : ∀ op, Command.run op ∈ Sample.putOff ++ later →
      op.RepeatsWithin p.backoff.longestDelay := by
    intro op hop
    simp only [Sample.putOff, Sample.firstAttempt, Sample.arrival, later, List.cons_append,
      List.nil_append, List.mem_cons, Command.run.injEq, reduceCtorEq, List.not_mem_nil,
      or_false] at hop
    rcases hop with rfl | rfl | rfl | rfl
    · exact trivial
    · exact trivial
    · exact Nat.le_refl _
    · exact trivial
  have honward : w.clock.Onward (Sample.putOff ++ later) :=
    show (Clock.mk 0).now ≤ (Clock.mk 300_000_000).now ∧ True by decide
  have hreaches {v : World} {r : Record} (hpoll : v.bus.poll c.subscription c.batchSize = [r]) :
      c.Reaches (.opened v) r ⟨v, [⟨.poll c.subscription c.batchSize, .ok [r]⟩]⟩ :=
    .intro (show _ = [] ++ r :: [] from hpoll) rfl
  have hpolled : ((w.after Sample.putOff).bus.poll c.subscription c.batchSize).map (fun r =>
      ((p.handler .retry).handle r |>.run.perform ⟨w.after Sample.putOff,
        [⟨.poll c.subscription c.batchSize, .ok [r]⟩]⟩).1) = [.returned (.ok .defer)] := by
    decide +kernel
  have hpassed : ∀ e ∈ ((w.after Sample.putOff).bus.log Topic.retry.name).entries,
      e.appendedAt.nanosSinceEpoch + p.backoff.longestDelay ≤
        (w.after (Sample.putOff ++ later)).now.nanosSinceEpoch := by
    decide +kernel
  obtain ⟨r, hpoll, hdefers⟩ := List.map_eq_singleton_iff.mp hpolled
  have hpoll' : (w.after (Sample.putOff ++ later)).bus.poll c.subscription c.batchSize = [r] := by
    have hbus (v : World) : (v.after later).bus = v.bus := rfl
    rw [World.after_append, hbus, hpoll]
  obtain ⟨e, he, hrecord⟩ := List.mem_map.mp (List.mem_filter.mp
    (List.mem_of_mem_take (hpoll ▸ List.mem_singleton_self r))).1
  obtain ⟨-, hdue⟩ := World.after_deferral (Sample.isBlank_world _) hwithin honward e he
  refine ⟨r, _, _, hreaches hpoll, hdefers, hreaches hpoll', ?_⟩
  exact hdue (hpassed e he) p .loops r _ (hreaches hpoll') (hrecord ▸ Int.le_refl _)

end Courier
