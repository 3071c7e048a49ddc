import Courier.Proofs.Alone.Announcements
import Courier.Proofs.Alone.Attempts
import Courier.Proofs.Turns.Operations

/-!
No attempt is made before its time. Whether a retry is due is asked only of the message, and only
on the retry topic. That suffices, because a message that is not out of date says of a failed row
exactly what the row says, and is found on the retry topic only, and no other row waits for a time.
-/

namespace Courier

/-! ## Calls, each with its world -/

namespace Prog

variable {α β : Type}

/-- The calls that a program makes when it runs, each with the world in which it is made. -/
def calls : Prog α → World → List (World × Call)
  | .done _, _ | .crash _, _ => []
  | .ask c next, w =>
    (w, c) :: match w.answer c with
      | (.done a, w') => (next a).calls w'
      | _ => []

theorem calls_bind (p : Prog α) (f : α → Prog β) (w : World) :
    (p.bind f).calls w = p.calls w ++ match p.run w with
      | (.done a, w') => (f a).calls w'
      | _ => [] := by
  induction p generalizing w with
  | done a | crash text => rfl
  | ask c next ih =>
      rw [bind, calls, calls, run]
      rcases w.answer c with ⟨_ | _ | _, w'⟩
      · simp only [List.cons_append, ih]
      · rfl
      · rfl

/-- Where no delivery is at work, no channel is called. -/
theorem not_send_of_leads {p : Prog α} {s : Stand} {Q : α → Stand → Prop} {w w' : World}
    {place : Nat} {n : Notification} (hleads : p.Leads s Q)
    (htask : ∀ origin : Origin, s.task ≠ some origin.task) :
    (w', Call.send place n) ∉ p.calls w := by
  induction p generalizing s w with
  | done a | crash text => exact List.not_mem_nil
  | ask c next ih =>
      intro hmem
      rw [calls, List.mem_cons] at hmem
      rcases hmem with heq | hmem
      · obtain ⟨-, rfl⟩ := Prod.mk.inj heq
        obtain ⟨s', hmove, -⟩ := hleads (.ok ())
        cases hmove with
        | passes hc => exact hc.elim
        | fails hc => exact nomatch hc.choose_spec
        | @delivers origin => exact htask origin rfl
      · split at hmem
        · next a w₁ _ =>
          obtain ⟨s', hmove, hnext⟩ := hleads a
          refine ih a hnext (fun origin heq => ?_) hmem
          rcases hmove.task_eq with hnone | hsame
          · exact nomatch hnone.symm.trans heq
          · exact htask origin (hsame ▸ heq)
        · exact absurd hmem List.not_mem_nil

theorem calls_of_asks {P : Call → Prop} {p : Prog α} (hasks : p.Asks P) {w : World}
    {x : World × Call} (hx : x ∈ p.calls w) : P x.2 := by
  induction p generalizing w with
  | done a | crash text => exact absurd hx List.not_mem_nil
  | ask c next ih =>
      rw [calls, List.mem_cons] at hx
      rcases hx with rfl | hx
      · exact hasks.1
      · split at hx
        · exact ih _ (hasks.2 _) hx
        · exact absurd hx List.not_mem_nil

end Prog

theorem Job.calls_bind {α β : Type} (job : Job β) (f : β → Job α) (w : World) :
    (job >>= f).run.calls w = job.run.calls w ++ match job.run.run w with
      | (.done (.ok b), w') => (f b).run.calls w'
      | _ => [] := by
  refine (Prog.calls_bind job.run _ w).trans (congrArg (job.run.calls w ++ ·) ?_)
  rcases job.run.run w with ⟨(error | b) | _ | _, w'⟩ <;> rfl

/-- What makes no calls of its own does not count. -/
theorem Job.calls_bind_of_quiet {α β : Type} {job : Job β} {f : β → Job α}
    (hf : ∀ b w, (f b).run.calls w = []) (w : World) :
    (job >>= f).run.calls w = job.run.calls w := by
  rw [calls_bind]
  split
  · rw [hf, List.append_nil]
  · exact List.append_nil _

theorem Job.calls_outcome {α : Type} (job : Job α) (w : World) :
    job.outcome.run.calls w = job.run.calls w := by
  refine (Prog.calls_bind job.run _ w).trans ?_
  split
  · exact List.append_nil _
  · exact List.append_nil _

/-! ## Calls to channels -/

section

variable {w w' : World} {place : Nat} {m n : Notification}

theorem Delivery.sends_attempt {d : Delivery}
    (h : (w', .send place n) ∈ (d.attempt m).run.calls w) :
    n = m ∧ w' = w.count d.ledger .sendAttempt := by
  unfold attempt at h
  cases hfind : d.registry.find m.medium with
  | error error =>
      rw [hfind] at h
      exact absurd h List.not_mem_nil
  | ok found =>
      rw [hfind] at h
      change _ ∈ Prog.calls (.ask (.tally d.ledger .sendAttempt) fun _ =>
        .ask (.send found.1 m) _) w at h
      rw [Prog.calls, List.mem_cons] at h
      rcases h with heq | h
      · cases (Prod.mk.inj heq).2
      · change _ ∈ Prog.calls (.ask (.send found.1 m) _) (w.count d.ledger .sendAttempt) at h
        rw [Prog.calls, List.mem_cons] at h
        rcases h with heq | h
        · obtain ⟨rfl, hcall⟩ := Prod.mk.inj heq
          exact ⟨(Call.send.inj hcall).2, rfl⟩
        · exfalso
          split at h
          · next result _ _ =>
            rcases result with error | _
            · change _ ∈ (if error.isDeliveryFailure then d.recordFailure m error
                else throw error : Job DeliveryOutcome).run.calls _ at h
              split at h
              · exact Prog.calls_of_asks (d.asks_recordFailure m error) h
              · exact absurd h List.not_mem_nil
            · exact Prog.calls_of_asks (d.asks_recordSent m) h
          · exact absurd h List.not_mem_nil

theorem Delivery.sends_deliver {d : Delivery}
    (h : (w', .send place n) ∈ (d.deliver m).run.calls w) :
    w' = w.count d.ledger .sendAttempt ∧ w.Offers m n := by
  have hrun : (Job.store (.call (.findById m.id))).run.run w =
      (.done (.ok (w.store.find? m.id)), w) := rfl
  have hcalls : (Job.store (.call (.findById m.id))).run.calls w = [(w, .findById m.id)] := rfl
  unfold deliver at h
  rw [Job.calls_bind, hrun, hcalls, List.singleton_append, List.mem_cons] at h
  rcases h with heq | h
  · exact nomatch (Prod.mk.inj heq).2
  · cases hfind : w.store.find? m.id with
    | none =>
        rw [hfind] at h
        obtain ⟨rfl, hworld⟩ := sends_attempt h
        exact ⟨hworld, Or.inr ⟨hfind, rfl⟩⟩
    | some stored =>
        rw [hfind] at h
        dsimp only at h
        split at h
        · exact absurd h List.not_mem_nil
        · next hcurrent =>
          obtain ⟨rfl, hworld⟩ := sends_attempt h
          exact ⟨hworld, Or.inl ⟨hfind, hcurrent⟩⟩

variable {p : Pipeline} {ledger : Ledger} {topic : Topic} {r : Record}

/-- A record makes a channel be called only if it can be read, and on the retry topic only if it is
due. What is sent is the row, or the message itself if there is none. -/
theorem Pipeline.sends_handle
    (h : (w', .send place n) ∈ ((p.handler topic).handle r).run.calls w) :
    topic ≠ .deadLetter ∧ ∃ m, r.snapshot = some m ∧
      (topic = .retry → m.isRetryPending w.now = false) ∧
      w' = w.count .pipeline .sendAttempt ∧ w.Offers m n := by
  have hdecoded {f : Envelope → Job Disposition}
      (h : (w', .send place n) ∈ (Handler.envelope r >>= f).run.calls w) :
      ∃ e, r.snapshot = some e.notification ∧ (w', .send place n) ∈ (f e).run.calls w := by
    unfold Handler.envelope at h
    cases hdecode : Envelope.decode r.payload with
    | error fault =>
        rw [hdecode] at h
        exact absurd h List.not_mem_nil
    | ok e =>
        rw [hdecode] at h
        refine ⟨e, ?_, h⟩
        rw [Record.snapshot, hdecode]
        rfl
  cases topic with
  | send =>
      obtain ⟨e, hsnapshot, h⟩ := hdecoded h
      rw [Job.calls_bind_of_quiet fun _ _ => rfl] at h
      obtain ⟨hworld, hrow⟩ := Delivery.sends_deliver h
      exact ⟨by decide, e.notification, hsnapshot, by simp, hworld, hrow⟩
  | retry =>
      obtain ⟨e, hsnapshot, h⟩ := hdecoded h
      rw [Job.calls_bind_of_quiet fun _ _ => rfl] at h
      change _ ∈ (w, Call.now) :: Prog.calls (if e.notification.isRetryPending w.now then pure false
        else p.delivery.deliver e.notification >>= fun _ => pure true : Job Bool).run w at h
      rw [List.mem_cons] at h
      rcases h with heq | h
      · cases (Prod.mk.inj heq).2
      · split at h
        · exact absurd h List.not_mem_nil
        · next hdue =>
          rw [Job.calls_bind_of_quiet fun _ _ => rfl] at h
          obtain ⟨hworld, hrow⟩ := Delivery.sends_deliver h
          have hpast := Bool.eq_false_iff.mpr hdue
          exact ⟨by decide, e.notification, hsnapshot, fun _ => hpast, hworld, hrow⟩
  | deadLetter =>
      change _ ∈ [(w, Call.note _)] at h
      cases (Prod.mk.inj (List.mem_singleton.mp h)).2

/-- A report calls no channel. -/
theorem Pipeline.sends_settle
    (h : (w', .send place n) ∈ ((p.consumer ledger topic).settle r).run.calls w) :
    (w', .send place n) ∈ ((p.handler topic).handle r).run.calls w := by
  have hreport : ((p.consumer ledger topic).report r).run.Asks fun c => ¬ c.IsSend := by
    refine Job.asks_bind (Job.asks_call id) fun now => ?_
    refine Job.asks_bind (Job.asks_call id) fun id => ?_
    exact Job.asks_bind (Job.asks_attempt ⟨fun h => h, fun _ => trivial⟩)
      fun _ => Job.asks_call fun h => h
  unfold Consumer.settle at h
  rw [Job.calls_bind, List.mem_append] at h
  rcases h with h | h
  · exact (Job.calls_outcome _ w ▸ h)
  · split at h
    · next result _ _ =>
      -- Whatever handling came to, what follows it asks no channel.
      refine absurd trivial (Prog.calls_of_asks (P := fun c => ¬ c.IsSend) ?_ h)
      rcases result with error | (_ | _)
      · cases error with
        | deserialization message => exact Job.asks_bind hreport fun _ => trivial
        | _ => dsimp only; split <;> exact trivial
      · exact trivial
      · exact trivial
    · exact absurd h List.not_mem_nil

end
/-! ## Rows that wait for a time -/

/-- Only a row that failed waits for a time. -/
def Books.Timely (b : Books) : Prop := ∀ n ∈ b.rows, n.status ≠ .failed → n.nextRetryAt = none

section

variable {terms : Terms} {s s' : Account}

theorem Turn.timely (h : Turn terms s s') (hs : s.world.books.Regular)
    (htimely : s.world.books.Timely) : s'.world.books.Timely := by
  intro n hn hopen
  cases h.rewrites with
  | same hrows => exact htimely n (hrows ▸ hn) hopen
  | @adds m hrows _ _ hclean =>
      rw [hrows, List.mem_append, List.mem_singleton] at hn
      rcases hn with hn | rfl
      · exact htimely n hn hopen
      · simp only [Notification.isClean, Bool.and_eq_true, Option.isNone_iff_eq_none] at hclean
        exact hclean.2
  | replaces _ _ hbecomes hrows =>
      rw [hrows, Store.mem_putInto hs.rows_nodup] at hn
      rcases hn with rfl | ⟨hn, -⟩
      · cases hbecomes with
        | sent => rfl
        | failed _ hruling => cases hruling with
          | retry => exact absurd rfl hopen
          | giveUp => rfl
      · exact htimely n hn hopen

theorem Turns.timely (h : Turns terms s s') (hs : s.world.books.Regular)
    (htimely : s.world.books.Timely) : s'.world.books.Timely := by
  induction h with
  | refl => exact htimely
  | tail hturns hturn ih => exact hturn.timely (Turns.regular hturns hs) ih

end

/-- While a program other than intake runs, only rows that failed wait for a time. -/
def Timely : Alone := fun b _ s => s.task ≠ some .intake ∧ b.Timely

theorem Timely.kept : Timely.Kept := by
  intro b b' history s s' c a hb _ ⟨htask, htimely⟩ hmove _ _ heffect _
  refine ⟨fun hintake => ?_, fun n hn hopen => ?_⟩
  · rcases hmove.task_eq with hnone | hsame
    · exact nomatch hnone.symm.trans hintake
    · exact htask (hsame ▸ hintake)
  · rcases hmove.rows heffect htask with hrows | ⟨m, y, -, hattempted, hrows⟩
    · exact htimely n (hrows ▸ hn) hopen
    · rw [hrows, Store.mem_putInto hb.books.rows_nodup] at hn
      rcases hn with rfl | ⟨hn, -⟩
      · cases hattempted with
        | failed => exact absurd rfl hopen
        | _ => rfl
      · exact htimely n hn hopen

theorem Alone.Kept.and {P P' : Alone} (h : P.Kept) (h' : P'.Kept) :
    Alone.Kept fun b history s => P b history s ∧ P' b history s :=
  fun _ _ _ _ _ _ _ hb ho hP hmove hmakes hremembers heffect hserial =>
    ⟨h hb ho hP.1 hmove hmakes hremembers heffect hserial,
      h' hb ho hP.2 hmove hmakes hremembers heffect hserial⟩

/-! ## Batches -/

/-- The row of a notification may be tried now. -/
def World.IsDue (w : World) (n : Notification) : Prop :=
  ∃ x, w.store.find? n.id = some x ∧ ∀ next, x.nextRetryAt = some next → next ≤ w.now

/-- What a batch relies on to be in time. -/
def Punctual : Alone := fun b history s => Announced b history s ∧ Timely b history s

namespace Pipeline

variable {p : Pipeline} {ledger : Ledger} {topic : Topic} {w w' : World} {place : Nat}
  {n : Notification}

/-- The record in hand makes a channel be called for a row that is due only. -/
theorem due_of_handle {history : List Answered} {r : Record} {rest : List Record}
    (hat : Account.At Punctual ⟨w, history⟩ (.facing topic (r :: rest)))
    (h : (w', .send place n) ∈ ((p.handler topic).handle r).run.calls w) : w'.IsDue n := by
  obtain ⟨htopic, m, hm, hdue, rfl, hrow⟩ := sends_handle h
  have hfacing : Stand.facing topic (r :: rest) = .handling (.record topic r rest) m := by
    rcases Stand.facing_cons topic r rest with ⟨hdead, -⟩ | ⟨m', hm', heq⟩ | ⟨hnone, -⟩
    · exact absurd hdead htopic
    · rw [heq, Option.some.inj (hm.symm.trans hm')]
    · exact nomatch hm.symm.trans hnone
  have hsound := hat.consistent.stands 0
  have hheld := hat.orderly.stands 0
  rw [Stand.only_zero, hfacing] at hsound hheld
  obtain ⟨⟨hannounced, -, htimely⟩, hrows⟩ := And.intro hat.holds hat.consistent.books.rows_nodup
  rcases hrow with ⟨hfind, hcurrent⟩ | ⟨hfind, rfl⟩
  · obtain ⟨hn, hid⟩ := Store.find?_some hfind
    obtain ⟨-, hcount⟩ := not_or.mp hcurrent
    refine ⟨n, hid ▸ hfind, fun next hnext => ?_⟩
    by_cases hfailed : n.status = .failed
    · obtain ⟨m', hm', -, hcurrent⟩ :=
        hannounced.records topic htopic r (hheld r List.mem_cons_self).1
      obtain rfl := Option.some.inj (hm.symm.trans hm')
      obtain ⟨hretry, rfl⟩ := hcurrent n hn hid hfailed (UInt32.not_lt.mp hcount)
      have hpast := hdue hretry
      have htold : n.told.nextRetryAt = some next.told := congrArg (Option.map Instant.told) hnext
      rw [Notification.isRetryPending, htold, decide_eq_false_iff_not] at hpast
      exact Int.le_trans next.le_told (Int.not_lt.mp hpast)
    · exact nomatch (htimely n hn hfailed).symm.trans hnext
  · obtain ⟨x, hx, hid⟩ := Stand.known_of_carries hsound.1 ⟨n, hm, rfl⟩
    exact absurd hid (Store.find?_none hfind x hx)

/-- Once a record is committed, the batch faces those behind it. -/
theorem at_commit {history : List Answered} {r : Record} {rest : List Record} {P : Alone}
    (hkept : P.Kept) (hat : Account.At P ⟨w, history⟩ (.settled topic r rest))
    (hserial : w.serial ≤ Books.serialLimit) :
    Account.At P ⟨{ w with bus := w.bus.commit topic.subscription r.offset },
      ⟨.commit topic.subscription r.offset, .ok ()⟩ :: history⟩ (.facing topic rest) := by
  refine hat.move hkept (fun a => ?_) .commits (fun _ htask => ?_) rfl hserial
  · cases a with
    | ok _ => exact ⟨_, .commits⟩
    | error error => exact ⟨_, .fails ⟨error, rfl⟩ nofun⟩
  · obtain rfl := Option.some.inj htask
    exact trivial

/-- All that is published for a record in hand are reports. -/
theorem makes_facing (p : Pipeline) (ledger : Ledger) (r : Record) (rest : List Record)
    {task : Task} (htask : (Stand.facing topic (r :: rest)).task = some task) :
    ((p.consumer ledger topic).settle r).run.Asks task.Makes := by
  rcases Stand.task_facing topic (r :: rest) with hnone | hsome
  · exact nomatch hnone.symm.trans htask
  · obtain rfl := Option.some.inj (hsome.symm.trans htask)
    exact p.asks_settle ledger topic r

theorem due_of_settleAll {history : List Answered} {rs : List Record} {committed : Nat}
    (hat : Account.At Punctual ⟨w, history⟩ (.facing topic rs))
    (hserial : (((p.consumer ledger topic).settleAll rs committed).run.run w).2.serial ≤
      Books.serialLimit)
    (h : (w', .send place n) ∈ ((p.consumer ledger topic).settleAll rs committed).run.calls w) :
    w'.IsDue n := by
  induction rs generalizing w history committed with
  | nil => exact absurd h List.not_mem_nil
  | cons r rest ih =>
      have hkept : Alone.Kept Punctual := Announced.kept.and Timely.kept
      unfold Consumer.settleAll at h hserial
      rw [Job.calls_bind, List.mem_append] at h
      rw [Prog.run_bind_job] at hserial
      rcases h with h | h
      · exact due_of_handle hat (sends_settle h)
      rcases hsettle : ((p.consumer ledger topic).settle r).run.run w with
        ⟨(error | _ | _) | _ | _, w₁⟩ <;> rw [hsettle] at h hserial
      · exact absurd h List.not_mem_nil
      · exact absurd h List.not_mem_nil
      · -- The record is committed, and the batch goes on.
        let w₂ : World := { w₁ with bus := w₁.bus.commit topic.subscription r.offset }
        change _ ∈ (w₁, Call.commit topic.subscription r.offset) ::
          ((p.consumer ledger topic).settleAll rest (committed + 1)).run.calls w₂ at h
        change (((p.consumer ledger topic).settleAll rest (committed + 1)).run.run w₂).2.serial ≤ _
          at hserial
        have hserial₁ : w₁.serial ≤ Books.serialLimit :=
          (Prog.serial_le_run _ w₂).trans hserial
        obtain ⟨history₁, hperform⟩ := Prog.perform_of_run hsettle history
        obtain ⟨s₁, hsettled, hat₁⟩ := Prog.at_of_perform hkept (p.leads_settle ledger topic r rest)
          (fun _ => p.makes_facing ledger r rest) hat hperform hserial₁
        obtain rfl : s₁ = .settled topic r rest := hsettled
        rw [List.mem_cons] at h
        rcases h with heq | h
        · exact nomatch (Prod.mk.inj heq).2
        · exact ih (at_commit hkept hat₁ hserial₁) hserial h
      · exact absurd h List.not_mem_nil
      · exact absurd h List.not_mem_nil

theorem due_of_batch {t : Account} (hat : t.At Punctual (.polling topic))
    (hserial : (t.world.obey (.run (.batch p ledger topic))).serial ≤ Books.serialLimit)
    (h : (w', .send place n) ∈ (Operation.batch p ledger topic).program.calls t.world) :
    w'.IsDue n := by
  let c := p.consumer ledger topic
  let rs := t.world.bus.poll c.subscription c.batchSize
  have hpolled : Account.At Punctual
      ⟨t.world, ⟨.poll c.subscription c.batchSize, .ok rs⟩ :: t.history⟩ (.facing topic rs) := by
    refine hat.move (Announced.kept.and Timely.kept) (fun a => ?_) .polls (fun _ htask => ?_) rfl
      ((t.world.serial_le_obey _).trans hserial)
    · cases a with
      | ok _ => exact ⟨_, .polls⟩
      | error error => exact ⟨_, .fails ⟨error, rfl⟩ nofun⟩
    · obtain rfl := Option.some.inj htask
      exact trivial
  change _ ∈ (c.batch.run.bind fun _ => .done ()).calls t.world at h
  rw [Prog.calls_bind, List.mem_append] at h
  have hdone : (w', Call.send place n) ∈ c.batch.run.calls t.world := by
    refine h.resolve_right fun hnone => ?_
    split at hnone <;> exact absurd hnone List.not_mem_nil
  change _ ∈ (t.world, Call.poll c.subscription c.batchSize) ::
    (c.settleAll rs 0).run.calls t.world at hdone
  rw [List.mem_cons] at hdone
  rcases hdone with heq | hdone
  · exact nomatch (Prod.mk.inj heq).2
  · refine due_of_settleAll hpolled ?_ hdone
    have hrun : t.world.obey (.run (.batch p ledger topic)) =
        ((c.settleAll rs 0).run.run t.world).2 := c.batch.run.world_run_discard t.world
    exact hrun ▸ hserial

end Pipeline

/-! ## Closed runs -/

/-- In a closed run, whenever a channel is called for a notification, the notification is stored,
and its row has no time of a next attempt or one that is not in the future. -/
theorem World.sends_due {w w' : World} {commands : List Command} {op : Operation} {place : Nat}
    {n : Notification} (hblank : w.IsBlank)
    (hruns : ∀ op, Command.run op ∈ commands → op.task ≠ .delivery) (hop : op.task ≠ .delivery)
    (hserial : ((w.after commands).obey (.run op)).serial ≤ Books.serialLimit)
    (hsend : (w', .send place n) ∈ op.program.calls (w.after commands)) :
    ∃ x, w'.store.find? n.id = some x ∧ ∀ next, x.nextRetryAt = some next → next ≤ w'.now := by
  by_cases hbatch : ∃ p ledger topic, op = .batch p ledger topic
  · obtain ⟨p, ledger, topic, rfl⟩ := hbatch
    let t := (Account.opened w).after commands
    have hworld : t.world = w.after commands := Account.world_opened_after w commands
    rw [← hworld] at hserial hsend
    have hbefore : t.world.serial ≤ Books.serialLimit := (t.world.serial_le_obey _).trans hserial
    have hat : t.At Announced .over :=
      Account.at_after Announced.lasts hruns (hblank.at_over hblank.announced) hbefore
    have htimely : t.world.books.Timely := by
      refine (Account.turns_any hruns hblank.regular hbefore).timely hblank.regular ?_
      have hrows : w.books.rows = [] := hblank.rows
      simp [Books.Timely, Account.opened, hrows]
    have hover : t.At Punctual .over :=
      ⟨hat.outbox, hat.consistent, hat.orderly, hat.holds, nofun, htimely⟩
    have hstarted : t.At Punctual (.polling topic) :=
      hover.start hop ⟨Announced.lasts.starts hop hat.holds, nofun, htimely⟩ hbefore
    exact Pipeline.due_of_batch hstarted hserial hsend
  · refine absurd hsend (Prog.not_send_of_leads op.leads_program fun origin htask => ?_)
    rw [op.task_start] at htask
    cases op with
    | batch p ledger topic => exact hbatch ⟨p, ledger, topic, rfl⟩
    | deliver d n => exact hop rfl
    | _ => cases origin <;> exact nomatch htask

private def Call.resends : Call → Bool
  | .send _ n => n.status = .failed
  | _ => false

/-- A notification failed once. Ten seconds later the channel is called for it again, when it is
due. -/
theorem World.sends_due_retry :
    ∃ w' place n, (w', Call.send place n) ∈
        (Operation.batch (Sample.pipeline 5) .loops .retry).program.calls
          ((Sample.world [.done (.error (.network "down"))]).after
            (Sample.firstAttempt (Sample.pipeline 5) ++ [.setClock ⟨10_000_000⟩,
              .run (.publishDue (Sample.pipeline 5).publication 100)])) ∧
      n.status = .failed ∧ ∃ x, w'.store.find? n.id = some x ∧
        ∀ next, x.nextRetryAt = some next → next ≤ w'.now := by
  let p := Sample.pipeline 5
  let w := Sample.world [.done (.error (.network "down"))]
  let commands := Sample.firstAttempt p ++
    [.setClock ⟨10_000_000⟩, .run (.publishDue p.publication 100)]
  have hruns : ∀ op, Command.run op ∈ commands → op.task ≠ .delivery := by
    intro op hop
    simp [commands, Sample.firstAttempt, Sample.arrival] at hop
    rcases hop with rfl | rfl | rfl | rfl <;> decide
  have hresent : ((Operation.batch p .loops .retry).program.calls (w.after commands)).any
      (·.2.resends) = true := by
    decide +kernel
  obtain ⟨⟨w', c⟩, hmem, hc⟩ := List.any_eq_true.mp hresent
  cases c with
  | send place n =>
      refine ⟨w', place, n, hmem, of_decide_eq_true hc, ?_⟩
      have hop : (Operation.batch p .loops .retry).task ≠ .delivery := by decide
      exact sends_due (Sample.isBlank_world _) hruns hop (by decide +kernel) hmem
  | _ => cases hc

end Courier
