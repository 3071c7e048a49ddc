import Courier.Proofs.Turns.Operations

/-!
Records that are handled twice. A record that was handled to the end has been left behind by its
row, which is sent or has failed more often than the record knows. No turn ever brings the row
back, so whoever handles the record again looks the row up and lets the record pass.
-/

namespace Courier

/-! ## What a row has gone beyond -/

section

variable {terms : Terms} {s s' : Account} {n m k : Notification}

theorem Notification.Outdates.advances (h : m.Outdates n) (hadvances : m.Advances k) :
    k.Outdates n :=
  h.imp hadvances.sent fun hlt => UInt32.lt_of_lt_of_le hlt hadvances.retryCount_le

/-- A notification that its row has gone beyond stays behind, unless a count is full. -/
theorem Books.Passed.turns (h : s.world.books.Passed n) (hs : s.world.books.Regular)
    (hturns : Turns terms s s') (hroom : ∀ k ∈ s'.world.books.rows, k.retryCount ≠ 0xffffffff) :
    ∃ k ∈ s'.world.books.rows, k.id = n.id ∧ k.Outdates n := by
  obtain ⟨m, hm, hid, hpassed⟩ := h
  obtain ⟨k, hk, hadvances⟩ := hturns.advances hs hm
  have houtdates : m.Outdates n :=
    hpassed.resolve_right fun hfull => hroom k hk (hadvances.full hfull)
  exact ⟨k, hk, hadvances.id.trans hid, houtdates.advances hadvances⟩

end

/-! ## Handling without effect -/

/-- Calls that only read. -/
def Call.Looks : Call → Prop
  | .now | .findById _ => True
  | _ => False

namespace Job

variable {α β : Type} {s : Account}

/-- A job that runs without effect: it succeeds, it only reads, and the world stays as it is. -/
def Rests (job : Job α) (s : Account) : Prop :=
  ∃ a calls, job.run.perform s = (.returned (.ok a), ⟨s.world, calls ++ s.history⟩) ∧
    ∀ x ∈ calls, x.call.Looks

theorem rests_pure (a : α) : Rests (pure a) s :=
  ⟨a, [], rfl, fun _ hx => absurd hx List.not_mem_nil⟩

theorem rests_bind {job : Job β} {f : β → Job α} (hjob : job.Rests s)
    (hf : ∀ b history, (f b).Rests ⟨s.world, history⟩) : (job >>= f).Rests s := by
  obtain ⟨b, calls, hperform, hlooks⟩ := hjob
  obtain ⟨a, calls', hperform', hlooks'⟩ := hf b (calls ++ s.history)
  refine ⟨a, calls' ++ calls, ?_, ?_⟩
  · change (Prog.bind job.run _).perform s = _
    rw [Prog.perform_bind, hperform]
    change (f b).run.perform _ = _
    rw [hperform', List.append_assoc]
  · intro x hx
    rcases List.mem_append.mp hx with hx | hx
    · exact hlooks' x hx
    · exact hlooks x hx

theorem rests_now : (Job.call .now).Rests s :=
  ⟨s.world.now, [⟨.now, s.world.now⟩], rfl, by simp [Call.Looks]⟩

end Job

open Job

section

variable {s : Account} {n k : Notification}

/-- The notification of a message that its row has gone beyond is skipped. -/
theorem Delivery.rests_deliver (d : Delivery) (hfind : s.world.store.find? n.id = some k)
    (houtdates : k.Outdates n) : (d.deliver n).Rests s := by
  refine ⟨.skipped, [⟨.findById n.id, .ok (some k)⟩], ?_, by simp [Call.Looks]⟩
  have hanswer : s.world.answer (.findById n.id) = (.done (.ok (some k)), s.world) := by
    rw [← hfind]
    rfl
  change (Prog.ask (.findById n.id) _).perform s = _
  rw [Prog.perform, hanswer]
  change (if k.status = .sent ∨ n.retryCount < k.retryCount then pure .skipped
    else d.attempt k : Job DeliveryOutcome).run.perform _ = _
  rw [if_pos (show k.status = .sent ∨ n.retryCount < k.retryCount from houtdates)]
  rfl

theorem Delivery.rests_retry (d : Delivery) (hfind : s.world.store.find? n.id = some k)
    (houtdates : k.Outdates n) : (d.retry n).Rests s := by
  refine rests_bind rests_now fun now history => ?_
  split
  · exact rests_pure false
  · exact rests_bind (d.rests_deliver hfind houtdates) fun _ _ => rests_pure true

theorem Pipeline.rests_handle (p : Pipeline) {topic : Topic} (htopic : topic ≠ .deadLetter)
    {r : Record} {e : Envelope} (hdecode : Envelope.decode r.payload = .ok e)
    (hfind : s.world.store.find? e.notification.id = some k)
    (houtdates : k.Outdates e.notification) : ((p.handler topic).handle r).Rests s := by
  have henvelope : Handler.envelope r = pure e := by
    rw [Handler.envelope, hdecode]
    rfl
  cases topic with
  | send =>
      change (Handler.envelope r >>= _).Rests s
      rw [henvelope]
      change (p.delivery.deliver e.notification >>= fun _ => pure .commit : Job Disposition).Rests s
      exact rests_bind (p.delivery.rests_deliver hfind houtdates) fun _ _ => rests_pure _
  | retry =>
      change (Handler.envelope r >>= _).Rests s
      rw [henvelope]
      change (p.delivery.retry e.notification >>= fun handled =>
        pure (if handled then .commit else .defer) : Job Disposition).Rests s
      exact rests_bind (p.delivery.rests_retry hfind houtdates) fun _ _ => rests_pure _
  | deadLetter => exact absurd rfl htopic

end

/-! ## Batches, record by record -/

namespace Consumer

variable {c : Consumer} {r : Record} {rest : List Record} {s s' : Account} {committed : Nat}

/-- A record has been committed for a consumer. -/
def committing (c : Consumer) (r : Record) (s : Account) : Account :=
  ⟨{ s.world with bus := s.world.bus.commit c.subscription r.offset },
    ⟨.commit c.subscription r.offset, .ok ()⟩ :: s.history⟩

theorem perform_settleAll_cons (c : Consumer) (r : Record) (rest : List Record)
    (committed : Nat) (s : Account) :
    (c.settleAll (r :: rest) committed).run.perform s =
      match (c.settle r).run.perform s with
      | (.returned (.ok true), s') =>
        (c.settleAll rest (committed + 1)).run.perform (c.committing r s')
      | (.returned (.ok false), s') => (.returned (.ok committed), s')
      | (.returned (.error error), s') => (.returned (.error error), s')
      | (.overflowed, s') => (.overflowed, s')
      | (.unanswered, s') => (.unanswered, s') := by
  change (Prog.bind (c.settle r).run _).perform s = _
  rw [Prog.perform_bind]
  rcases (c.settle r).run.perform s with ⟨(error | _ | _) | _ | _, s'⟩ <;> rfl

/-- Where the records before it were all committed, a batch goes on with the next one. -/
theorem perform_settleAll_append {rs : List Record}
    (h : (c.settleAll rs committed).run.perform s =
      (.returned (.ok (committed + rs.length)), s')) :
    (c.settleAll (rs ++ rest) committed).run.perform s =
      (c.settleAll rest (committed + rs.length)).run.perform s' := by
  induction rs generalizing s committed with
  | nil =>
      obtain ⟨-, rfl⟩ := Prod.mk.inj h
      rfl
  | cons r rs ih =>
      have hlength : committed + (r :: rs).length = committed + 1 + rs.length := by
        rw [List.length_cons]
        omega
      rw [hlength] at h ⊢
      rw [perform_settleAll_cons] at h
      rw [List.cons_append, perform_settleAll_cons]
      rcases hsettle : (c.settle r).run.perform s with ⟨(error | _ | _) | _ | _, s''⟩ <;>
        rw [hsettle] at h <;> dsimp only at h ⊢
      · exact nomatch (Prod.mk.inj h).1
      · have hcount := Except.ok.inj (Close.returned.inj (Prod.mk.inj h).1)
        omega
      · exact ih h
      · exact nomatch (Prod.mk.inj h).1
      · exact nomatch (Prod.mk.inj h).1

/-- A batch in which the records before one were all committed goes on with that one. -/
theorem perform_batch {earlier later : List Record}
    (hpoll : s.world.bus.poll c.subscription c.batchSize = earlier ++ r :: later)
    (hearlier : (c.settleAll earlier 0).run.perform ⟨s.world,
      ⟨.poll c.subscription c.batchSize, .ok (earlier ++ r :: later)⟩ :: s.history⟩ =
      (.returned (.ok earlier.length), s')) :
    c.batch.run.perform s = (c.settleAll (r :: later) earlier.length).run.perform s' := by
  have hanswer : s.world.answer (.poll c.subscription c.batchSize) =
      (.done (.ok (earlier ++ r :: later)), s.world) := by
    rw [← hpoll]
    rfl
  change (Prog.ask (.poll c.subscription c.batchSize) _).perform s = _
  rw [Prog.perform, hanswer]
  change (c.settleAll (earlier ++ r :: later) 0).run.perform _ = _
  rw [perform_settleAll_append (by rw [hearlier, Nat.zero_add]), Nat.zero_add]

/-- A batch that starts in this world comes to a record, with all records before it handled and
committed, and handles it to the end. -/
inductive Completes (c : Consumer) (w : World) (r : Record) : Prop
  | intro {earlier later w' w''}
      (hpoll : w.bus.poll c.subscription c.batchSize = earlier ++ r :: later)
      (hearlier : (c.settleAll earlier 0).run.run w = (.done (.ok earlier.length), w'))
      (hhandle : (c.handler.handle r).run.run w' = (.done (.ok .commit), w''))

end Consumer

/-! ## A batch that completes a record -/

section

variable {p : Pipeline} {ledger : Ledger} {topic : Topic} {r : Record} {s s' s'' : Account}

private theorem Consumer.perform_settle {c : Consumer}
    (h : (c.handler.handle r).run.perform s = (.returned (.ok .commit), s')) :
    (c.settle r).run.perform s = (.returned (.ok true), s') := by
  have houtcome : (c.handler.handle r).outcome.run.perform s =
      (.returned (.ok (.ok .commit)), s') := by
    change (Prog.bind _ _).perform s = _
    rw [Prog.perform_bind, h]
    rfl
  change (Prog.bind (c.handler.handle r).outcome.run _).perform s = _
  rw [Prog.perform_bind, houtcome]
  rfl

/-- Where a batch ends that completes a record, as seen from there. -/
private theorem Operation.perform_batch {earlier later : List Record}
    (hpoll : s.world.bus.poll (p.consumer ledger topic).subscription
      (p.consumer ledger topic).batchSize = earlier ++ r :: later)
    (hearlier : ((p.consumer ledger topic).settleAll earlier 0).run.perform ⟨s.world,
      ⟨.poll (p.consumer ledger topic).subscription (p.consumer ledger topic).batchSize,
        .ok (earlier ++ r :: later)⟩ :: s.history⟩ = (.returned (.ok earlier.length), s'))
    (hhandle : ((p.handler topic).handle r).run.perform s' = (.returned (.ok .commit), s'')) :
    ((Operation.batch p ledger topic).program.perform s).2 =
      (((p.consumer ledger topic).settleAll later (earlier.length + 1)).run.perform
        ((p.consumer ledger topic).committing r s'')).2 := by
  let c := p.consumer ledger topic
  have hbatch : c.batch.run.perform s =
      (c.settleAll later (earlier.length + 1)).run.perform (c.committing r s'') := by
    rw [Consumer.perform_batch hpoll hearlier, Consumer.perform_settleAll_cons,
      Consumer.perform_settle hhandle]
  change ((Prog.bind c.batch.run _).perform s).2 = _
  rw [Prog.perform_bind, hbatch]
  rcases (c.settleAll later (earlier.length + 1)).run.perform (c.committing r s'') with
    ⟨_ | _ | _, _⟩ <;> rfl

/-- A batch that completes a record leaves its notification behind, and ends from there. -/
private theorem Consumer.Completes.passed {e : Envelope}
    (h : (p.consumer ledger topic).Completes s.world r) (htopic : topic ≠ .deadLetter)
    (hdecode : Envelope.decode r.payload = .ok e) (hs : s.world.books.Regular)
    (hserial : (s.obey (.run (.batch p ledger topic))).world.serial ≤ Books.serialLimit) :
    ∃ s₂ : Account, s₂.world.books.Regular ∧ s₂.world.books.Passed e.notification ∧
      Turns Terms.any s₂ (s.obey (.run (.batch p ledger topic))) := by
  obtain @⟨earlier, later, w₁, w₂, hpoll, hearlier, hhandle⟩ := h
  let c := p.consumer ledger topic
  have hsnapshot : r.snapshot = some e.notification := by
    rw [Record.snapshot, hdecode]
    rfl
  have hbacks : ∀ x ∈ earlier ++ r :: later, s.world.books.BacksRecord topic x := fun x hx =>
    p.backs_polled ledger hs (hpoll ▸ hx)
  let s₀ : Account := ⟨s.world, ⟨.poll c.subscription c.batchSize, .ok (earlier ++ r :: later)⟩ ::
    s.history⟩
  obtain ⟨history₁, hearlier⟩ := Prog.perform_of_run hearlier s₀.history
  obtain ⟨history₂, hhandle⟩ := Prog.perform_of_run hhandle history₁
  let s₃ := c.committing r ⟨w₂, history₂⟩
  have hend : s.obey (.run (.batch p ledger topic)) =
      ((c.settleAll later (earlier.length + 1)).run.perform s₃).2 :=
    Operation.perform_batch hpoll hearlier hhandle
  rw [hend] at hserial ⊢
  -- Identifiers are drawn in order, so the limit holds all along.
  have hserial₂ : w₂.serial ≤ Books.serialLimit :=
    ((c.settleAll later (earlier.length + 1)).run.serial_le_perform s₃).trans hserial
  have hserial₁ : w₁.serial ≤ Books.serialLimit := by
    have hle := (c.handler.handle r).run.serial_le_perform ⟨w₁, history₁⟩
    rw [hhandle] at hle
    exact hle.trans hserial₂
  have hfaults (w : World) : Terms.any.Holds w := Or.inl trivial
  have hmakes (rs : List Record) (committed : Nat) (s' : Account)
      (hrs : ∀ x ∈ rs, s'.world.books.BacksRecord topic x) :
      (c.settleAll rs committed).Makes Terms.any True s' fun _ _ => True :=
    p.makes_settleAll ledger trivial id rs committed hrs
  obtain ⟨hturns₁, -⟩ := (hmakes earlier 0 s₀ fun x hx => hbacks x (by simp [hx])).of_returned hs
    (hfaults _) hearlier hserial₁
  have hs₁ := hturns₁.regular hs
  have hhandling : (c.handler.handle r).Makes Terms.any True ⟨w₁, history₁⟩ _ :=
    p.makes_handle trivial id ((hbacks r (by simp)).turns (s := s₀) hs hturns₁)
  obtain ⟨hturns₂, hpassed⟩ := hhandling.of_returned hs₁ (hfaults _) hhandle hserial₂
  have hs₂ := hturns₂.regular hs₁
  have hturn : Turn Terms.any ⟨w₂, history₂⟩ s₃ :=
    .quiet (c := .commit c.subscription r.offset) (a := .ok ()) rfl trivial trivial
  have hturns₃ : Turns Terms.any s₀ s₃ := (hturns₁.trans hturns₂).tail hturn
  have hrest := hmakes later (earlier.length + 1) s₃ fun x hx =>
    (hbacks x (by simp [hx])).turns (s := s₀) hs hturns₃
  refine ⟨⟨w₂, history₂⟩, hs₂, ?_, .head hturn ?_⟩
  · exact hpassed .commit rfl rfl htopic e.notification hsnapshot
  · exact hrest.turns (hturn.regular hs₂) (hfaults _) hserial fun _ => trivial

end

/-- In a closed run, a record to be delivered that some batch handled to the end can be handled
again at any time. As long as no count is full this succeeds, only looks, and changes nothing,
whichever pipeline does it. -/
theorem World.redelivery_rests {w : World} {before after : List Command} {p : Pipeline}
    {ledger : Ledger} {topic : Topic} {r : Record} {e : Envelope} (hblank : w.IsBlank)
    (hruns : ∀ op, Command.run op ∈ before ++ .run (.batch p ledger topic) :: after →
      op.task ≠ .delivery)
    (htopic : topic ≠ .deadLetter) (hdecode : Envelope.decode r.payload = .ok e)
    (hcompletes : (p.consumer ledger topic).Completes (w.after before) r)
    (hroom : ∀ n ∈ (w.after (before ++ .run (.batch p ledger topic) :: after)).store.notifications,
      n.retryCount ≠ 0xffffffff)
    (hserial : (w.after (before ++ .run (.batch p ledger topic) :: after)).serial ≤
      Books.serialLimit) (q : Pipeline) :
    ((q.handler topic).handle r).Rests
      (.opened (w.after (before ++ .run (.batch p ledger topic) :: after))) := by
  have hfits : ∀ command ∈ before ++ .run (.batch p ledger topic) :: after,
      command.Fits Terms.any :=
    Command.forall_fits hruns (fun _ _ _ _ => trivial) fun _ _ => trivial
  rw [List.forall_mem_append, List.forall_mem_cons] at hfits
  let s := (Account.opened w).after before
  let s' := s.obey (.run (.batch p ledger topic))
  have hend : (s'.after after).world =
      w.after (before ++ .run (.batch p ledger topic) :: after) := by
    rw [← Account.world_opened_after, Account.after_append]
    rfl
  rw [← hend] at hroom hserial ⊢
  have hserial' : s'.world.serial ≤ Books.serialLimit := (s'.serial_le_after after).trans hserial
  have hturns : Turns Terms.any (.opened w) s := Account.turns_after hfits.1 (Or.inl trivial)
    hblank.regular (Or.inl trivial) ((s.serial_le_obey _).trans hserial')
  have hs := hturns.regular hblank.regular
  rw [← Account.world_opened_after] at hcompletes
  obtain ⟨s₂, hs₂, hpassed, hturns'⟩ := hcompletes.passed htopic hdecode hs hserial'
  have hturns'' : Turns Terms.any s₂ (s'.after after) := hturns'.trans (Account.turns_after
    hfits.2.2 (Or.inl trivial) (hturns'.regular hs₂) (Or.inl trivial) hserial)
  obtain ⟨k, hk, hid, houtdates⟩ := hpassed.turns hs₂ hturns'' hroom
  refine q.rests_handle htopic hdecode ?_ houtdates
  rw [← hid]
  exact Store.find?_of_mem (hturns''.regular hs₂).rows_nodup hk

/-- A notification failed once and was then sent. The record that it was first published with,
which the batch of the first attempt completed, passes without effect. -/
theorem World.redelivery_rests_sent :
    ∃ r, ((Sample.pipeline 5).consumer .loops .send).Completes
        ((Sample.world [.done (.error (.network "down"))]).after
          (Sample.arrival (Sample.pipeline 5))) r ∧
      (((Sample.pipeline 5).handler .send).handle r).Rests
        (.opened ((Sample.world [.done (.error (.network "down"))]).after
          (Sample.firstAttempt (Sample.pipeline 5) ++
            Sample.secondAttempt (Sample.pipeline 5)))) := by
  let p := Sample.pipeline 5
  let w := Sample.world [.done (.error (.network "down"))]
  let c := p.consumer .loops .send
  let run := Sample.arrival p ++ .run (.batch p .loops .send) :: Sample.secondAttempt p
  have hhandled : ((w.after (Sample.arrival p)).bus.poll c.subscription c.batchSize).map (fun r =>
      ((Envelope.decode r.payload).toOption.isSome,
        ((c.handler.handle r).run.run (w.after (Sample.arrival p))).1)) =
      [(true, .done (.ok .commit))] := by
    decide +kernel
  obtain ⟨r, hpoll, hr⟩ := List.map_eq_singleton_iff.mp hhandled
  obtain ⟨hreadable, hcommit⟩ := Prod.mk.inj hr
  have hcompletes : c.Completes (w.after (Sample.arrival p)) r :=
    .intro (show _ = [] ++ r :: [] from hpoll) rfl (Prod.ext hcommit rfl)
  have hruns (op : Operation) (hop : Command.run op ∈ run) : op.task ≠ .delivery :=
    (Sample.runs_pipeline (p := p) (List.mem_append_left (Sample.revival p) hop)).1
  refine ⟨r, hcompletes, ?_⟩
  cases hdecode : Envelope.decode r.payload with
  | error fault =>
      rw [hdecode] at hreadable
      exact nomatch hreadable
  | ok e =>
      apply World.redelivery_rests (Sample.isBlank_world _) hruns nofun hdecode hcompletes
      · decide +kernel
      · decide +kernel

end Courier
