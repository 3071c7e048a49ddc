import Courier.Proofs.Turns.Making

/-!
The operations of the pipeline make turns. One lemma for each function: intake accepts, a delivery
attempts and records, all else is quiet. A delivery that succeeds leaves the row beyond the message
it was made for.
-/

namespace Courier

open Job

variable {terms : Terms} {overflows : Prop} {s : Account}

/-! ## Delivery -/

/-- A count goes up, or goes no further. -/
theorem lt_countUp_or_full (n : UInt32) : n < countUp n ∨ countUp n = 0xffffffff := by
  by_cases hfull : n = 0xffffffff
  · rw [hfull]
    exact Or.inr rfl
  · have hlt := n.toNat_lt
    have hne : n.toNat ≠ 4294967295 := fun heq => hfull (UInt32.toNat_inj.mp heq)
    exact Or.inl (lt_countUp (by omega))

/-- The row of a notification has gone beyond it, or counts no further. -/
def Books.Passed (b : Books) (n : Notification) : Prop :=
  ∃ y ∈ b.rows, y.id = n.id ∧ (y.Outdates n ∨ y.retryCount = 0xffffffff)

/-- The key of a row is not taken from it. -/
theorem Books.Regular.not_keyTaken {w : World} (h : w.books.Regular) {n m : Notification}
    (hn : n ∈ w.books.rows) (hid : m.id = n.id) (hkey : m.idempotencyKey = n.idempotencyKey) :
    w.store.keyTaken m = false :=
  Store.keyTaken_eq_false h.keys_nodup hn hid hkey

namespace Pipeline

variable (p : Pipeline) {n : Notification} {place : Nat} {world : World}

/-- After a call to a channel that succeeded, the row is recorded as sent. -/
theorem ends_recordSent (hs : s.world.books.Regular) (hn : n ∈ s.world.books.rows)
    (hopen : n.status ≠ .sent) (hsend : s.world.answer (.send place n) = (.done (.ok ()), world)) :
    (p.delivery.recordSent n).run.Ends terms overflows
      ⟨world, ⟨.send place n, .ok ()⟩ :: s.history⟩ (Turns terms s)
      fun result s' => Turns terms s s' ∧ ∀ a, result = .ok a → s'.world.books.Passed n := by
  have hbooks : world.books = s.world.books := World.books_of_send hsend
  have hstats : world.pipelineStats = s.world.pipelineStats := World.pipelineStats_of_send hsend
  refine Prog.ends_call id fun now world₁ hnow hholds _ => ?_
  obtain ⟨-, rfl⟩ := Prod.mk.inj hnow
  refine Prog.ends_call id fun saved world₂ hsave _ _ => ?_
  have heffect := World.effect_of_answer hsave
  cases saved with
  | ok _ =>
      refine Prog.ends_call id fun _ world₃ htally _ _ => ?_
      obtain ⟨-, rfl⟩ := Prod.mk.inj hsave
      obtain ⟨-, rfl⟩ := Prod.mk.inj htally
      rw [hbooks] at heffect
      refine Prog.ends_done ⟨.single (.sends hn hopen heffect ?_), fun _ _ => ?_⟩
      · exact congrArg (fun stats => (stats.count .sent).recorded) hstats
      · refine ⟨n.sent now, ?_, rfl, Or.inl (Or.inl rfl)⟩
        exact (congrArg Books.rows heffect.of_save).symm ▸ Store.mem_putInto_self _ _
  | error error =>
      -- Nothing is recorded. Without faults that cannot be, since the row keeps its key.
      have hfaults : terms.faults := by
        refine hholds.resolve_right fun hnone => ?_
        have hregular : world.books.Regular := hbooks ▸ hs
        have hrow : n ∈ world.books.rows := hbooks.symm ▸ hn
        have hfree := hregular.not_keyTaken hrow (m := n.sent now) rfl rfl
        rcases Store.error_of_save (Outcome.done.inj (congrArg Prod.fst hsave)) with
          ⟨message, hinjected, -⟩ | htaken
        · exact nomatch hnone.symm.trans hinjected
        · exact nomatch hfree.symm.trans htaken
      have hturns : Turns terms s _ := .single (.attempts hn hsend (Or.inl hfaults))
      have hturns := hturns.tail (.quiet (c := .now) hnow trivial trivial)
      have hturns := hturns.tail (.quiet hsave ⟨error, rfl⟩ trivial)
      exact Prog.ends_done ⟨hturns, fun _ heq => nomatch heq⟩

/-- A write that records how a failed attempt is judged. -/
theorem ends_ruling {error : DeliveryError} {now : Instant} {jitter : Duration} {m : Notification}
    {topic : Topic} {what : Tally} {world₂ : World} {outcome : DeliveryOutcome}
    (hs : s.world.books.Regular) (hn : n ∈ s.world.books.rows) (hopen : n.status ≠ .sent)
    (hsend : s.world.answer (.send place n) = (.done (.error error), world))
    (hfailure : error.isDeliveryFailure = true)
    (hnow : world.answer .now = (.done now, world))
    (hjitter : world.answer (.jitter Backoff.jitterBound) = (.done jitter, world₂))
    (hruling : Ruling terms n error now jitter m topic what) :
    (do
      let _ ← Job.store (.call (.saveWithOutbox m topic.name))
      Job.call (.tally .pipeline what)
      return outcome : Job DeliveryOutcome).run.Ends terms overflows
      ⟨world₂, ⟨.jitter Backoff.jitterBound, jitter⟩ :: ⟨.now, now⟩ ::
        ⟨.send place n, .error error⟩ :: s.history⟩ (Turns terms s)
      fun result s' => Turns terms s s' ∧ ∀ a, result = .ok a → s'.world.books.Passed n := by
  have hbooks : world.books = s.world.books := World.books_of_send hsend
  have hstats : world.pipelineStats = s.world.pipelineStats := World.pipelineStats_of_send hsend
  have hadvances := (Notification.Becomes.failed hfailure hruling).advances hopen
  obtain ⟨-, rfl⟩ := Prod.mk.inj hjitter
  refine Prog.ends_call id fun saved world₃ hsave hholds _ => ?_
  have heffect := World.effect_of_answer hsave
  cases saved with
  | ok e =>
      refine Prog.ends_call id fun _ world₄ htally _ _ => ?_
      obtain ⟨-, rfl⟩ := Prod.mk.inj hsave
      obtain ⟨-, rfl⟩ := Prod.mk.inj htally
      change world.books.Effect _ _ _ at heffect
      rw [hbooks] at heffect
      have hrows := congrArg Books.rows heffect.of_saveWithOutbox.2
      refine Prog.ends_done ⟨.single (.fails hn hopen hfailure hruling heffect ?_), fun _ _ => ?_⟩
      · exact congrArg (fun stats => (stats.count what).recorded) hstats
      · refine ⟨m, hrows.symm ▸ Store.mem_putInto_self _ _, hadvances.id, ?_⟩
        rw [Notification.Outdates, hruling.retryCount_eq]
        exact (lt_countUp_or_full n.retryCount).imp_left Or.inr
  | error error' =>
      have hfaults : terms.faults := by
        refine hholds.resolve_right fun hnone => ?_
        have hregular : world.books.Regular := hbooks ▸ hs
        have hrow : n ∈ world.books.rows := hbooks.symm ▸ hn
        have hfree := hregular.not_keyTaken hrow hadvances.id hadvances.idempotencyKey
        rcases Store.error_of_saveWithOutbox (Outcome.done.inj (congrArg Prod.fst hsave)) with
          ⟨message, hinjected, -⟩ | htaken
        · exact nomatch hnone.symm.trans hinjected
        · exact nomatch hfree.symm.trans htaken
      have hturns : Turns terms s _ := .single (.attempts hn hsend (Or.inl hfaults))
      have hturns := hturns.tail (.quiet hnow trivial trivial)
      have hturns := hturns.tail (.quiet hjitter trivial trivial)
      have hturns := hturns.tail (.quiet hsave ⟨error', rfl⟩ trivial)
      exact Prog.ends_done ⟨hturns, fun _ heq => nomatch heq⟩

theorem ends_recordFailure {error : DeliveryError} (hterms : terms.backoffs p.backoff)
    (hoverflows : overflows → terms.faults) (hs : s.world.books.Regular)
    (hn : n ∈ s.world.books.rows) (hopen : n.status ≠ .sent)
    (hsend : s.world.answer (.send place n) = (.done (.error error), world))
    (hfailure : error.isDeliveryFailure = true) :
    (p.delivery.recordFailure n error).run.Ends terms overflows
      ⟨world, ⟨.send place n, .error error⟩ :: s.history⟩ (Turns terms s)
      fun result s' => Turns terms s s' ∧ ∀ a, result = .ok a → s'.world.books.Passed n := by
  refine Prog.ends_call id fun now world₁ hnow _ _ => ?_
  obtain ⟨-, rfl⟩ := Prod.mk.inj hnow
  refine Prog.ends_call id fun jitter world₂ hjitter _ _ => ?_
  change (Job.orCrash (p.backoff.decide n.medium (countUp n.retryCount) now jitter) >>=
    _ : Job DeliveryOutcome).run.Ends _ _ _ _ _
  cases hdecide : p.backoff.decide n.medium (countUp n.retryCount) now jitter with
  | error overflow =>
      refine Prog.ends_crash fun hoverflow => ?_
      have hturns : Turns terms s _ :=
        .single (.attempts hn hsend (Or.inl (hoverflows hoverflow)))
      exact (hturns.tail (.quiet hnow trivial trivial)).tail (.quiet hjitter trivial trivial)
  | ok decision =>
      cases decision with
      | retry next =>
          exact ends_ruling hs hn hopen hsend hfailure hnow hjitter (.retry hterms hdecide)
      | giveUp reason =>
          exact ends_ruling hs hn hopen hsend hfailure hnow hjitter (.giveUp hterms hdecide)

/-- An attempt at a row. -/
theorem makes_attempt (hterms : terms.backoffs p.backoff) (hoverflows : overflows → terms.faults)
    (hn : n ∈ s.world.books.rows) (hopen : n.status ≠ .sent) :
    (p.delivery.attempt n).Makes terms overflows s fun _ s' => s'.world.books.Passed n := by
  refine makes_bind (R := fun _ s' => s' = s) (Prog.makes_done fun _ _ => rfl) ?_
  rintro ⟨channel, name⟩ _ - rfl
  refine makes_ask id (fun _ _ => ⟨nofun, nofun, nofun⟩) trivial fun _ world htally _ => ?_
  obtain ⟨-, rfl⟩ := Prod.mk.inj htally
  intro hs
  refine Prog.ends_ask ?_ ?_
  · intro result world hsend _ _
    cases result with
    | ok _ => exact p.ends_recordSent hs hn hopen hsend
    | error error =>
        by_cases hfailure : error.isDeliveryFailure = true
        · have hends := p.ends_recordFailure hterms hoverflows hs hn hopen hsend hfailure
          change (if error.isDeliveryFailure then p.delivery.recordFailure n error
            else throw error : Job DeliveryOutcome).run.Ends _ _ _ _ _
          rwa [if_pos hfailure]
        · change (if error.isDeliveryFailure then p.delivery.recordFailure n error
            else throw error : Job DeliveryOutcome).run.Ends _ _ _ _ _
          rw [if_neg hfailure]
          have hfailure := Bool.eq_false_iff.mpr hfailure
          exact Prog.ends_done ⟨.single (.attempts hn hsend (Or.inr ⟨error, rfl, hfailure⟩)),
            fun _ heq => nomatch heq⟩
  · intro o world hsend _
    exact .single (.elapses (World.books_of_send hsend) (World.pipelineStats_of_send hsend))

theorem makes_deliver (hterms : terms.backoffs p.backoff) (hoverflows : overflows → terms.faults)
    (hn : s.world.books.Backs n) :
    (p.delivery.deliver n).Makes terms overflows s fun _ s' => s'.world.books.Passed n := by
  intro hs
  obtain ⟨y, hy, hid, hle⟩ := hn
  refine makes_bind (R := fun found s' => found = some y ∧ s'.world = s.world)
    (makes_store ?_) ?_ hs
  · refine Prog.makes_ask id (fun _ _ _ => trivial) trivial fun result world hfind _ => ?_
    obtain ⟨hfound, rfl⟩ := Prod.mk.inj hfind
    apply Prog.makes_done
    rintro found rfl
    have hfound : s.world.store.find? n.id = found := Except.ok.inj (Outcome.done.inj hfound)
    refine ⟨?_, rfl⟩
    cases found with
    | none => exact absurd hid (Store.find?_none hfound y hy)
    | some z =>
        obtain ⟨hz, hzid⟩ := Store.find?_some hfound
        rw [Store.eq_of_id_eq hs.rows_nodup hz hy (hzid.trans hid.symm)]
  · rintro _ s' - ⟨rfl, hworld⟩
    dsimp only
    have hrows : s'.world.books.rows = s.world.books.rows := by rw [hworld]
    split
    · next hskip => exact makes_pure ⟨y, hrows.symm ▸ hy, hid, Or.inl hskip⟩
    · next hbegin =>
      have hopen : y.status ≠ .sent := fun hsent => hbegin (Or.inl hsent)
      refine makes_mono (p.makes_attempt hterms hoverflows (hrows.symm ▸ hy) hopen) ?_
      rintro _ s'' - ⟨z, hz, hzid, hpassed⟩
      refine ⟨z, hz, hzid.trans hid, hpassed.imp_left fun houtdates => ?_⟩
      exact houtdates.imp_right fun hlt => UInt32.lt_of_le_of_lt hle hlt

theorem makes_retry (hterms : terms.backoffs p.backoff) (hoverflows : overflows → terms.faults)
    (hn : s.world.books.Backs n) :
    (p.delivery.retry n).Makes terms overflows s fun handled s' =>
      handled = true → s'.world.books.Passed n := by
  refine makes_ask id (fun _ => trivial) trivial fun now world hnow _ => ?_
  obtain ⟨-, rfl⟩ := Prod.mk.inj hnow
  split
  · exact makes_pure nofun
  · refine makes_bind (p.makes_deliver hterms hoverflows hn) ?_
    exact fun _ _ _ hpassed => makes_pure fun _ => hpassed

end Pipeline

/-! ## Batches -/

/-- What a record carries is backed, unless it is only noted. -/
def Books.BacksRecord (b : Books) (topic : Topic) (r : Record) : Prop :=
  topic ≠ .deadLetter → ∀ n, r.snapshot = some n → b.Backs n

theorem Books.BacksRecord.turns {s' : Account} {topic : Topic} {r : Record}
    (h : s.world.books.BacksRecord topic r) (hs : s.world.books.Regular)
    (hturns : Turns terms s s') : s'.world.books.BacksRecord topic r :=
  fun htopic n hn => hturns.backs hs (h htopic n hn)

namespace Pipeline

variable (p : Pipeline) (ledger : Ledger) {topic : Topic} {r : Record}

private theorem makes_envelope (hr : topic ≠ .deadLetter → ∀ n, r.snapshot = some n →
    s.world.books.Backs n) (htopic : topic ≠ .deadLetter) :
    (Handler.envelope r).Makes terms overflows s fun e s' =>
      s'.world.books.Backs e.notification ∧ r.snapshot = some e.notification := by
  apply Prog.makes_done
  intro e hdecode
  have hsnapshot : r.snapshot = some e.notification := by
    cases hpayload : Envelope.decode r.payload with
    | error fault =>
        rw [hpayload] at hdecode
        exact nomatch hdecode
    | ok e' =>
        rw [hpayload] at hdecode
        obtain rfl := Except.ok.inj hdecode
        rw [Record.snapshot, hpayload]
        rfl
  exact ⟨hr htopic _ hsnapshot, hsnapshot⟩

/-- A record of a topic to deliver from is committed only when its row has gone beyond it. -/
theorem makes_handle (hterms : terms.backoffs p.backoff) (hoverflows : overflows → terms.faults)
    (hr : s.world.books.BacksRecord topic r) :
    ((p.handler topic).handle r).Makes terms overflows s fun disposition s' =>
      disposition = .commit → topic ≠ .deadLetter → ∀ n, r.snapshot = some n →
        s'.world.books.Passed n := by
  cases topic with
  | send =>
      refine makes_bind (makes_envelope hr nofun) ?_
      rintro e s' - ⟨hbacks, hsnapshot⟩
      refine makes_bind (p.makes_deliver hterms hoverflows hbacks) fun _ s'' _ hpassed => ?_
      exact makes_pure fun _ _ n hn => Option.some.inj (hsnapshot.symm.trans hn) ▸ hpassed
  | retry =>
      refine makes_bind (makes_envelope hr nofun) ?_
      rintro e s' - ⟨hbacks, hsnapshot⟩
      refine makes_bind (p.makes_retry hterms hoverflows hbacks) fun handled s'' _ hpassed => ?_
      cases handled with
      | false => exact makes_pure nofun
      | true =>
          exact makes_pure fun _ _ n hn => Option.some.inj (hsnapshot.symm.trans hn) ▸ hpassed rfl
  | deadLetter =>
      refine makes_ask id (fun _ => trivial) trivial fun _ _ _ _ => ?_
      exact makes_pure fun _ htopic => absurd rfl htopic

theorem makes_report :
    ((p.consumer ledger topic).report r).Makes terms overflows s fun _ _ => True := by
  refine makes_ask id (fun _ => trivial) trivial fun now _ _ _ => ?_
  refine makes_ask id (fun _ => trivial) trivial fun id _ _ _ => ?_
  refine makes_bind (R := fun _ _ => True) ?_ fun _ s' _ _ => ?_
  · refine Prog.makes_ask (fun h => h) (fun _ _ _ => trivial) ?_ fun _ _ _ _ => ?_
    · exact fun hname => absurd rfl hname
    · exact Prog.makes_done fun _ _ => trivial
  · exact makes_mono (makes_call (fun h => h) (fun _ _ => ⟨nofun, nofun, nofun⟩) trivial)
      fun _ _ _ _ => trivial

theorem makes_settle (hterms : terms.backoffs p.backoff) (hoverflows : overflows → terms.faults)
    (hr : s.world.books.BacksRecord topic r) :
    ((p.consumer ledger topic).settle r).Makes terms overflows s fun _ _ => True := by
  refine makes_bind (makes_outcome (p.makes_handle hterms hoverflows hr)) fun result s' _ _ => ?_
  rcases result with error | (_ | _)
  · have hjob (b : Bool) : (if b then throw error else pure false : Job Bool).Makes terms
        overflows s' fun _ _ => True := by
      cases b with
      | true => exact makes_throw
      | false => exact makes_pure trivial
    cases error with
    | deserialization message =>
        exact makes_bind (p.makes_report ledger) fun _ _ _ _ => makes_pure trivial
    | _ => exact hjob _
  · exact makes_pure trivial
  · exact makes_pure trivial

theorem makes_settleAll (hterms : terms.backoffs p.backoff)
    (hoverflows : overflows → terms.faults) (rs : List Record) (committed : Nat)
    (hrs : ∀ r ∈ rs, s.world.books.BacksRecord topic r) :
    ((p.consumer ledger topic).settleAll rs committed).Makes terms overflows s
      fun _ _ => True := by
  induction rs generalizing s committed with
  | nil => exact makes_pure trivial
  | cons r rest ih =>
      intro hs
      rw [List.forall_mem_cons] at hrs
      refine makes_bind (p.makes_settle ledger hterms hoverflows hrs.1) ?_ hs
      intro settled s' hturns _
      cases settled with
      | false => exact makes_pure trivial
      | true =>
          refine makes_bind (R := fun _ _ => True) ?_ fun _ s'' hturns' _ => ?_
          · refine Prog.makes_ask id (fun _ _ _ => trivial) trivial fun _ _ _ _ => ?_
            exact Prog.makes_done fun _ _ => trivial
          · apply ih
            exact fun r hr => (hrs.2 r hr).turns hs (hturns.trans hturns')

/-- What is polled to be delivered is backed. -/
theorem backs_polled (hs : s.world.books.Regular) {max : Nat}
    (hr : r ∈ s.world.bus.poll (p.consumer ledger topic).subscription max) :
    s.world.books.BacksRecord topic r := fun htopic =>
  hs.records_backed topic htopic r (List.mem_filter.mp (List.mem_of_mem_take hr)).1

theorem makes_batch (hterms : terms.backoffs p.backoff) (hoverflows : overflows → terms.faults) :
    (p.consumer ledger topic).batch.Makes terms overflows s fun _ _ => True := by
  intro hs
  refine makes_bind (R := fun rs s' => ∀ r ∈ rs, s'.world.books.BacksRecord topic r) ?_ ?_ hs
  · refine Prog.makes_ask id (fun _ _ _ => trivial) trivial fun result world hpoll _ => ?_
    obtain ⟨hpolled, rfl⟩ := Prod.mk.inj hpoll
    apply Prog.makes_done
    rintro rs rfl r hr
    obtain rfl := Except.ok.inj (Outcome.done.inj hpolled)
    exact p.backs_polled ledger hs hr
  · exact fun rs s' _ hrs => p.makes_settleAll ledger hterms hoverflows rs 0 hrs

end Pipeline
/-! ## Outbox -/

/-- What is published of a row is backed by it. -/
theorem publishNotification_supports {n : Notification} {topic : String} {key : Option String}
    {now : Instant} (hn : s.world.books.Backs n) :
    s.world.books.Supports (.publish topic key (Envelope.ofNotification n now).encode) := by
  intro _ r hr m hm
  rw [Stand.snapshot_ofNotification hr] at hm
  exact Option.some.inj hm ▸ hn

theorem makes_publishNotification {n : Notification} (topic : String)
    (hn : s.world.books.Backs n) :
    (publishNotification topic n).Makes terms overflows s fun _ _ => True := by
  refine makes_ask id (fun _ => trivial) trivial fun now world hnow _ => ?_
  obtain ⟨-, rfl⟩ := Prod.mk.inj hnow
  refine Prog.makes_ask id (fun _ _ _ => trivial) (publishNotification_supports hn) ?_
  exact fun _ _ _ _ => Prog.makes_done fun _ _ => trivial

/-- A call to the store that changes no row, whatever it returns. -/
private theorem makes_quietly {α : Type} {p : Prog (Except StoreError α)}
    (h : p.Makes terms overflows s fun _ _ => True) :
    (Job.store p).Makes terms overflows s fun _ _ => True :=
  makes_store (Prog.makes_mono h fun _ _ _ _ _ _ => trivial)

namespace Publication

variable (p : Publication)

theorem makes_publishEvent (now : Instant) (e : OutboxEvent) :
    (p.publishEvent now e).Makes terms overflows s fun _ _ => True := by
  refine makes_bind (R := fun found s' => ∀ n, found = some n → s'.world.books.Backs n)
    (makes_store ?_) ?_
  · refine Prog.makes_ask id (fun _ _ _ => trivial) trivial fun result world hfind _ => ?_
    obtain ⟨hfound, rfl⟩ := Prod.mk.inj hfind
    apply Prog.makes_done
    rintro _ rfl n rfl
    obtain ⟨hn, -⟩ := Store.find?_some (Except.ok.inj (Outcome.done.inj hfound))
    exact ⟨n, hn, rfl, UInt32.le_refl _⟩
  · intro found s' _ hfound
    have htally (what : Tally) (s : Account)
        (hwhat : what ≠ .sent ∧ what ≠ .retryScheduled ∧ what ≠ .deadLettered) :
        (Job.call (.tally p.ledger what)).Makes terms overflows s fun _ _ => True :=
      makes_mono (makes_call id (fun _ _ => hwhat) trivial) fun _ _ _ _ => trivial
    cases found with
    | none => exact makes_throw
    | some n =>
        refine makes_bind (makes_outcome (makes_publishNotification e.topic (hfound n rfl))) ?_
        intro result s'' _ _
        cases result with
        | ok _ =>
            refine makes_bind (makes_quietly (Prog.makes_ask id (fun _ _ _ => trivial) trivial
              fun _ _ _ _ => Prog.makes_done trivial)) fun _ _ _ _ => ?_
            exact htally _ _ ⟨nofun, nofun, nofun⟩
        | error error =>
            refine makes_bind (R := fun _ _ => True) (makes_orCrash fun _ _ => trivial) ?_
            intro next _ _ _
            refine makes_bind (makes_quietly (Prog.makes_ask id (fun _ _ _ => trivial) trivial
              fun _ _ _ _ => Prog.makes_done trivial)) fun _ _ _ _ => ?_
            exact htally _ _ ⟨nofun, nofun, nofun⟩

theorem makes_publishDue (limit : Nat) :
    (p.publishDue limit).Makes terms overflows s fun _ _ => True := by
  have hevents (now : Instant) (due : List OutboxEvent) (s : Account) :
      (due.forM (p.publishEvent now)).Makes terms overflows s fun _ _ => True := by
    induction due generalizing s with
    | nil => exact makes_pure trivial
    | cons e due ih => exact makes_bind (p.makes_publishEvent now e) fun _ s' _ _ => ih s'
  refine makes_ask id (fun _ => trivial) trivial fun now _ _ _ => ?_
  refine makes_bind (makes_quietly (Prog.makes_ask id (fun _ _ _ => trivial) trivial
    fun _ _ _ _ => Prog.makes_done trivial)) fun due s' _ _ => ?_
  exact makes_bind (hevents now due s') fun _ _ _ _ => makes_pure trivial

end Publication

/-! ## Intake -/

namespace Intake

private theorem makes_countAgainst (keys : List String) :
    (countAgainst keys).Makes terms overflows s fun _ _ => True := by
  induction keys generalizing s with
  | nil => exact makes_pure trivial
  | cons key keys ih =>
      refine makes_ask id (fun _ => trivial) trivial fun admitted _ _ _ => ?_
      cases admitted with
      | true => exact ih
      | false => exact makes_throw

/-- What is taken in is new, and waits for a first attempt. -/
theorem makes_accept (request : Request) :
    (accept request).Makes terms overflows s fun _ _ => True := by
  refine makes_bind (makes_quietly (Prog.makes_ask id (fun _ _ _ => trivial) trivial
    fun _ _ _ _ => Prog.makes_done trivial)) fun found s' _ _ => ?_
  cases found with
  | some existing => exact makes_pure trivial
  | none =>
      refine makes_bind (makes_countAgainst _) fun _ s' _ _ => ?_
      intro hs
      refine makes_ask id (fun _ => trivial) trivial ?_ hs
      intro id world hid hserial
      have hnew : id = s'.world.ids.draw s'.world.serial ∧
          world.books = { s'.world.books with serial := s'.world.serial + 1 } :=
        (World.effect_of_answer hid).of_newId
      have hlt : s'.world.books.serial < Books.serialLimit := by
        have hserial' : world.serial = s'.world.serial + 1 := congrArg Books.serial hnew.2
        exact Nat.lt_of_succ_le (hserial'.ge.trans hserial)
      refine makes_ask (fun h => h) (fun _ => trivial) trivial fun now world₂ hnow _ => ?_
      obtain ⟨-, rfl⟩ := Prod.mk.inj hnow
      refine makes_bind (R := fun _ _ => True) (fun _ => ?_) fun _ _ _ _ => makes_pure trivial
      refine Prog.ends_call (fun h => h) fun saved world₃ hsave _ _ => ?_
      cases saved with
      | error error =>
          have hturn : Turns terms _ _ := .single (.quiet hsave ⟨error, rfl⟩ trivial)
          exact Prog.ends_done ⟨hturn, fun _ _ => trivial⟩
      | ok e =>
          have hdrawn : world.books.Drawn id := by
            rw [hnew.2, hnew.1]
            exact ⟨_, Nat.lt_succ_self _, rfl⟩
          have hunknown : ¬ world.books.Known id := by
            rw [hnew.2]
            rintro ⟨m, hm, hmid⟩
            have hold := hs.rows_drawn m hm
            rw [hmid, hnew.1] at hold
            exact Books.not_drawn_next hlt hold
          have hturn : Turns terms _ _ :=
            .single (.accepts hsave rfl rfl rfl hdrawn hunknown)
          exact Prog.ends_done ⟨hturn, fun _ _ => trivial⟩

theorem makes_submit (request : Request) :
    (submit request).Makes terms overflows s fun _ _ => True := by
  refine makes_ask id (fun _ => trivial) trivial fun _ _ _ _ => ?_
  refine makes_bind (makes_outcome (makes_accept request)) fun result _ _ _ => ?_
  refine makes_ask id (fun _ => trivial) trivial fun _ _ _ _ => ?_
  cases result with
  | ok n => exact makes_pure trivial
  | error error => exact makes_throw

end Intake

/-! ## Dead letters and retention -/

namespace Reprocessing

theorem makes_republish (ns : List Notification) (hns : ∀ n ∈ ns, s.world.books.Backs n) :
    (republish ns).Makes terms overflows s fun _ _ => True := by
  induction ns generalizing s with
  | nil => exact makes_pure trivial
  | cons n ns ih =>
      intro hs
      rw [List.forall_mem_cons] at hns
      refine makes_bind (makes_publishNotification _ hns.1) (fun _ s' hturns _ => ?_) hs
      refine makes_bind (ih fun m hm => hturns.backs hs (hns.2 m hm)) ?_
      exact fun _ _ _ _ => makes_pure trivial

theorem makes_execute (limit : Nat) :
    (execute limit).Makes terms overflows s fun _ _ => True := by
  refine makes_bind (R := fun ns s' => ∀ n ∈ ns, s'.world.books.Backs n) (makes_store ?_)
    fun ns _ _ hns => makes_republish ns hns
  refine Prog.makes_ask id (fun _ _ _ => trivial) trivial fun result world hfind _ => ?_
  obtain ⟨hfound, rfl⟩ := Prod.mk.inj hfind
  apply Prog.makes_done
  rintro _ rfl n hn
  obtain rfl := Except.ok.inj (Outcome.done.inj hfound)
  exact ⟨n, (Store.mem_findByStatus hn).1, rfl, UInt32.le_refl _⟩

end Reprocessing

namespace Retention

private theorem makes_pruneTopics (cutoff : Instant) (topics : List String) :
    (pruneTopics cutoff topics).Makes terms overflows s fun _ _ => True := by
  induction topics generalizing s with
  | nil => exact makes_pure trivial
  | cons topic topics ih =>
      refine makes_bind (R := fun _ _ => True) ?_ fun _ _ _ _ => ?_
      · refine Prog.makes_ask id (fun _ _ _ => trivial) trivial fun _ _ _ _ => ?_
        exact Prog.makes_done fun _ _ => trivial
      · exact makes_bind ih fun _ _ _ _ => makes_pure trivial

theorem makes_sweep (r : Retention) : r.sweep.Makes terms overflows s fun _ _ => True := by
  unfold sweep
  split
  · exact makes_throw
  · refine makes_ask id (fun _ => trivial) trivial fun now _ _ _ => ?_
    refine makes_bind (R := fun _ _ => True) (makes_orCrash fun _ _ => trivial) ?_
    intro cutoff _ _ _
    refine makes_bind (makes_quietly (Prog.makes_ask id (fun _ _ _ => trivial) trivial
      fun _ _ _ _ => Prog.makes_done trivial)) fun _ _ _ _ => ?_
    refine makes_bind (makes_pruneTopics cutoff r.topics) fun _ _ _ _ => ?_
    refine makes_ask id (fun _ _ => ⟨nofun, nofun, nofun⟩) trivial fun _ _ _ _ => ?_
    exact makes_pure trivial

end Retention

/-! ## Closed runs -/

/-- A batch fails by the policies known. -/
def Operation.Fits (terms : Terms) (op : Operation) : Prop :=
  op.task ≠ .delivery ∧ ∀ p ledger topic, op = .batch p ledger topic → terms.backoffs p.backoff

/-- An operation of a closed run makes turns. Without faults, a batch must not overflow. -/
theorem Operation.makes_program {op : Operation} (hfits : op.Fits terms)
    (hoverflows : overflows → terms.faults ∨ ∀ p ledger topic, op ≠ .batch p ledger topic) :
    op.program.Makes terms overflows s fun _ _ => True := by
  have hdiscard {α : Type} {job : Job α} {Q : α → Account → Prop}
      (h : job.Makes terms overflows s Q) :
      (job.run.bind fun _ => .done ()).Makes terms overflows s fun _ _ => True :=
    Prog.makes_bind h fun _ _ _ _ => Prog.makes_done trivial
  cases op with
  | submit request => exact hdiscard (Intake.makes_submit request)
  | publishDue p limit => exact hdiscard (p.makes_publishDue limit)
  | batch p ledger topic =>
      have hbatch (h : overflows) : terms.faults :=
        (hoverflows h).resolve_right fun hother => hother p ledger topic rfl
      exact hdiscard (p.makes_batch ledger (hfits.2 p ledger topic rfl) hbatch)
  | reprocess limit => exact hdiscard (Reprocessing.makes_execute limit)
  | sweep r => exact hdiscard r.makes_sweep
  | deliver d n => exact absurd rfl hfits.1

/-- A command of a closed run under these terms. -/
def Command.Fits (terms : Terms) : Command → Prop
  | .run op => op.Fits terms
  | .injectSaveError _ => terms.faults
  | _ => True

theorem Command.forall_fits {commands : List Command}
    (hruns : ∀ op, Command.run op ∈ commands → op.task ≠ .delivery)
    (hbackoffs : ∀ p ledger topic, Command.run (.batch p ledger topic) ∈ commands →
      terms.backoffs p.backoff)
    (hsaves : ∀ message, Command.injectSaveError message ∈ commands → terms.faults) :
    ∀ command ∈ commands, command.Fits terms := by
  intro command hcommand
  cases command with
  | run op =>
      refine ⟨hruns op hcommand, fun p ledger topic hop => ?_⟩
      exact hbackoffs p ledger topic (hop ▸ hcommand)
  | injectSaveError message => exact hsaves message hcommand
  | _ => exact trivial

/-- The time of every next attempt can be represented: if the command is a batch, it does not break
off where it moves the clock reading by a delay. -/
def Command.inRange (s : Account) : Command → Bool
  | .run (.batch p ledger topic) =>
    !((Operation.batch p ledger topic).program.perform s).1.isOverflow
  | _ => true

namespace Account

def inRange (s : Account) : List Command → Bool
  | [] => true
  | command :: commands => command.inRange s && (s.obey command).inRange commands

theorem turns_obey {command : Command} (hfits : command.Fits terms)
    (hrange : terms.faults ∨ command.inRange s = true) (hs : s.world.books.Regular)
    (hholds : terms.Holds s.world)
    (hserial : (s.obey command).world.serial ≤ Books.serialLimit) :
    Turns terms s (s.obey command) ∧ terms.Holds (s.obey command).world := by
  cases command with
  | run op =>
      let overflows := terms.faults ∨ ∀ p ledger topic, op ≠ .batch p ledger topic
      have hmakes : op.program.Makes terms overflows s _ := Operation.makes_program hfits id
      refine ⟨hmakes.turns hs hholds hserial fun hover => ?_, op.program.holds_perform hholds⟩
      refine hrange.imp_right fun hrange p ledger topic hop => ?_
      subst hop
      rw [Command.inRange, hover] at hrange
      exact nomatch hrange
  | injectSaveError message => exact ⟨.single (.elapses rfl rfl), Or.inl hfits⟩
  | setClock clock => exact ⟨.single (.elapses rfl rfl), hholds⟩
  | refusePublishes topic count => exact ⟨.single (.elapses rfl rfl), hholds⟩
  | injectOutboxError message => exact ⟨.single (.elapses rfl rfl), hholds⟩

/-- A closed run consists of turns. -/
theorem turns_after {commands : List Command} (hfits : ∀ command ∈ commands, command.Fits terms)
    (hrange : terms.faults ∨ s.inRange commands = true) (hs : s.world.books.Regular)
    (hholds : terms.Holds s.world)
    (hserial : (s.after commands).world.serial ≤ Books.serialLimit) :
    Turns terms s (s.after commands) := by
  induction commands generalizing s with
  | nil => exact .refl
  | cons command commands ih =>
      rw [List.forall_mem_cons] at hfits
      have hranges : terms.faults ∨
          command.inRange s = true ∧ (s.obey command).inRange commands = true :=
        hrange.imp_right fun h => (Bool.and_eq_true _ _).mp h
      have hbetween := (serial_le_after (s.obey command) commands).trans hserial
      obtain ⟨hturns, hholds'⟩ :=
        turns_obey hfits.1 (hranges.imp_right And.left) hs hholds hbetween
      exact hturns.trans
        (ih hfits.2 (hranges.imp_right And.right) (hturns.regular hs) hholds' hserial)

end Account

/-- Whatever the policy, and whatever fails. -/
def Terms.any : Terms := ⟨fun _ => True, True⟩

/-- Any closed run consists of turns. -/
theorem Account.turns_any {commands : List Command}
    (hruns : ∀ op, Command.run op ∈ commands → op.task ≠ .delivery)
    (hs : s.world.books.Regular) (hserial : (s.after commands).world.serial ≤ Books.serialLimit) :
    Turns Terms.any s (s.after commands) :=
  turns_after (Command.forall_fits hruns (fun _ _ _ _ => trivial) fun _ _ => trivial)
    (Or.inl trivial) hs (Or.inl trivial) hserial

theorem World.IsBlank.regular_after {w : World} {commands : List Command} (h : w.IsBlank)
    (hruns : ∀ op, Command.run op ∈ commands → op.task ≠ .delivery)
    (hserial : (w.after commands).serial ≤ Books.serialLimit) :
    (w.after commands).books.Regular := by
  have hworld := Account.world_opened_after w commands
  rw [← hworld] at hserial ⊢
  exact (Account.turns_any hruns h.regular hserial).regular h.regular

end Courier
