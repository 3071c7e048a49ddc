import Courier.Proofs.Runs.Orderly
import Courier.Proofs.Runs.Safekeeping

/-!
Closed runs: operations one after the other, each to its end, with the clock moved, publications
refused and errors injected in between. After such a run every notification that waits to be
delivered has exactly one token, a pending event or a record still to be passed. That it has one
is safekeeping, that it has no other is order; what remains to be shown is that a single thread
keeps to the rules of both, above all that what was published can always be marked.
-/

namespace Courier

/-! ## Channels that can read what they are given -/

/-- Not the claim that what was sent cannot be read. -/
def Ending.Readable : Ending → Prop
  | .returned (.error (.deserialization _)) => False
  | _ => True

def Reply.Readable (reply : Reply) : Prop :=
  ∀ delay ending, reply.course = some (delay, ending) → ending.Readable

/-- Whatever else a channel answers, it never claims that what it was given cannot be read. Only
one with scripted replies could. -/
def Line.Readable : Line → Prop
  | .script replies standing => (∀ reply ∈ replies, reply.Readable) ∧ standing.Readable
  | _ => True

def World.Readable (w : World) : Prop := ∀ channel ∈ w.channels, channel.line.Readable

theorem Email.deliver_error {n : Notification} {error : DeliveryError}
    (h : deliver n = .error error) : ∃ message, error = .invalidPayload message := by
  unfold deliver EmailPayload.ofText at h
  dsimp only at h
  split at h
  · exact ⟨_, (Except.error.inj h).symm⟩
  · split at h
    · exact ⟨_, (Except.error.inj h).symm⟩
    · split at h
      · exact ⟨_, (Except.error.inj h).symm⟩
      · exact nomatch h

namespace Reply

theorem readable_done {result : Except DeliveryError Unit}
    (h : ∀ message, result ≠ .error (.deserialization message)) : (done result).Readable := by
  rintro delay ending hcourse
  obtain ⟨-, rfl⟩ := Prod.mk.inj (Option.some.inj hcourse)
  unfold Ending.Readable
  split
  · next message heq => exact h message (Ending.returned.inj heq)
  · exact trivial

theorem Readable.courseWithin {reply : Reply} (h : reply.Readable) (budget : Duration) :
    (reply.courseWithin budget).2.Readable := by
  unfold Reply.courseWithin
  dsimp only
  split
  · next delay ending hcourse =>
    split
    · exact h delay ending hcourse
    · exact trivial
  · exact trivial

end Reply

theorem WebhookClient.deliver_error {client : WebhookClient} {transport : Transport}
    {n : Notification} {error : DeliveryError} (h : client.deliver transport n = .error error) :
    error.isDeliveryFailure = true := by
  unfold deliver at h
  cases hpayload : WebhookPayload.ofText n.payload with
  | error fault =>
      rw [hpayload] at h
      obtain rfl := Except.error.inj h
      unfold WebhookPayload.ofText at hpayload
      dsimp only at hpayload
      split at hpayload
      · rw [← Except.error.inj hpayload]
        rfl
      · split at hpayload
        · rw [← Except.error.inj hpayload]
          rfl
        · exact nomatch hpayload
  | ok payload =>
      rw [hpayload] at h
      change (do let request ← client.request payload; judge request (transport request)) = _ at h
      cases hrequest : client.request payload with
      | error fault =>
          rw [hrequest] at h
          obtain rfl := Except.error.inj h
          unfold request at hrequest
          split at hrequest
          · rw [← Except.error.inj hrequest]
            rfl
          · dsimp only at hrequest
            split at hrequest
            · exact nomatch hrequest
            · rw [← Except.error.inj hrequest]
              rfl
      | ok request =>
          rw [hrequest] at h
          change judge request (transport request) = _ at h
          unfold judge at h
          split at h
          · split at h
            · exact nomatch h
            · rw [← Except.error.inj h]
              rfl
          · rw [← Except.error.inj h]
            rfl
          · rw [← Except.error.inj h]
            rfl
          · rw [← Except.error.inj h]
            rfl

namespace Channel

/-- A readable line gives readable replies and stays readable. -/
theorem answer_readable {line : Line} (h : line.Readable) (n : Notification) :
    (answer line n).1.Readable ∧ (answer line n).2.2.Readable := by
  cases line with
  | relay =>
      unfold answer
      dsimp only
      split
      · exact ⟨Reply.readable_done nofun, trivial⟩
      · next error heq =>
        obtain ⟨message, rfl⟩ := Email.deliver_error heq
        exact ⟨Reply.readable_done nofun, trivial⟩
  | webhook client transport =>
      refine ⟨Reply.readable_done fun message heq => ?_, trivial⟩
      exact nomatch WebhookClient.deliver_error heq
  | script replies standing =>
      cases replies with
      | nil => exact ⟨h.2, h⟩
      | cons reply rest =>
          exact ⟨h.1 reply List.mem_cons_self,
            fun other hother => h.1 other (List.mem_cons_of_mem reply hother), h.2⟩

end Channel

namespace World

variable {w : World}

private theorem readable_change (h : w.Readable) {place : Nat} {change : Channel → Channel}
    (hchange : ∀ channel, w.channels[place]? = some channel → (change channel).line.Readable) :
    (w.changeChannel place change).Readable := by
  intro channel hchannel
  change channel ∈ w.channels.modify place change at hchannel
  obtain ⟨i, hi, rfl⟩ := List.mem_iff_getElem.mp hchannel
  rw [List.getElem_modify]
  split
  · next hplace =>
    subst hplace
    exact hchange _ (List.getElem?_eq_getElem _)
  · exact h _ (List.getElem_mem _)

/-- A call that is made keeps the channels readable, and so will its end be. -/
private theorem readable_startCall (h : w.Readable) (place : Nat) (n : Notification) :
    (w.startCall place n).2.Readable ∧
      ∀ due ending, (w.startCall place n).1.course = some (due, ending) → ending.Readable := by
  unfold startCall
  split
  · refine ⟨h, fun due ending hcourse => ?_⟩
    obtain ⟨-, rfl⟩ := Prod.mk.inj (Option.some.inj hcourse)
    exact trivial
  · next channel hchannel =>
    have hline := Channel.answer_readable (h channel (List.mem_of_getElem? hchannel)) n
    unfold Channel.start
    split
    · next error channel' hstart =>
      refine ⟨h, fun due ending hcourse => ?_⟩
      obtain ⟨-, rfl⟩ := Prod.mk.inj (Option.some.inj hcourse)
      split at hstart
      · exact nomatch (Prod.mk.inj hstart).1
      · obtain rfl := CallStart.refused.inj (Prod.mk.inj hstart).1
        exact trivial
    · next course entries channel' hstart =>
      split at hstart
      · obtain ⟨hunderWay, rfl⟩ := Prod.mk.inj hstart
        obtain ⟨rfl, -⟩ := CallStart.underWay.inj hunderWay
        refine ⟨readable_change h fun _ _ => hline.2, fun due ending hcourse => ?_⟩
        dsimp only at hcourse
        split at hcourse
        · next breaker _ =>
          obtain ⟨-, rfl⟩ := Prod.mk.inj (Option.some.inj hcourse)
          exact hline.1.courseWithin breaker.config.callTimeout
        · obtain ⟨⟨delay, ending'⟩, hreply, heq⟩ := Option.map_eq_some_iff.mp hcourse
          obtain ⟨-, rfl⟩ := Prod.mk.inj heq
          exact hline.1 delay _ hreply
      · exact nomatch (Prod.mk.inj hstart).1

private theorem readable_finishCall (h : w.Readable) (call : PendingCall) (ending : Ending) :
    (w.finishCall call ending).Readable := by
  unfold finishCall
  split
  · refine readable_change h fun channel hchannel => ?_
    have hline := h channel (List.mem_of_getElem? hchannel)
    unfold Channel.finish
    split <;> exact hline
  · exact h

/-- Calling a channel that can read keeps it so, and never gives the error that it cannot. -/
theorem readable_sendAndWait (h : w.Readable) (place : Nat) (n : Notification) :
    (w.sendAndWait place n).2.Readable ∧
      ∀ message, (w.sendAndWait place n).1 ≠ .done (.error (.deserialization message)) := by
  obtain ⟨hstart, hends⟩ := readable_startCall h place n
  unfold sendAndWait
  dsimp only
  split
  · exact ⟨hstart, nofun⟩
  · next due ending hcourse =>
    have hending := hends due ending hcourse
    have hfinish : World.Readable { (w.startCall place n).2 with
        channelMillis := max (w.startCall place n).2.channelMillis due } := hstart
    cases ending with
    | returned result =>
        refine ⟨readable_finishCall hfinish _ _, fun message heq => ?_⟩
        obtain rfl := Outcome.done.inj heq
        exact hending
    | brokenOff text => exact ⟨readable_finishCall hfinish _ _, nofun⟩

/-- No call makes a channel unreadable. -/
theorem readable_answer {w w' : World} (h : w.Readable) {c : Call} {o : Outcome c.Answer}
    (hanswer : w.answer c = (o, w')) : w'.Readable := by
  obtain rfl : w' = (w.answer c).2 := by rw [hanswer]
  cases c with
  | send place n => exact (readable_sendAndWait h place n).1
  | tally ledger what => cases ledger <;> exact h
  | _ => exact h

end World

/-! ## Rules of both kinds -/

namespace Rules

/-- What two sets of rules allow together. -/
def both (rules rules' : Rules) : Rules where
  runs op := rules.runs op ∧ rules'.runs op
  single task := rules.single task ∨ rules'.single task
  abandons task := rules.abandons task ∧ rules'.abandons task
  answers c a := rules.answers c a ∧ rules'.answers c a

theorem Preserves.both {rules rules' : Rules}
    {P P' : Books → List Answered → (Nat → Stand) → Prop} (h : rules.Preserves P)
    (h' : rules'.Preserves P') :
    (rules.both rules').Preserves fun b history stands => P b history stands ∧
      P' b history stands where
  starts := fun hb hP hover hruns hsingle =>
    ⟨h.starts hb hP.1 hover hruns.1 fun hone => hsingle (Or.inl hone),
      h'.starts hb hP.2 hover hruns.2 fun hone => hsingle (Or.inr hone)⟩
  moves := fun hb hP hmove heffect hanswer hserial =>
    ⟨h.moves hb hP.1 hmove heffect hanswer.1 hserial,
      h'.moves hb hP.2 hmove heffect hanswer.2 hserial⟩
  leaves := fun hb hP hleaves =>
    ⟨h.leaves hb hP.1 (hleaves.imp id fun ⟨task, habandons, htask⟩ => ⟨task, habandons.1, htask⟩),
      h'.leaves hb hP.2
        (hleaves.imp id fun ⟨task, habandons, htask⟩ => ⟨task, habandons.2, htask⟩)⟩

/-- One thread at a time, nothing unmarked, and channels that can read. -/
def calm : Rules := faulty.both (orderly True)

end Rules

/-- Every row that waits is kept, and by one token only. -/
def Books.Steady (b : Books) (history : List Answered) (stands : Nat → Stand) : Prop :=
  b.Kept history stands ∧ b.Orderly True stands

theorem Rules.preserves_steady : calm.Preserves Books.Steady :=
  preserves_kept.both (preserves_orderly True)

/-! ## A program on its own -/

namespace World

/-- A world in which a program at a stand meets no fault that would break the rules: once due
events were fetched, the error injected into the outbox is used up. -/
structure Serves (w : World) (s : Stand) : Prop where
  readable : w.Readable
  outbox : s.task = some .outbox → s ≠ .fetching → w.store.outboxError = none

variable {w w' : World} {s s' : Stand} {c : Call}

/-- Whatever an error waits for uses it up. -/
private theorem waiting_guarded {α : Type} {store : Store} (slot : Store.Slot)
    {run : Store → Store.Result α} (hrun : (run store).2.waiting slot = store.waiting slot) :
    (store.guarded slot run).2.waiting slot = none := by
  cases herror : store.waiting slot with
  | some message =>
      rw [Store.guarded_of_some slot herror]
      cases slot <;> rfl
  | none =>
      rw [Store.guarded_of_none slot herror]
      exact hrun.trans herror

/-- Nothing that is run on a store puts an error into a slot. -/
private theorem waiting_guarded_of_none {α : Type} {store : Store} {slot : Store.Slot}
    {run : Store → Store.Result α} (other : Store.Slot) (hnone : store.waiting slot = none)
    (hrun : (run store).2.waiting slot = none) :
    (store.guarded other run).2.waiting slot = none := by
  cases herror : store.waiting other with
  | some message =>
      rw [Store.guarded_of_some other herror]
      cases slot <;> cases other <;> first | exact hnone | rfl
  | none =>
      rw [Store.guarded_of_none other herror]
      exact hrun

private theorem waiting_changing_of_none {store : Store} {slot : Store.Slot}
    (hnone : store.waiting slot = none) (id : Uuid) (change : OutboxEvent → OutboxEvent) :
    (store.changing id change).2.waiting slot = none := by
  apply waiting_guarded_of_none .outbox hnone
  split
  · cases slot <;> exact hnone
  · exact hnone

/-- No call injects an error into the store. -/
theorem waiting_answer (slot : Store.Slot) (hnone : w.store.waiting slot = none) (c : Call) :
    (w.answer c).2.store.waiting slot = none := by
  cases c with
  | save n =>
      apply waiting_guarded_of_none .write hnone
      split
      · exact hnone
      · cases slot <;> exact hnone
  | saveWithOutbox n topic =>
      apply waiting_guarded_of_none .write hnone
      split
      · exact hnone
      · cases slot <;> exact hnone
  | dueEvents now limit => exact waiting_guarded_of_none .outbox hnone hnone
  | markPublished id => exact waiting_changing_of_none hnone _ _
  | markFailed id error next => exact waiting_changing_of_none hnone _ _
  | deletePublished cutoff =>
      refine waiting_guarded_of_none .outbox hnone ?_
      cases slot <;> exact hnone
  | send place n =>
      obtain ⟨channels, journal, millis, heq⟩ := w.sendAndWait_eq place n
      change (w.sendAndWait place n).2.store.waiting slot = none
      rw [heq]
      exact hnone
  | tally ledger what => cases ledger <;> exact hnone
  | _ => exact hnone

/-- Once due events were fetched the error injected into the outbox is used up, and no move brings
it back. -/
theorem outboxError_move
    (h : s.task = some .outbox → s ≠ .fetching → w.store.outboxError = none) {a : c.Answer}
    (hmove : Moves s c a s') (hanswer : w.answer c = (.done a, w')) (htask : s'.task = some .outbox)
    (hfetched : s' ≠ .fetching) : w'.store.outboxError = none := by
  obtain rfl : w' = (w.answer c).2 := by rw [hanswer]
  have hsame : s'.task = s.task := hmove.task_eq.resolve_left fun hnone => by
    rw [hnone] at htask
    exact nomatch htask
  by_cases hfetching : s = .fetching
  · subst hfetching
    cases hmove with
    | passes hc => exact absurd rfl hfetched
    | fails => exact nomatch htask
    | fetches => exact waiting_guarded .outbox rfl
  · exact waiting_answer .outbox (h (hsame ▸ htask) hfetching) c

/-- An event that the program has published is there to be marked. -/
theorem remembers (h : s.task = some .outbox → s ≠ .fetching → w.store.outboxError = none)
    {stands : Nat → Stand} {i : Nat} (horderly : w.books.Orderly True stands) (hi : stands i = s)
    {a : c.Answer} (hleads : ∀ a, ∃ s', Moves s c a s') (hanswer : w.answer c = (.done a, w')) :
    Answered.forgets ⟨c, a⟩ = false := by
  cases c with
  | markPublished id =>
      cases a with
      | ok _ => rfl
      | error error =>
          obtain ⟨s', hmove⟩ := hleads (.ok ())
          cases hmove with
          | passes hc => exact hc.elim
          | fails hc => exact nomatch hc.choose_spec
          | @marks e due =>
              have hstand := horderly.stands i
              rw [hi] at hstand
              obtain ⟨events, hchange⟩ := Store.exists_changeEvent (·.markPublished w.now)
                (hstand.2 e List.mem_cons_self).1
              have hmark : (w.store.markPublished e.id w.now).1 = .ok () :=
                congrArg Prod.fst (Store.changing_of_changeEvent (h rfl nofun) hchange)
              have hfailed : (w.store.markPublished e.id w.now).1 = .error error :=
                Outcome.done.inj (congrArg Prod.fst hanswer)
              exact nomatch hmark.symm.trans hfailed
  | _ => rfl

/-- With every move the world serves the program on. -/
private theorem Serves.move (h : w.Serves s) {a : c.Answer} (hmove : Moves s c a s')
    (hanswer : w.answer c = (.done a, w')) : w'.Serves s' :=
  ⟨readable_answer h.readable hanswer, outboxError_move h.outbox hmove hanswer⟩

/-- A program that is served gets only answers by the rules. -/
private theorem Serves.answers (h : w.Serves s) {stands : Nat → Stand} {i : Nat}
    (horderly : w.books.Orderly True stands) (hi : stands i = s) {a : c.Answer}
    (hleads : ∀ a, ∃ s', Moves s c a s') (hanswer : w.answer c = (.done a, w')) :
    Rules.calm.answers c a := by
  refine ⟨?_, remembers h.outbox horderly hi hleads hanswer⟩
  cases c with
  | send place n =>
      have hreadable := (readable_sendAndWait h.readable place n).2
      have hsend : (w.sendAndWait place n).1 = .done a := congrArg Prod.fst hanswer
      cases a with
      | ok _ => rfl
      | error error =>
          cases error with
          | deserialization message => exact absurd hsend (hreadable message)
          | _ => rfl
  | _ => rfl

/-- Only calls to channels may have no answer. -/
theorem unanswered {o : Outcome c.Answer} (h : w.answer c = (o, w'))
    (hnone : ∀ a, o ≠ .done a) : w'.books = w.books ∧ ∃ place n, c = .send place n := by
  obtain rfl : o = (w.answer c).1 := by rw [h]
  obtain rfl : w' = (w.answer c).2 := by rw [h]
  cases c with
  | send place n => exact ⟨w.books_sendAndWait place n, place, n, rfl⟩
  | _ => exact absurd rfl (hnone _)

end World

namespace Stand

/-- Where the only program stands. -/
def only (s : Stand) : Nat → Stand := Function.update (fun _ => .over) 0 s

theorem only_zero (s : Stand) : s.only 0 = s := by rw [only, Function.update_self]

theorem only_over : only .over = fun _ => .over := Function.update_eq_self 0 _

theorem update_only (s s' : Stand) : Function.update s.only 0 s' = s'.only :=
  Function.update_idem _ _ _

end Stand

namespace Prog

theorem run_bind {α β : Type} (p : Prog α) (f : α → Prog β) (w : World) :
    (p.bind f).run w = match p.run w with
      | (.done a, w') => (f a).run w'
      | (.crashed text, w') => (.crashed text, w')
      | (.stuck, w') => (.stuck, w') := by
  induction p generalizing w with
  | done a | crash text => rfl
  | ask c next ih =>
      rw [bind, run, run]
      rcases w.answer c with ⟨_ | _ | _, w'⟩
      · exact ih _ _
      · rfl
      · rfl

/-- What a program returns makes no difference to where it ends. -/
theorem world_run_discard {α : Type} (p : Prog α) (w : World) :
    ((p.bind fun _ => .done ()).run w).2 = (p.run w).2 := by
  rw [run_bind]
  rcases p.run w with ⟨_ | _ | _, w'⟩ <;> rfl

theorem run_bind_job {α β : Type} (job : Job β) (f : β → Job α) (w : World) :
    (job >>= f).run.run w = match job.run.run w with
      | (.done (.ok b), w') => (f b).run.run w'
      | (.done (.error error), w') => (.done (.error error), w')
      | (.crashed text, w') => (.crashed text, w')
      | (.stuck, w') => (.stuck, w') := by
  refine (run_bind job.run _ w).trans ?_
  rcases job.run.run w with ⟨(error | b) | _ | _, w'⟩ <;> rfl

theorem serial_le_run {α : Type} (p : Prog α) (w : World) :
    w.serial ≤ (p.run w).2.serial := by
  induction p generalizing w with
  | done a => exact Nat.le_refl _
  | crash text => exact Nat.le_refl _
  | ask c next ih =>
      rw [run]
      rcases hanswer : w.answer c with ⟨o, w'⟩
      cases o with
      | done a => exact (World.effect_of_answer hanswer).serial_le.trans (ih a w')
      | crashed text | stuck =>
          obtain ⟨hbooks, -⟩ := World.unanswered hanswer nofun
          exact (congrArg Books.serial hbooks).ge

/-- A program that is served, and that is the only one, leaves the books steady. -/
theorem run_steady {p : Prog Unit} {s : Stand} {w : World} {history : List Answered}
    (hleads : p.Leads s fun _ s => s.Rests) (hserves : w.Serves s)
    (hsteady : w.books.Retains Books.Steady history s.only)
    (hserial : (p.run w).2.serial ≤ Books.serialLimit) :
    (p.run w).2.Readable ∧
      ∃ history, (p.run w).2.books.Retains Books.Steady history Stand.over.only := by
  have hkeeps := Rules.preserves_steady.keeps fun _ hruns => hruns.1
  have hends {w : World} {s : Stand} {history : List Answered} (hreadable : w.Readable)
      (hrests : s.Rests) (hsteady : w.books.Retains Books.Steady history s.only) :
      w.Readable ∧ ∃ history, w.books.Retains Books.Steady history Stand.over.only := by
    have hleft := hkeeps.leaves (i := 0) hsteady (Or.inl hrests)
    rw [Stand.update_only] at hleft
    exact ⟨hreadable, history, hleft⟩
  induction p generalizing s w history with
  | done a => exact hends hserves.readable hleads hsteady
  | crash text => exact hends hserves.readable hleads hsteady
  | ask c next ih =>
      have hbefore := (serial_le_run (.ask c next) w).trans hserial
      rw [run] at hserial ⊢
      rcases hanswer : w.answer c with ⟨o, w'⟩
      rw [hanswer] at hserial
      cases o with
      | done a =>
          obtain ⟨s', hmove, hnext⟩ := hleads a
          obtain ⟨-, -, horderly⟩ := hsteady hbefore
          have hanswers := hserves.answers horderly s.only_zero
            (fun a => (hleads a).imp fun _ h => h.1) hanswer
          have hmoved := hkeeps.moves (i := 0) hsteady (s.only_zero.symm ▸ hmove)
            (World.effect_of_answer hanswer) hanswers
          rw [Stand.update_only] at hmoved
          exact ih a hnext (hserves.move hmove hanswer) hmoved hserial
      | crashed text | stuck =>
          obtain ⟨hbooks, place, n, rfl⟩ := World.unanswered hanswer nofun
          refine hends (World.readable_answer hserves.readable hanswer) ?_ (hbooks ▸ hsteady)
          obtain ⟨s', hmove, -⟩ := hleads (.ok ())
          cases hmove with
          | passes hc => exact hc.elim
          | fails hc => exact nomatch hc.choose_spec
          | delivers => exact nofun

end Prog

/-! ## Closed runs -/

/-- What can be done to a world in a closed run. -/
inductive Command where
  | run (op : Operation)
  | setClock (clock : Clock)
  | refusePublishes (topic : String) (count : Nat)
  | injectSaveError (message : String)
  | injectOutboxError (message : String)

namespace World

def obey (w : World) : Command → World
  | .run op => (op.program.run w).2
  | .setClock clock => { w with clock }
  | .refusePublishes topic count => { w with bus := w.bus.refuseNext topic count }
  | .injectSaveError message => { w with store := { w.store with saveError := some message } }
  | .injectOutboxError message => { w with store := { w.store with outboxError := some message } }

/-- The world after a closed run. -/
def after (w : World) (commands : List Command) : World := commands.foldl obey w

variable {w : World}

theorem serial_le_obey (w : World) (command : Command) : w.serial ≤ (w.obey command).serial := by
  cases command with
  | run op => exact op.program.serial_le_run w
  | _ => exact Nat.le_refl _

theorem serial_le_after (w : World) (commands : List Command) :
    w.serial ≤ (w.after commands).serial := by
  induction commands generalizing w with
  | nil => exact Nat.le_refl _
  | cons command commands ih => exact (w.serial_le_obey command).trans (ih _)

/-- Between the operations of a closed run the books are steady. -/
theorem after_steady {commands : List Command} {history : List Answered}
    (hcommands : ∀ op, Command.run op ∈ commands → op.task ≠ .delivery) (hreadable : w.Readable)
    (hsteady : w.books.Retains Books.Steady history Stand.over.only)
    (hserial : (w.after commands).serial ≤ Books.serialLimit) :
    ∃ history, (w.after commands).books.Retains Books.Steady history Stand.over.only := by
  induction commands generalizing w history with
  | nil => exact ⟨history, hsteady⟩
  | cons command commands ih =>
      have hrest : ∀ op, Command.run op ∈ commands → op.task ≠ .delivery :=
        fun op hop => hcommands op (List.mem_cons_of_mem command hop)
      have hbetween := (serial_le_after (w.obey command) commands).trans hserial
      cases command with
      | run op =>
          have hop := hcommands op List.mem_cons_self
          have hkeeps := Rules.preserves_steady.keeps fun _ hruns => hruns.1
          have hruns : Rules.calm.runs op := ⟨hop, hop, fun _ => trivial⟩
          have hstarted := hkeeps.starts (i := 0) hsteady Stand.over.only_zero hruns
            fun _ j => by rw [Stand.only_over]; exact nofun
          rw [Stand.update_only] at hstarted
          have hserves : w.Serves op.start := by
            refine ⟨hreadable, fun htask hfetched => ?_⟩
            cases op with
            | publishDue p limit => exact absurd rfl hfetched
            | _ => exact nomatch htask
          obtain ⟨hreadable', history', hsteady'⟩ :=
            Prog.run_steady op.leads_program hserves hstarted hbetween
          exact ih hrest hreadable' hsteady' hserial
      | _ => exact ih hrest hreadable hsteady hserial

end World

instance (r : Record) (n : Notification) : Decidable (r.Covers n) :=
  match h : r.snapshot with
  | some m =>
    decidable_of_iff (m.id = n.id ∧ n.retryCount ≤ m.retryCount) (by simp [Record.Covers, h])
  | none => isFalse (by simp [Record.Covers, h])

namespace World

/-- What keeps a notification in the pipeline: the pending events that promise to send it or to try
again, and the records on either topic that are still to be passed and carry it as it is. -/
def tokens (w : World) (n : Notification) : List Token :=
  (w.store.outbox.filter fun e => e.status = .pending ∧ e.notificationId = n.id ∧
      (e.topic = Topic.send.name ∨ e.topic = Topic.retry.name)).map (fun e => .promise e.id) ++
    [Topic.send, Topic.retry].flatMap fun topic =>
      ((w.bus.records topic.name).filter fun r => w.bus.cursor topic.subscription ≤ r.offset ∧
        r.Covers n).map fun r => .message topic r.offset

variable {w : World} {n : Notification} {t : Token}

private theorem mem_tokens : t ∈ w.tokens n ↔
    (∃ e ∈ w.books.events, e.status = .pending ∧ e.notificationId = n.id ∧
      (e.topic = Topic.send.name ∨ e.topic = Topic.retry.name) ∧ t = .promise e.id) ∨
    ∃ topic, (topic = .send ∨ topic = .retry) ∧ ∃ r ∈ w.books.records topic,
      w.books.cursor topic ≤ r.offset ∧ r.Covers n ∧ t = .message topic r.offset := by
  simp only [tokens, List.mem_append, List.mem_map, List.mem_flatMap, List.mem_filter,
    List.mem_cons, List.not_mem_nil, or_false, decide_eq_true_eq]
  constructor
  · rintro (⟨e, ⟨he, hpending, habout, hto⟩, rfl⟩ | ⟨topic, htopic, r, ⟨hr, hcursor, hcovers⟩, rfl⟩)
    · exact Or.inl ⟨e, he, hpending, habout, hto, rfl⟩
    · exact Or.inr ⟨topic, htopic, r, hr, hcursor, hcovers, rfl⟩
  · rintro (⟨e, he, hpending, habout, hto, rfl⟩ | ⟨topic, htopic, r, hr, hcursor, hcovers, rfl⟩)
    · exact Or.inl ⟨e, ⟨he, hpending, habout, hto⟩, rfl⟩
    · exact Or.inr ⟨topic, htopic, r, ⟨hr, hcursor, hcovers⟩, rfl⟩

private theorem nodup_tokens (hb : w.books.Sound) : (w.tokens n).Nodup := by
  have hmessages (topic : Topic) (keep : Record → Bool) :
      (((w.bus.records topic.name).filter keep).map fun r =>
        Token.message topic r.offset).Nodup := by
    have hoffsets : ((w.bus.records topic.name).filter keep).Pairwise (·.offset < ·.offset) :=
      (hb.records_ordered topic).sublist List.filter_sublist
    refine List.pairwise_map.mpr (hoffsets.imp fun hlt heq => ?_)
    exact absurd (Token.message.inj heq).2 (Int.ne_of_lt hlt)
  rw [tokens, List.nodup_append]
  refine ⟨?_, ?_, ?_⟩
  · apply List.pairwise_map.mpr
    have hids := List.pairwise_map.mp hb.events_nodup
    exact (hids.sublist List.filter_sublist).imp fun hne heq => hne (Token.promise.inj heq)
  · rw [List.flatMap_cons, List.flatMap_cons, List.flatMap_nil, List.append_nil, List.nodup_append]
    refine ⟨hmessages _ _, hmessages _ _, ?_⟩
    intro t ht t' ht' heq
    obtain ⟨r, -, rfl⟩ := List.mem_map.mp ht
    obtain ⟨r', -, rfl⟩ := List.mem_map.mp ht'
    exact nomatch (Token.message.inj heq).1
  · intro t ht t' ht' heq
    obtain ⟨e, -, rfl⟩ := List.mem_map.mp ht
    obtain ⟨topic, -, hmem⟩ := List.mem_flatMap.mp ht'
    obtain ⟨r, -, rfl⟩ := List.mem_map.mp hmem
    exact nomatch heq

private theorem live_of_mem_tokens (h : t ∈ w.tokens n) : w.books.Live Stand.over.only n t := by
  have hfree (id : Uuid) : ¬ Stand.Anyone (Stand.Announces id) Stand.over.only := by
    rw [Stand.only_over]
    rintro ⟨_, hannounces⟩
    exact hannounces
  rcases mem_tokens.mp h with ⟨e, he, hpending, habout, hto, rfl⟩ |
    ⟨topic, htopic, r, hr, hcursor, hcovers, rfl⟩
  · refine ⟨e, he, rfl, hpending, habout, ?_, hfree e.id⟩
    rcases hto with hsend | hretry
    · rw [hsend]
      decide
    · rw [hretry]
      decide
  · refine ⟨?_, r, hr, rfl, hcursor, hcovers⟩
    rcases htopic with rfl | rfl <;> exact nofun

private theorem mem_tokens_of_kept {history : List Answered} {stands : Nat → Stand}
    (h : w.books.Kept history stands) (hn : n ∈ w.books.rows) {topic : Topic}
    (htopic : topic = .send ∨ topic = .retry) (hstatus : n.status.topic = some topic) :
    ∃ t, t ∈ w.tokens n := by
  obtain ⟨id, -, hsecures⟩ := h.rows n hn topic hstatus
  rcases hsecures with ⟨e, he, -, hpending, habout, hto, -⟩ | hcarries
  · refine ⟨.promise e.id, mem_tokens.mpr (Or.inl ⟨e, he, hpending, habout, ?_, rfl⟩)⟩
    rcases htopic with rfl | rfl
    · exact Or.inl hto
    · exact Or.inr hto
  · rw [if_neg (by rcases htopic with rfl | rfl <;> exact nofun)] at hcarries
    obtain ⟨r, hr, hcursor, hcovers, -⟩ := hcarries
    exact ⟨.message topic r.offset, mem_tokens.mpr
      (Or.inr ⟨topic, htopic, r, hr, hcursor, hcovers, rfl⟩)⟩

/-- After a closed run in which no identifier was drawn twice, every notification that waits has
exactly one token. -/
theorem after_tokens {commands : List Command} (hblank : w.IsBlank) (hreadable : w.Readable)
    (hcommands : ∀ op, Command.run op ∈ commands → op.task ≠ .delivery)
    (hserial : (w.after commands).serial ≤ Books.serialLimit) :
    ∀ n ∈ (w.after commands).store.notifications, n.status = .pending ∨ n.status = .failed →
      ∃ t, (w.after commands).tokens n = [t] := by
  have hstart : w.books.Retains Books.Steady [] Stand.over.only := by
    rw [Stand.only_over]
    exact fun _ => ⟨⟨hblank.sound, fun _ => trivial⟩, hblank.kept, hblank.orderly True⟩
  obtain ⟨history, hsteady⟩ := after_steady hcommands hreadable hstart hserial
  obtain ⟨hconsistent, hkept, horderly⟩ := hsteady hserial
  intro n hn hwaits
  have hexists : ∃ t, t ∈ (w.after commands).tokens n := by
    rcases hwaits with hpending | hfailed
    · exact mem_tokens_of_kept hkept hn (Or.inl rfl) (by rw [hpending]; rfl)
    · exact mem_tokens_of_kept hkept hn (Or.inr rfl) (by rw [hfailed]; rfl)
  have hunique {t t' : Token} (ht : t ∈ (w.after commands).tokens n)
      (ht' : t' ∈ (w.after commands).tokens n) : t = t' :=
    horderly.single n hn hwaits t t' (live_of_mem_tokens ht) (live_of_mem_tokens ht')
  have hnodup := nodup_tokens (n := n) hconsistent.books
  obtain ⟨t, ht⟩ := hexists
  refine ⟨t, ?_⟩
  generalize (w.after commands).tokens n = ts at ht hunique hnodup
  cases ts with
  | nil => exact absurd ht List.not_mem_nil
  | cons first rest =>
      cases rest with
      | nil => rw [List.mem_singleton.mp ht]
      | cons second rest =>
          have heq := hunique List.mem_cons_self (List.mem_cons_of_mem first List.mem_cons_self)
          rw [heq] at hnodup
          exact absurd List.mem_cons_self (List.nodup_cons.mp hnodup).1

/-- A notification that was taken in, published and tried once without success has one token. -/
theorem after_tokens_failed :
    ∃ n t, n.status = .failed ∧
      ((Sample.world [.done (.error (.network "down"))]).after
        [.run (.submit Sample.request), .run (.publishDue (Sample.pipeline 5).publication 100),
          .run (.batch (Sample.pipeline 5) .loops .send)]).tokens n = [t] := by
  have hreadable : (Sample.world [.done (.error (.network "down"))]).Readable := by
    intro channel hchannel
    obtain rfl := List.mem_singleton.mp hchannel
    refine ⟨fun reply hreply => ?_, Reply.readable_done nofun⟩
    obtain rfl := List.mem_singleton.mp hreply
    exact Reply.readable_done nofun
  have hcommands : ∀ op, Command.run op ∈
      [Command.run (.submit Sample.request),
        .run (.publishDue (Sample.pipeline 5).publication 100),
        .run (.batch (Sample.pipeline 5) .loops .send)] → op.task ≠ .delivery := by
    intro op hop
    simp only [List.mem_cons, Command.run.injEq, List.not_mem_nil, or_false] at hop
    rcases hop with rfl | rfl | rfl <;> exact nofun
  have hfailed : ∃ n ∈ ((Sample.world [.done (.error (.network "down"))]).after
      [.run (.submit Sample.request), .run (.publishDue (Sample.pipeline 5).publication 100),
        .run (.batch (Sample.pipeline 5) .loops .send)]).store.notifications,
      n.status = .failed := by
    decide +kernel
  obtain ⟨n, hn, hstatus⟩ := hfailed
  obtain ⟨t, ht⟩ := after_tokens (Sample.isBlank_world _) hreadable hcommands (by decide +kernel) n
    hn (Or.inr hstatus)
  exact ⟨n, t, hstatus, ht⟩

end World
end Courier
