import Courier.Proofs.Alone.Attempts
import Courier.Proofs.Backoff

/-!
Surroundings in which nothing stops a pipeline: no error waits in the store, every medium has a
channel, a channel that is called comes to an end with success or with a failure to deliver, and
all times that may be computed can be represented. No call changes that, so it holds throughout
every run, and jobs can be followed from value to value.
-/

namespace Courier

/-! ## Channels that come to an end -/

/-- A call to a channel ends with success, or with a failure to deliver. -/
def Ending.Settled : Ending → Prop
  | .returned (.ok _) => True
  | .returned (.error error) => error.isDeliveryFailure = true
  | .brokenOff _ => False

/-- How a call with this reply ends that is cut off after a budget, if there is one. -/
def Reply.endsWithin (reply : Reply) : Option Duration → Option (Nat × Ending)
  | some budget => some (reply.courseWithin budget)
  | none => reply.course

def Reply.Settled (reply : Reply) (budget : Option Duration) : Prop :=
  ∃ delay ending, reply.endsWithin budget = some (delay, ending) ∧ ending.Settled

/-- After how long a call to the channel is cut off, if it is. -/
def Channel.budget (c : Channel) : Option Duration := c.breaker.map (·.config.callTimeout)

/-- Every call to the channel is settled. Only one with scripted replies could do otherwise. -/
def Channel.Settles (c : Channel) : Prop :=
  match c.line with
  | .script replies standing => ∀ reply ∈ standing :: replies, reply.Settled c.budget
  | _ => True

theorem Reply.settled_done {result : Except DeliveryError Unit}
    (h : ∀ error, result = .error error → error.isDeliveryFailure = true)
    (budget : Option Duration) : (done result).Settled budget := by
  refine ⟨0, .returned result, ?_, ?_⟩
  · cases budget with
    | none => rfl
    | some budget => simp [endsWithin, courseWithin, course]
  · cases result with
    | ok _ => exact trivial
    | error error => exact h error rfl

namespace Channel

variable {c : Channel} {n : Notification} {now : Instant}

theorem Settles.answer (h : c.Settles) (n : Notification) :
    (Channel.answer c.line n).1.Settled c.budget ∧
      ∀ calls, { c with line := (Channel.answer c.line n).2.2, calls }.Settles := by
  unfold Settles at h ⊢
  cases hline : c.line with
  | relay =>
      unfold Channel.answer
      cases hdeliver : Email.deliver n with
      | ok entry => exact ⟨Reply.settled_done (by simp) _, fun _ => trivial⟩
      | error error =>
          obtain ⟨message, rfl⟩ := Email.deliver_error hdeliver
          refine ⟨Reply.settled_done (fun error heq => ?_) _, fun _ => trivial⟩
          rw [← Except.error.inj heq]
          rfl
  | webhook client transport =>
      exact ⟨Reply.settled_done (fun error heq => WebhookClient.deliver_error heq) _,
        fun _ => trivial⟩
  | script replies standing =>
      rw [hline] at h
      cases replies with
      | nil => exact ⟨h standing List.mem_cons_self, fun _ => h⟩
      | cons reply rest =>
          refine ⟨h reply (by simp), fun _ other hother => h other ?_⟩
          simp only [List.mem_cons] at hother ⊢
          exact hother.imp_right Or.inr

/-- A call is refused with a failure to deliver, or under way to a settled end. -/
theorem Settles.start (h : c.Settles) (n : Notification) (now : Instant) :
    (∃ error, error.isDeliveryFailure = true ∧ c.start n now = (.refused error, c)) ∨
      ∃ delay ending entries c', ending.Settled ∧ c'.Settles ∧
        c.start n now = (.underWay (some (delay, ending)) entries, c') := by
  obtain ⟨⟨delay, ending, hends, hending⟩, hline⟩ := h.answer n
  by_cases hallows : (c.breaker.map (·.allows now)).getD true = true
  · let entries := (Channel.answer c.line n).2.1
    refine Or.inr ⟨delay, ending, entries, _, hending, hline (c.calls + 1), ?_⟩
    unfold Channel.start
    rw [if_pos hallows, ← hends, budget]
    cases c.breaker <;> rfl
  · exact Or.inl ⟨.circuitOpen c.name, rfl, if_neg hallows⟩

theorem Settles.finish (h : c.Settles) (ending : Ending) (now : Instant) :
    (c.finish ending now).Settles := by
  have hsame {c' : Channel} (hline : c'.line = c.line) (hbudget : c'.budget = c.budget) :
      c'.Settles := by
    unfold Settles
    rw [hline, hbudget]
    exact h
  unfold Channel.finish
  split
  · next breaker result hbreaker => exact hsame rfl (by simp [budget, hbreaker]; rfl)
  · next breaker error hbreaker =>
    refine hsame rfl ?_
    simp only [budget, hbreaker, Option.map_some, Breaker.recordFailure]
    split <;> rfl
  · exact h

end Channel

/-- A settled call ends with a result. -/
theorem Ending.Settled.returned {ending : Ending} (h : ending.Settled) :
    ∃ result, ending = .returned result ∧
      ∀ error, result = .error error → error.isDeliveryFailure = true := by
  cases ending with
  | returned result =>
      refine ⟨result, rfl, fun error heq => ?_⟩
      rwa [heq] at h
  | brokenOff text => exact h.elim

namespace World

variable {w : World} {place : Nat} {n : Notification}

/-- What a call to a channel comes to that settles. -/
theorem sendAndWait_settles (h : ∀ channel ∈ w.channels, channel.Settles)
    (hplace : place < w.channels.length) (n : Notification) :
    ∃ result, (w.sendAndWait place n).1 = .done result ∧
      (∀ error, result = .error error → error.isDeliveryFailure = true) ∧
      (w.sendAndWait place n).2.channels.length = w.channels.length ∧
      ∀ channel ∈ (w.sendAndWait place n).2.channels, channel.Settles := by
  have hget : w.channels[place]? = some w.channels[place] := List.getElem?_eq_getElem hplace
  have hmodify {channels : List Channel} {change : Channel → Channel}
      (h : ∀ channel ∈ channels, channel.Settles)
      (hchange : ∀ channel, channel.Settles → (change channel).Settles) :
      ∀ channel ∈ channels.modify place change, channel.Settles := by
    intro channel hchannel
    obtain ⟨i, hi, rfl⟩ := List.mem_iff_getElem.mp hchannel
    rw [List.getElem_modify]
    split
    · exact hchange _ (h _ (List.getElem_mem _))
    · exact h _ (List.getElem_mem _)
  rcases (h _ (List.getElem_mem hplace)).start n w.now with
    ⟨error, hfailure, hstart⟩ | ⟨delay, ending, entries, channel, hending, hsettles, hstart⟩
  · have hcall : w.startCall place n =
        (⟨place, false, some (w.channelMillis, .returned (.error error))⟩, w) := by
      simp only [startCall, hget, hstart]
    refine ⟨.error error, ?_, ?_, ?_, ?_⟩
    · simp only [sendAndWait, hcall]
    · exact fun other heq => Except.error.inj heq ▸ hfailure
    · simp only [sendAndWait, hcall, finishCall]
      rfl
    · simp only [sendAndWait, hcall, finishCall]
      exact h
  · obtain ⟨result, rfl, hresult⟩ := hending.returned
    have hcall : w.startCall place n =
        (⟨place, true, some (w.channelMillis + delay, .returned result)⟩,
          { w.changeChannel place fun _ => channel with journal := w.journal ++ entries }) := by
      simp only [startCall, hget, hstart, Option.map_some]
    refine ⟨result, ?_, hresult, ?_, ?_⟩
    · simp only [sendAndWait, hcall]
    · simp only [sendAndWait, hcall, finishCall, changeChannel, if_true, List.length_modify]
    · simp only [sendAndWait, hcall, finishCall, changeChannel, if_true]
      exact hmodify (hmodify h fun _ _ => hsettles) fun channel hchannel =>
        hchannel.finish _ _

end World

/-! ## Times that can be represented -/

/-- All times that a pipeline may compute now: those for events that could not be published, and
those for attempts that fail, whatever jitter is added. -/
structure Pipeline.Timely (p : Pipeline) (w : World) : Prop where
  postpones : ∃ later, w.now.plus p.publication.postponement = .ok later
  decides : ∀ medium count, ∀ jitter < Backoff.jitterBound,
    ∃ decision, p.backoff.decide medium count w.now jitter = .ok decision

namespace World

variable {w w' : World}

theorem serial_count (w : World) (ledger : Ledger) (what : Tally) :
    (w.count ledger what).serial = w.serial := by
  cases ledger <;> rfl

/-- No call moves the clock. -/
theorem clock_answer (w : World) (c : Call) : (w.answer c).2.clock = w.clock := by
  cases c with
  | send place n =>
      obtain ⟨channels, journal, millis, heq⟩ := w.sendAndWait_eq place n
      change (w.sendAndWait place n).2.clock = w.clock
      rw [heq]
  | tally ledger what => cases ledger <;> rfl
  | _ => rfl

/-- Only calls to channels change channels. -/
theorem channels_answer {c : Call} (hc : ¬ c.IsSend) : (w.answer c).2.channels = w.channels := by
  cases c with
  | send place n => exact absurd trivial hc
  | tally ledger what => cases ledger <;> rfl
  | _ => rfl

/-- Whatever is called, as many channels settle all calls as before. -/
theorem settles_answer (h : ∀ channel ∈ w.channels, channel.Settles) (c : Call) :
    (w.answer c).2.channels.length = w.channels.length ∧
      ∀ channel ∈ (w.answer c).2.channels, channel.Settles := by
  by_cases hc : c.IsSend
  · cases c with
    | send place n =>
        by_cases hplace : place < w.channels.length
        · obtain ⟨-, -, -, hkept⟩ := sendAndWait_settles h hplace n
          exact hkept
        · have hnone : w.channels[place]? = none :=
            List.getElem?_eq_none (Nat.le_of_not_lt hplace)
          have hsame : (w.answer (.send place n)).2.channels = w.channels := by
            simp only [answer, sendAndWait, startCall, hnone, finishCall]
            rfl
          rw [hsame]
          exact ⟨rfl, h⟩
    | _ => exact hc.elim
  · rw [channels_answer hc]
    exact ⟨rfl, h⟩

end World

/-! ## Unhindered pipelines -/

/-- Nothing in the world stops the pipeline. -/
structure Pipeline.Unhindered (p : Pipeline) (w : World) : Prop where
  saveError : w.store.saveError = none
  outboxError : w.store.outboxError = none
  channels : ∀ channel ∈ w.channels, channel.Settles
  finds : ∀ medium, ∃ place name,
    p.registry.find medium = .ok (place, name) ∧ place < w.channels.length
  timely : p.Timely w

namespace Pipeline.Unhindered

variable {p : Pipeline} {w : World}

theorem answer (h : p.Unhindered w) (c : Call) : p.Unhindered (w.answer c).2 := by
  have hchannels := World.settles_answer h.channels c
  have hnow : (w.answer c).2.now = w.now := congrArg Clock.now (w.clock_answer c)
  exact {
    saveError := World.waiting_answer .write h.saveError c
    outboxError := World.waiting_answer .outbox h.outboxError c
    channels := hchannels.2
    finds := by
      rw [hchannels.1]
      exact h.finds
    timely := {
      postpones := by
        rw [hnow]
        exact h.timely.postpones
      decides := by
        rw [hnow]
        exact h.timely.decides } }

theorem run {α : Type} (h : p.Unhindered w) (program : Prog α) :
    p.Unhindered (program.run w).2 := by
  induction program generalizing w with
  | done a | crash text => exact h
  | ask c next ih =>
      have hnext := h.answer c
      rw [Prog.run]
      rcases hanswer : w.answer c with ⟨a | _ | _, w'⟩ <;> rw [hanswer] at hnext
      · exact ih a hnext
      · exact hnext
      · exact hnext

end Pipeline.Unhindered

/-- Nothing stops the pipeline in a small world whose channel fails to deliver. -/
theorem Sample.unhindered :
    (pipeline 5).Unhindered (world [.done (.error (.network "down"))]) where
  saveError := rfl
  outboxError := rfl
  channels := by
    intro channel hchannel
    obtain rfl := List.mem_singleton.mp hchannel
    intro reply hreply
    rcases List.mem_cons.mp hreply with rfl | hreply
    · exact Reply.settled_done (by simp) _
    · obtain rfl := List.mem_singleton.mp hreply
      exact Reply.settled_done (by simp [DeliveryError.isDeliveryFailure]) _
  finds := by
    intro medium
    cases medium <;> exact ⟨0, "channel", rfl, Nat.zero_lt_one⟩
  timely := by
    have hlater : (world [.done (.error (.network "down"))]).now.plus
        (pipeline 5).publication.postponement = .ok ⟨5, 0, by decide, by decide, by decide⟩ := by
      decide +kernel
    have hlongest (medium : Medium) : (world [.done (.error (.network "down"))]).now.plus
        ((pipeline 5).backoff.policyFor medium).maxDelay =
          .ok ⟨300, 0, by decide, by decide, by decide⟩ := by
      cases medium <;> decide +kernel
    exact ⟨⟨_, hlater⟩, fun medium count jitter _ =>
      Backoff.exists_decide (by decide) ⟨_, hlongest medium⟩ count jitter⟩

/-! ## Jobs that return -/

namespace Job

variable {α β : Type} {w : World} {Q : α → World → Prop}

/-- The job returns a value and leaves a world of which this is true. -/
def Ensures (job : Job α) (w : World) (Q : α → World → Prop) : Prop :=
  ∃ a w', job.run.run w = (.done (.ok a), w') ∧ Q a w'

theorem ensures_pure {a : α} (h : Q a w) : Ensures (pure a) w Q := ⟨a, w, rfl, h⟩

theorem ensures_bind {job : Job β} {f : β → Job α} {R : β → World → Prop} (hjob : job.Ensures w R)
    (hf : ∀ b w', job.run.run w = (.done (.ok b), w') → R b w' → (f b).Ensures w' Q) :
    (job >>= f).Ensures w Q := by
  obtain ⟨b, w', hrun, hR⟩ := hjob
  obtain ⟨a, w'', hrun', hQ⟩ := hf b w' hrun hR
  refine ⟨a, w'', ?_, hQ⟩
  rw [Prog.run_bind_job, hrun]
  exact hrun'

theorem ensures_mono {job : Job α} {R : α → World → Prop} (hjob : job.Ensures w R)
    (h : ∀ a w', R a w' → Q a w') : job.Ensures w Q := by
  obtain ⟨a, w', hrun, hR⟩ := hjob
  exact ⟨a, w', hrun, h a w' hR⟩

theorem ensures_call {c : Call} {a : c.Answer} {w' : World} {Q : c.Answer → World → Prop}
    (hanswer : w.answer c = (.done a, w')) (h : Q a w') : (Job.call c).Ensures w Q := by
  refine ⟨a, w', ?_, h⟩
  change (Prog.ask c _).run w = _
  rw [Prog.run, hanswer]
  rfl

/-- A call of the store that is answered without an error. -/
theorem ensures_store {c : Call} {p : c.Answer → Except StoreError α} {a : α} {answer : c.Answer}
    {w' : World} (hanswer : w.answer c = (.done answer, w')) (hok : p answer = .ok a)
    (h : Q a w') : (Job.store (.ask c fun answer => .done (p answer))).Ensures w Q := by
  refine ⟨a, w', ?_, h⟩
  change (Prog.ask c fun answer => .done ((p answer).mapError DeliveryError.ofStore)).run w = _
  rw [Prog.run, hanswer]
  dsimp only
  rw [hok]
  rfl

theorem ensures_outcome {job : Job β} {result : Except DeliveryError β} {w' : World}
    {Q : Except DeliveryError β → World → Prop} (hjob : job.run.run w = (.done result, w'))
    (h : Q result w') : job.outcome.Ensures w Q := by
  refine ⟨result, w', ?_, h⟩
  refine (Prog.run_bind job.run _ w).trans ?_
  rw [hjob]
  rfl

end Job

theorem Prog.run_of_perform {α : Type} {p : Prog α} {s s' : Account} {a : α}
    (h : p.perform s = (.returned a, s')) : p.run s.world = (.done a, s'.world) := by
  induction p generalizing s with
  | done b =>
      obtain ⟨hclose, rfl⟩ := Prod.mk.inj h
      obtain rfl := Close.returned.inj hclose
      rfl
  | crash text => cases (Prod.mk.inj h).1
  | ask c next ih =>
      rw [perform] at h
      rw [run]
      rcases hanswer : s.world.answer c with ⟨answer | _ | _, world⟩ <;> rw [hanswer] at h
      · exact ih answer h
      · cases (Prod.mk.inj h).1
      · cases (Prod.mk.inj h).1

/-- A job that is told always to return a value. -/
theorem Job.ensures_of_runsAs {α : Type} {job : Job α} {w : World} {Q : α → World → Prop}
    (h : job.run.RunsAs w fun close w' _ => ∃ a, close = .returned (.ok a) ∧ Q a w') :
    job.Ensures w Q := by
  obtain ⟨_, w', _, hperform, a, rfl, hQ⟩ := h []
  exact ⟨a, w', Prog.run_of_perform hperform, hQ⟩

end Courier
