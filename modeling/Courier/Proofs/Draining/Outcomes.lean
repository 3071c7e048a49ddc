import Courier.Proofs.Alone.Transitions
import Courier.Proofs.Draining.Surroundings

/-!
What a job comes to that runs alone and returns: its value, the world it leaves, and the calls of
channels on the way. What was on record before makes no difference to that. For the jobs that make
up a delivery the bus makes none either: they come to the same with any other bus, which they leave
as it is.
-/

namespace Courier

/-! ## Values, worlds and calls of channels -/

/-- What was on record before makes no difference to how a program goes on. -/
theorem Prog.perform_append {α : Type} (p : Prog α) (w : World) (calls history : List Answered) :
    p.perform ⟨w, calls ++ history⟩ = ((p.perform ⟨w, calls⟩).1,
      ⟨(p.perform ⟨w, calls⟩).2.world, (p.perform ⟨w, calls⟩).2.history ++ history⟩) := by
  induction p generalizing w calls with
  | done a | crash text => rfl
  | ask c next ih =>
      rw [perform, perform]
      dsimp only
      rcases w.answer c with ⟨a | _ | _, world⟩
      · exact ih a world (⟨c, a⟩ :: calls)
      · rfl
      · rfl

/-- A program that runs as told does so in one way. -/
theorem Prog.RunsAs.exists_calls {α : Type} {p : Prog α} {w : World}
    {told : Close α → World → List Answered → Prop} (h : p.RunsAs w told) :
    ∃ close w' calls, told close w' calls ∧
      ∀ history, p.perform ⟨w, history⟩ = (close, ⟨w', calls ++ history⟩) := by
  obtain ⟨close, w', calls, hperform, htold⟩ := h []
  refine ⟨close, w', calls, htold, fun history => ?_⟩
  have happend := p.perform_append w [] history
  rw [hperform, List.append_nil, List.nil_append] at happend
  exact happend

namespace Job

variable {α β : Type} {w w' w'' : World} {sends more : List (Nat × Notification)}

/-- The job returns a value and leaves a world, and on the way it calls these channels for these
notifications, the latest first. -/
def ComesTo (job : Job α) (w : World) (a : α) (w' : World) (sends : List (Nat × Notification)) :
    Prop :=
  ∃ calls, (∀ history, job.run.perform ⟨w, history⟩ =
    (.returned (.ok a), ⟨w', calls ++ history⟩)) ∧ calls.filterMap Answered.addressed? = sends

theorem comesTo_pure (a : α) (w : World) : (pure a : Job α).ComesTo w a w [] :=
  ⟨[], fun _ => rfl, rfl⟩

theorem comesTo_bind {job : Job β} {f : β → Job α} {b : β} {a : α}
    (hjob : job.ComesTo w b w' sends) (hf : (f b).ComesTo w' a w'' more) :
    (job >>= f).ComesTo w a w'' (more ++ sends) := by
  obtain ⟨calls, hperform, rfl⟩ := hjob
  obtain ⟨calls', hperform', rfl⟩ := hf
  refine ⟨calls' ++ calls, fun history => ?_, List.filterMap_append⟩
  rw [Prog.perform_bind_job, hperform]
  dsimp only
  rw [hperform', List.append_assoc]

/-- A job that calls no channel, and then another one. -/
theorem comesTo_seq {job : Job β} {f : β → Job α} {b : β} {a : α}
    (hjob : job.ComesTo w b w' []) (hf : (f b).ComesTo w' a w'' sends) :
    (job >>= f).ComesTo w a w'' sends := by
  have hbind := comesTo_bind hjob hf
  rwa [List.append_nil] at hbind

/-- A job, and then nothing but a value made of what it returns. -/
theorem comesTo_last {job : Job β} {f : β → Job α} {b : β} {a : α}
    (hjob : job.ComesTo w b w' sends) (hf : f b = pure a) : (job >>= f).ComesTo w a w' sends :=
  comesTo_bind hjob (hf ▸ comesTo_pure a w')

theorem comesTo_outcome {job : Job α} {a : α} (h : job.ComesTo w a w' sends) :
    job.outcome.ComesTo w (.ok a) w' sends := by
  obtain ⟨calls, hperform, rfl⟩ := h
  refine ⟨calls, fun history => ?_, rfl⟩
  refine (Prog.perform_bind job.run _ _).trans ?_
  rw [hperform]
  rfl

/-- A single call, but for one of a channel. -/
theorem comesTo_ask {job : Job α} {c : Call} {next : c.Answer → Prog (Except DeliveryError α)}
    {answer : c.Answer} {a : α} (hjob : job.run = .ask c next)
    (hanswer : w.answer c = (.done answer, w'))
    (hquiet : (Answered.mk c answer).addressed? = none) (hnext : next answer = .done (.ok a)) :
    job.ComesTo w a w' [] := by
  refine ⟨[⟨c, answer⟩], fun history => ?_, List.filterMap_cons_none hquiet⟩
  rw [hjob, Prog.perform]
  dsimp only
  rw [hanswer]
  dsimp only
  rw [hnext]
  rfl

namespace ComesTo

variable {job : Job α} {a : α}

theorem run (h : job.ComesTo w a w' sends) : job.run.run w = (.done (.ok a), w') := by
  obtain ⟨calls, hperform, -⟩ := h
  exact Prog.run_of_perform (hperform [])

theorem perform (h : job.ComesTo w a w' sends) (s : Account) (hs : s.world = w) :
    ∃ s', job.run.perform s = (.returned (.ok a), s') ∧ s'.world = w' ∧
      s'.addressed = sends ++ s.addressed := by
  obtain ⟨calls, hperform, rfl⟩ := h
  subst hs
  exact ⟨_, hperform s.history, rfl, List.filterMap_append⟩

/-- What a job comes to is what it returned and the world it left. -/
theorem eq_of_perform {s s' : Account} {b : α} (h : job.ComesTo s.world a w' sends)
    (hperform : job.run.perform s = (.returned (.ok b), s')) : b = a ∧ s'.world = w' := by
  obtain ⟨after, hperform', hworld, -⟩ := h.perform s rfl
  obtain ⟨hvalue, rfl⟩ := Prod.mk.inj (hperform.symm.trans hperform')
  exact ⟨Except.ok.inj (Close.returned.inj hvalue), hworld⟩

end ComesTo

/-- What returns a value after another job goes on from a value of that one. -/
theorem returned_of_bind {job : Job β} {f : β → Job α} {s : Account} {a : α}
    (h : ((job >>= f).run.perform s).1 = .returned (.ok a)) :
    ∃ b s', job.run.perform s = (.returned (.ok b), s') ∧
      ((f b).run.perform s').1 = .returned (.ok a) := by
  rw [Prog.perform_bind_job] at h
  rcases hjob : job.run.perform s with ⟨(error | b) | _ | _, s'⟩ <;> rw [hjob] at h
  · cases h
  · exact ⟨b, s', rfl, h⟩
  · cases h
  · cases h

/-- A job that runs as told comes to what it is told to. -/
theorem exists_comesTo {job : Job α}
    (told : α → World → List (Nat × Notification) → Prop)
    (h : job.run.RunsAs w fun close w' calls =>
      ∃ a, close = .returned (.ok a) ∧ told a w' (calls.filterMap Answered.addressed?)) :
    ∃ a w' sends, job.ComesTo w a w' sends ∧ told a w' sends := by
  obtain ⟨_, w', calls, ⟨a, rfl, htold⟩, hperform⟩ := h.exists_calls
  exact ⟨a, w', _, ⟨calls, hperform, rfl⟩, htold⟩

end Job

/-! ## Other buses -/

/-- The world with another bus. -/
def World.withBus (w : World) (b : Bus) : World := { w with bus := b }

/-- The calls of a delivery are answered alike with any bus. -/
theorem World.answer_withBus (w : World) (b : Bus) {c : Call} (hc : c.Delivers) :
    (w.withBus b).answer c = ((w.answer c).1, (w.answer c).2.withBus b) := by
  cases c with
  | send place n =>
      obtain ⟨channels, journal, millis, heq⟩ := w.sendAndWait_eq place n
      refine (w.sendAndWait_with w.store b w.pipelineStats w.loopStats place n).trans ?_
      change _ = ((w.sendAndWait place n).1, (w.sendAndWait place n).2.withBus b)
      rw [heq]
      rfl
  | tally ledger what => cases ledger <;> rfl
  | publish | poll | commit | prune => exact (hc.elim id id).elim
  | _ => rfl

theorem Prog.perform_withBus {α : Type} {p : Prog α} (hp : p.Asks Call.Delivers) (w : World)
    (b : Bus) (history : List Answered) :
    p.perform ⟨w.withBus b, history⟩ = ((p.perform ⟨w, history⟩).1,
      ⟨(p.perform ⟨w, history⟩).2.world.withBus b, (p.perform ⟨w, history⟩).2.history⟩) := by
  induction p generalizing w history with
  | done a | crash text => rfl
  | ask c next ih =>
      have hanswer := w.answer_withBus b hp.1
      rw [perform, perform]
      dsimp only
      rw [hanswer]
      rcases w.answer c with ⟨a | _ | _, world⟩
      · exact ih a (hp.2 a) world _
      · rfl
      · rfl

theorem Job.ComesTo.withBus {α : Type} {job : Job α} {w w' : World} {a : α}
    {sends : List (Nat × Notification)} (h : job.ComesTo w a w' sends)
    (hasks : job.run.Asks Call.Delivers) (b : Bus) :
    job.ComesTo (w.withBus b) a (w'.withBus b) sends := by
  obtain ⟨calls, hperform, hsends⟩ := h
  refine ⟨calls, fun history => ?_, hsends⟩
  rw [Prog.perform_withBus hasks, hperform]

end Courier
