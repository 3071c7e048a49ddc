import Courier.Proofs.Alone.Punctuality

/-!
What is seen of a program from outside: its calls in their order, each with its answer, and for
each publication the offset at which the record comes to stand. A program knows nothing else of
the world in which it runs. So where two worlds give it the same to see, it does the same in both.
-/

namespace Courier

/-- A call as it is seen from outside. -/
structure Sight where
  call : Call
  answer : Outcome call.Answer
  /-- Where the next record of the topic is put that is published to, if any is. -/
  offset : Option Int

def World.sight (w : World) (c : Call) : Sight where
  call := c
  answer := (w.answer c).1
  offset := match c with
    | .publish topic _ _ => some (w.bus.log topic).head
    | _ => none

theorem World.answer_eq_of_sight {v w : World} {c : Call} (h : v.sight c = w.sight c) :
    (v.answer c).1 = (w.answer c).1 :=
  eq_of_heq (Sight.mk.inj h).2.1

namespace Prog

variable {α β : Type}

/-- What is seen of a program that runs in a world. -/
def sights (p : Prog α) (w : World) : List Sight := (p.calls w).map fun (w, c) => w.sight c

theorem sights_ask (c : Call) (next : c.Answer → Prog α) (w : World) :
    (ask c next).sights w = w.sight c :: match w.answer c with
      | (.done a, w') => (next a).sights w'
      | _ => [] := by
  rw [sights, calls]
  rcases w.answer c with ⟨_ | _ | _, w'⟩ <;> rfl

/-- What a program returns makes no difference to what is seen of it. -/
theorem sights_discard (p : Prog α) (w : World) :
    (p.bind fun _ => .done ()).sights w = p.sights w := by
  rw [sights, calls_bind]
  rcases p.run w with ⟨_ | _ | _, w'⟩ <;> exact congrArg _ (List.append_nil _)

variable {v w : World}

/-- If the same is seen of a program that begins with a call, then of the call and of what
follows. -/
theorem sights_ask_eq {c : Call} {next : c.Answer → Prog α}
    (h : (ask c next).sights v = (ask c next).sights w) :
    v.sight c = w.sight c ∧ ∀ a, (v.answer c).1 = .done a →
      (next a).sights (v.answer c).2 = (next a).sights (w.answer c).2 := by
  rw [sights_ask, sights_ask, List.cons.injEq] at h
  obtain ⟨hsight, hrest⟩ := h
  have hanswer := World.answer_eq_of_sight hsight
  refine ⟨hsight, fun a ha => ?_⟩
  rcases hv : v.answer c with ⟨o, v'⟩
  rcases hw : w.answer c with ⟨o', w'⟩
  rw [hv] at hrest ha hanswer
  rw [hw] at hrest hanswer
  obtain rfl : o = .done a := ha
  obtain rfl : .done a = o' := hanswer
  exact hrest

theorem outcome_eq_of_sights {p : Prog α} (h : p.sights v = p.sights w) :
    (p.run v).1 = (p.run w).1 := by
  induction p generalizing v w with
  | done a | crash text => rfl
  | ask c next ih =>
      obtain ⟨hsight, hnext⟩ := sights_ask_eq h
      have hanswer := World.answer_eq_of_sight hsight
      rw [run, run]
      rcases hv : v.answer c with ⟨o, v'⟩
      rcases hw : w.answer c with ⟨o', w'⟩
      rw [hv, hw] at hanswer hnext
      obtain rfl : o = o' := hanswer
      cases o with
      | done a => exact ih a (hnext a rfl)
      | crashed text | stuck => rfl

/-- If the same is seen of two programs, one after the other, then of each of them. -/
theorem sights_bind_eq {p : Prog α} {f : α → Prog β}
    (h : (p.bind f).sights v = (p.bind f).sights w) :
    p.sights v = p.sights w ∧ ∀ a, (p.run v).1 = .done a →
      (f a).sights (p.run v).2 = (f a).sights (p.run w).2 := by
  induction p generalizing v w with
  | done a =>
      refine ⟨rfl, fun b hb => ?_⟩
      obtain rfl := Outcome.done.inj hb
      exact h
  | crash text =>
      refine ⟨rfl, fun b hb => ?_⟩
      cases hb
  | ask c next ih =>
      change (ask c fun a => (next a).bind f).sights v = _ at h
      obtain ⟨hsight, hnext⟩ := sights_ask_eq h
      have hanswer := World.answer_eq_of_sight hsight
      rw [sights_ask, sights_ask, run, run, hsight]
      rcases hv : v.answer c with ⟨o, v'⟩
      rcases hw : w.answer c with ⟨o', w'⟩
      rw [hv, hw] at hanswer hnext
      obtain rfl : o = o' := hanswer
      cases o with
      | done a =>
          obtain ⟨hsights, hmore⟩ := ih a (hnext a rfl)
          exact ⟨congrArg _ hsights, hmore⟩
      | crashed text | stuck =>
          refine ⟨rfl, fun b hb => ?_⟩
          cases hb

end Prog

theorem Job.sights_bind_eq {α β : Type} {job : Job α} {f : α → Job β} {v w : World}
    (h : (job >>= f).run.sights v = (job >>= f).run.sights w) :
    job.run.sights v = job.run.sights w ∧ ∀ a, (job.run.run v).1 = .done (.ok a) →
      (f a).run.sights (job.run.run v).2 = (f a).run.sights (job.run.run w).2 := by
  obtain ⟨hjob, hmore⟩ := Prog.sights_bind_eq h
  exact ⟨hjob, fun a => hmore (.ok a)⟩

/-! ## Dispositions -/

namespace Consumer

variable (c : Consumer)

/-- How the handling of each of some records ends, as far as a batch comes. -/
def dispositions : List Record → World → List (Outcome (Except DeliveryError Disposition))
  | [], _ => []
  | r :: rest, w =>
    ((c.handler.handle r).run.run w).1 :: match (c.settle r).run.run w with
      | (.done (.ok true), w') =>
        dispositions rest (w'.answer (.commit c.subscription r.offset)).2
      | _ => []

theorem dispositions_eq_of_sights {c : Consumer} {rs : List Record} {done : Nat} {v w : World}
    (h : (c.settleAll rs done).run.sights v = (c.settleAll rs done).run.sights w) :
    c.dispositions rs v = c.dispositions rs w := by
  induction rs generalizing done v w with
  | nil => rfl
  | cons r rest ih =>
      obtain ⟨hsettle, hrest⟩ := Job.sights_bind_eq h
      obtain ⟨hhandle, -⟩ := Prog.sights_bind_eq (Job.sights_bind_eq hsettle).1
      have hsettled := Prog.outcome_eq_of_sights hsettle
      rw [dispositions, dispositions, Prog.outcome_eq_of_sights hhandle]
      rcases hv : (c.settle r).run.run v with ⟨o, v'⟩
      rcases hw : (c.settle r).run.run w with ⟨o', w'⟩
      rw [hv, hw] at hsettled hrest
      obtain rfl : o = o' := hsettled
      rcases o with (error | _ | _) | _ | _
      · rfl
      · rfl
      · obtain ⟨-, hcommitted⟩ := Prog.sights_ask_eq (hrest true rfl)
        exact congrArg _ (ih (hcommitted (.ok ()) rfl))
      · rfl
      · rfl

end Consumer

/-! ## Reports -/

namespace Operation

/-- What an operation returns. -/
def Value : Operation → Type
  | .submit _ => Notification
  | .publishDue _ _ | .batch _ _ _ => Nat
  | .reprocess _ => List Uuid
  | .sweep _ => PruneReport
  | .deliver _ _ => DeliveryOutcome

/-- The operation with its value. -/
def job : (op : Operation) → Job op.Value
  | .submit request => Intake.submit request
  | .publishDue p limit => p.publishDue limit
  | .batch p ledger topic => (p.consumer ledger topic).batch
  | .reprocess limit => Reprocessing.execute limit
  | .sweep r => r.sweep
  | .deliver d n => d.deliver n

theorem program_eq (op : Operation) : op.program = op.job.run.bind fun _ => .done () := by
  cases op <;> rfl

/-- How the records are dealt with that a batch takes. -/
def dispositions (op : Operation) (w : World) : List (Outcome (Except DeliveryError Disposition)) :=
  match op with
  | .batch p ledger topic =>
    let c := p.consumer ledger topic
    c.dispositions (w.bus.poll c.subscription c.batchSize) w
  | _ => []

end Operation

/-- All that an operation comes to: its value, what is seen of it, and how it disposed of
records. -/
structure Report where
  op : Operation
  value : Outcome (Except DeliveryError op.Value)
  sights : List Sight
  dispositions : List (Outcome (Except DeliveryError Disposition))

def Operation.report (op : Operation) (w : World) : Report where
  op
  value := (op.job.run.run w).1
  sights := op.program.sights w
  dispositions := op.dispositions w

/-- An operation reports nothing but what is seen of it. -/
theorem Operation.report_eq_of_sights {op : Operation} {v w : World}
    (h : op.program.sights v = op.program.sights w) : op.report v = op.report w := by
  have hjob : op.job.run.sights v = op.job.run.sights w := by
    rwa [op.program_eq, Prog.sights_discard, Prog.sights_discard] at h
  have hdispositions : op.dispositions v = op.dispositions w := by
    cases op with
    | batch p ledger topic =>
        obtain ⟨hpoll, hsettled⟩ := Prog.sights_ask_eq hjob
        have hpolled := Except.ok.inj (Outcome.done.inj (World.answer_eq_of_sight hpoll))
        unfold dispositions
        dsimp only
        rw [← hpolled]
        exact Consumer.dispositions_eq_of_sights (hsettled _ rfl)
    | _ => rfl
  rw [report, report, Prog.outcome_eq_of_sights hjob, h, hdispositions]

end Courier
