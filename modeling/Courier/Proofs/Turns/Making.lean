import Courier.Proofs.Turns.Turn

/-!
Programs and the turns they make. `Ends` says what is true wherever a program ends that runs from
an account, `Makes` that what happened on the way there were turns. Both are carried along a
program by one law for each way of putting programs together. Half way through a turn only `Ends`
can be said, since a turn counts as one only when it is recorded.
-/

namespace Courier

/-- Writes fail for a reason only. -/
def Terms.Holds (terms : Terms) (w : World) : Prop := terms.faults ∨ w.store.saveError = none

theorem Terms.Holds.answer {terms : Terms} {w : World} (h : terms.Holds w) (c : Call) :
    terms.Holds (w.answer c).2 :=
  h.imp_right fun hnone => World.waiting_answer .write hnone c

namespace Prog

variable {α β : Type} {terms : Terms} {overflows : Prop} {s : Account}
  {stops : Account → Prop}

theorem holds_perform (p : Prog α) (h : terms.Holds s.world) :
    terms.Holds (p.perform s).2.world := by
  induction p generalizing s with
  | done a | crash text => exact h
  | ask c next ih =>
      have hnext := h.answer c
      rw [perform]
      rcases hanswer : s.world.answer c with ⟨_ | _ | _, world⟩ <;> rw [hanswer] at hnext
      · exact ih _ hnext
      · exact hnext
      · exact hnext

/-- What is true where a program ends: of its value, or of the account it stopped at. Where it
overflows, this is said only if `overflows` holds. -/
def Ends (terms : Terms) (overflows : Prop) (p : Prog α) (s : Account) (stops : Account → Prop)
    (Q : α → Account → Prop) : Prop :=
  terms.Holds s.world → (p.perform s).2.world.serial ≤ Books.serialLimit →
    match (p.perform s).1 with
    | .returned a => Q a (p.perform s).2
    | .overflowed => overflows → stops (p.perform s).2
    | .unanswered => stops (p.perform s).2

variable {Q : α → Account → Prop}

theorem ends_done {a : α} (h : Q a s) : (Prog.done a).Ends terms overflows s stops Q := fun _ _ => h

theorem ends_crash {text : String} (h : overflows → stops s) :
    (Prog.crash text : Prog α).Ends terms overflows s stops Q := fun _ _ => h

theorem ends_ask {c : Call} {next : c.Answer → Prog α}
    (hnext : ∀ a world, s.world.answer c = (.done a, world) → terms.Holds s.world →
      world.serial ≤ Books.serialLimit →
      (next a).Ends terms overflows ⟨world, ⟨c, a⟩ :: s.history⟩ stops Q)
    (hstops : ∀ o world, s.world.answer c = (o, world) → (∀ a, o ≠ .done a) →
      stops ⟨world, s.history⟩) :
    (Prog.ask c next).Ends terms overflows s stops Q := by
  intro hholds hserial
  have hafter := hholds.answer c
  rw [perform] at hserial ⊢
  rcases hanswer : s.world.answer c with ⟨_ | _ | _, world⟩ <;>
    rw [hanswer] at hserial hafter <;> dsimp only at hserial hafter ⊢
  · next a =>
    have hle := (next a).serial_le_perform ⟨world, ⟨c, a⟩ :: s.history⟩
    exact hnext a world hanswer hholds (hle.trans hserial) hafter hserial
  · exact hstops _ _ hanswer (by simp)
  · exact hstops _ _ hanswer (by simp)

/-- A call that is always answered. -/
theorem ends_call {c : Call} {next : c.Answer → Prog α} (hc : ¬ c.IsSend)
    (hnext : ∀ a world, s.world.answer c = (.done a, world) → terms.Holds s.world →
      world.serial ≤ Books.serialLimit →
      (next a).Ends terms overflows ⟨world, ⟨c, a⟩ :: s.history⟩ stops Q) :
    (Prog.ask c next).Ends terms overflows s stops Q := by
  apply ends_ask hnext
  intro o world hanswer hnone
  obtain ⟨-, place, n, rfl⟩ := World.unanswered hanswer hnone
  exact absurd trivial hc

theorem ends_bind {p : Prog β} {f : β → Prog α} {R : β → Account → Prop}
    (hp : p.Ends terms overflows s stops R)
    (hf : ∀ b s', R b s' → (f b).Ends terms overflows s' stops Q) :
    (p.bind f).Ends terms overflows s stops Q := by
  intro hholds hserial
  have hmiddle := p.holds_perform hholds
  rw [perform_bind] at hserial ⊢
  rcases hperform : p.perform s with ⟨_ | _ | _, s'⟩ <;>
    rw [hperform] at hserial hmiddle <;> dsimp only at hserial hmiddle ⊢
  · next b =>
    have hbefore := ((f b).serial_le_perform s').trans hserial
    have hR := hp hholds (by rw [hperform]; exact hbefore)
    rw [hperform] at hR
    exact hf b s' hR hmiddle hserial
  · have hstops := hp hholds (by rw [hperform]; exact hserial)
    rwa [hperform] at hstops
  · have hstops := hp hholds (by rw [hperform]; exact hserial)
    rwa [hperform] at hstops

theorem ends_mono {p : Prog α} {stops' : Account → Prop} {R : α → Account → Prop}
    (hp : p.Ends terms overflows s stops' R) (hstops : ∀ s', stops' s' → stops s')
    (hQ : ∀ a s', R a s' → Q a s') : p.Ends terms overflows s stops Q := by
  intro hholds hserial
  have hends := hp hholds hserial
  rcases hperform : p.perform s with ⟨_ | _ | _, s'⟩ <;> rw [hperform] at hends <;>
    dsimp only at hends ⊢
  · exact hQ _ _ hends
  · exact fun hoverflows => hstops _ (hends hoverflows)
  · exact hstops _ hends

/-! ## Programs that make turns -/

/-- From regular books a program makes turns, and where it returns, its value is as told. -/
def Makes (terms : Terms) (overflows : Prop) (p : Prog α) (s : Account)
    (Q : α → Account → Prop) : Prop :=
  s.world.books.Regular →
    p.Ends terms overflows s (Turns terms s) fun a s' => Turns terms s s' ∧ Q a s'

theorem Makes.turns {p : Prog α} (h : p.Makes terms overflows s Q) (hs : s.world.books.Regular)
    (hholds : terms.Holds s.world) (hserial : (p.perform s).2.world.serial ≤ Books.serialLimit)
    (hoverflows : (p.perform s).1 = .overflowed → overflows) :
    Turns terms s (p.perform s).2 := by
  have hends := h hs hholds hserial
  rcases hperform : p.perform s with ⟨_ | _ | _, s'⟩ <;> rw [hperform] at hends hoverflows
  · exact hends.1
  · exact hends (hoverflows rfl)
  · exact hends

theorem Makes.of_returned {p : Prog α} {a : α} {s' : Account} (h : p.Makes terms overflows s Q)
    (hs : s.world.books.Regular) (hholds : terms.Holds s.world)
    (hperform : p.perform s = (.returned a, s'))
    (hserial : s'.world.serial ≤ Books.serialLimit) : Turns terms s s' ∧ Q a s' := by
  have hends := h hs hholds (by rw [hperform]; exact hserial)
  rwa [hperform] at hends

theorem makes_done {a : α} (h : Q a s) : (Prog.done a).Makes terms overflows s Q :=
  fun _ => ends_done ⟨.refl, h⟩

theorem makes_bind {p : Prog β} {f : β → Prog α} {R : β → Account → Prop}
    (hp : p.Makes terms overflows s R)
    (hf : ∀ b s', Turns terms s s' → R b s' → (f b).Makes terms overflows s' Q) :
    (p.bind f).Makes terms overflows s Q := by
  intro hs
  refine ends_bind (hp hs) fun b s' hR => ?_
  obtain ⟨hturns, hR⟩ := hR
  refine ends_mono (hf b s' hturns hR (hturns.regular hs)) (fun _ => hturns.trans) ?_
  exact fun _ _ hQ => ⟨hturns.trans hQ.1, hQ.2⟩

theorem makes_mono {p : Prog α} {R : α → Account → Prop} (hp : p.Makes terms overflows s R)
    (hQ : ∀ a s', Turns terms s s' → R a s' → Q a s') : p.Makes terms overflows s Q :=
  fun hs => ends_mono (hp hs) (fun _ h => h) fun a s' h => ⟨h.1, hQ a s' h.1 h.2⟩

/-- A call that is a turn of its own. -/
theorem makes_ask {c : Call} {next : c.Answer → Prog α} (hc : ¬ c.IsSend)
    (hquiet : ∀ a world, s.world.answer c = (.done a, world) → c.IsQuiet a)
    (hsupports : s.world.books.Supports c)
    (hnext : ∀ a world, s.world.answer c = (.done a, world) →
      world.serial ≤ Books.serialLimit →
      (next a).Makes terms overflows ⟨world, ⟨c, a⟩ :: s.history⟩ Q) :
    (Prog.ask c next).Makes terms overflows s Q := by
  intro hs
  refine ends_call hc fun a world hanswer _ hserial => ?_
  have hturn : Turn terms s ⟨world, ⟨c, a⟩ :: s.history⟩ :=
    .quiet hanswer (hquiet a world hanswer) hsupports
  refine ends_mono (hnext a world hanswer hserial (hturn.regular hs)) ?_ ?_
  · exact fun _ h => .head hturn h
  · exact fun _ _ h => ⟨.head hturn h.1, h.2⟩

end Prog

/-! ## Jobs that make turns -/

namespace Job

variable {α β : Type} {terms : Terms} {overflows : Prop} {s : Account}
  {Q : α → Account → Prop}

/-- A job makes turns, and if it succeeds, its value is as told. -/
def Makes (terms : Terms) (overflows : Prop) (job : Job α) (s : Account)
    (Q : α → Account → Prop) : Prop :=
  Prog.Makes terms overflows job.run s fun result s' => ∀ a, result = .ok a → Q a s'

theorem makes_pure {a : α} (h : Q a s) : Makes terms overflows (pure a) s Q :=
  Prog.makes_done fun _ heq => Except.ok.inj heq ▸ h

theorem makes_throw {error : DeliveryError} : Makes terms overflows (throw error) s Q :=
  Prog.makes_done nofun

theorem makes_bind {job : Job β} {f : β → Job α} {R : β → Account → Prop}
    (hjob : job.Makes terms overflows s R)
    (hf : ∀ b s', Turns terms s s' → R b s' → (f b).Makes terms overflows s' Q) :
    (job >>= f).Makes terms overflows s Q := by
  apply Prog.makes_bind hjob
  intro result s' hturns hresult
  cases result with
  | ok b => exact hf b s' hturns (hresult b rfl)
  | error error => exact makes_throw

theorem makes_mono {job : Job α} {R : α → Account → Prop} (hjob : job.Makes terms overflows s R)
    (hQ : ∀ a s', Turns terms s s' → R a s' → Q a s') : job.Makes terms overflows s Q :=
  Prog.makes_mono hjob fun _ _ hturns hR _ heq => hQ _ _ hturns (hR _ heq)

/-- A call that cannot fail, and what is done with its answer. -/
theorem makes_ask {c : Call} {f : c.Answer → Job α} (hc : ¬ c.IsSend)
    (hquiet : ∀ a, c.IsQuiet a) (hsupports : s.world.books.Supports c)
    (hf : ∀ a world, s.world.answer c = (.done a, world) → world.serial ≤ Books.serialLimit →
      (f a).Makes terms overflows ⟨world, ⟨c, a⟩ :: s.history⟩ Q) :
    (Job.call c >>= f).Makes terms overflows s Q :=
  Prog.makes_ask hc (fun a _ _ => hquiet a) hsupports hf

theorem makes_call {c : Call} (hc : ¬ c.IsSend) (hquiet : ∀ a, c.IsQuiet a)
    (hsupports : s.world.books.Supports c) :
    (Job.call c).Makes terms overflows s fun a s' => s.world.answer c = (.done a, s'.world) :=
  Prog.makes_ask hc (fun a _ _ => hquiet a) hsupports fun _ _ hanswer _ =>
    Prog.makes_done fun _ heq => Except.ok.inj heq ▸ hanswer

theorem makes_store {p : Prog (Except StoreError α)}
    (h : p.Makes terms overflows s fun result s' => ∀ a, result = .ok a → Q a s') :
    (Job.store p).Makes terms overflows s Q := by
  apply Prog.makes_bind h
  intro result s' _ hresult
  cases result with
  | ok a => exact makes_pure (hresult a rfl)
  | error error => exact makes_throw

theorem makes_outcome {job : Job α} (h : job.Makes terms overflows s Q) :
    job.outcome.Makes terms overflows s fun result s' => ∀ a, result = .ok a → Q a s' :=
  Prog.makes_bind h fun _ _ _ hresult => makes_pure hresult

theorem makes_orCrash {r : Except Instant.Overflow α} (h : ∀ a, r = .ok a → Q a s) :
    (Job.orCrash r).Makes terms overflows s Q := by
  cases r with
  | ok a => exact makes_pure (h a rfl)
  | error o => exact fun _ => Prog.ends_crash fun _ => .refl

end Job
end Courier
