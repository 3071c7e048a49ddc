import Courier.World

/-!
Programs in surroundings of any kind. A world is one kind: a clock, a store and a bus in memory,
channels, and so on. Others may keep more, let other calls fail, or answer in other ways; how a
program runs is the same in all of them.
-/

namespace Courier

/-- What surrounds a program: a state with a bus in it, and how calls are answered. -/
structure Host (σ : Type) where
  answer : σ → (c : Call) → Outcome c.Answer × σ
  bus : σ → Bus

namespace Host

variable {α β σ : Type} {h : Host σ} {s s' : σ}

/-- Runs a program to its end, each call as soon as the one before is answered. -/
def run (h : Host σ) : Prog α → σ → Outcome α × σ
  | .done a, s => (.done a, s)
  | .crash text, s => (.crashed text, s)
  | .ask c next, s =>
    match h.answer s c with
    | (.done a, s) => h.run (next a) s
    | (.crashed text, s) => (.crashed text, s)
    | (.stuck, s) => (.stuck, s)

theorem run_bind (h : Host σ) (p : Prog α) (f : α → Prog β) (s : σ) :
    h.run (p.bind f) s = match h.run p s with
      | (.done a, s') => h.run (f a) s'
      | (.crashed text, s') => (.crashed text, s')
      | (.stuck, s') => (.stuck, s') := by
  induction p generalizing s with
  | done a | crash text => rfl
  | ask c next ih =>
      rw [Prog.bind, run, run]
      rcases h.answer s c with ⟨_ | _ | _, s'⟩
      · exact ih _ _
      · rfl
      · rfl

theorem run_bind_job (h : Host σ) (job : Job β) (f : β → Job α) (s : σ) :
    h.run (job >>= f).run s = match h.run job.run s with
      | (.done (.ok b), s') => h.run (f b).run s'
      | (.done (.error error), s') => (.done (.error error), s')
      | (.crashed text, s') => (.crashed text, s')
      | (.stuck, s') => (.stuck, s') := by
  refine (h.run_bind job.run _ s).trans ?_
  rcases h.run job.run s with ⟨(error | b) | _ | _, s'⟩ <;> rfl

theorem run_ask {c : Call} {next : c.Answer → Prog α} {a : c.Answer}
    (hanswer : h.answer s c = (.done a, s')) : h.run (.ask c next) s = h.run (next a) s' := by
  rw [run, hanswer]

theorem run_call (h : Host σ) (c : Call) (s : σ) : h.run (.call c) s = h.answer s c := by
  rw [Prog.call, run]
  rcases h.answer s c with ⟨_ | _ | _, s'⟩ <;> rfl

theorem run_outcome (h : Host σ) (job : Job α) (s : σ) :
    h.run job.outcome.run s = match h.run job.run s with
      | (.done result, s') => (.done (.ok result), s')
      | (.crashed text, s') => (.crashed text, s')
      | (.stuck, s') => (.stuck, s') := by
  refine (h.run_bind job.run _ s).trans ?_
  rcases h.run job.run s with ⟨_ | _ | _, s'⟩ <;> rfl

end Host

namespace World

/-- Worlds surround their programs. -/
def host : Host World := ⟨World.answer, World.bus⟩

theorem run_host {α : Type} (p : Prog α) (w : World) : host.run p w = p.run w := by
  induction p generalizing w with
  | done a | crash text => rfl
  | ask c next ih =>
      rw [Host.run, Prog.run, show host.answer w c = w.answer c from rfl]
      rcases w.answer c with ⟨_ | _ | _, w'⟩
      · exact ih _ _
      · rfl
      · rfl

end World
end Courier
