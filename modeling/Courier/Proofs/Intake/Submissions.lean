import Courier.Intake
import Courier.Proofs.KeyLock
import Courier.Proofs.Runs.Books
import Mathlib.Logic.Function.Basic
import Mathlib.Logic.Relation

/-!
Requests that are taken in at the same time. Each submission runs on one of several instances of
intake; instances share the store, and may share locks and limiters. A step starts a submission,
answers one call of one of them, drops one half way, or changes the surroundings. Between two of
its calls a submission stands at one of a few stages, and only a move between stages answers it.
-/

namespace Courier.Intake

/-- An instance of intake, by the numbers of its lock and its limiter. -/
structure Service where
  lock : Nat
  limiter : Nat
  deriving DecidableEq

/-- What submissions share. -/
structure Shared where
  world : World
  locks : Nat → KeyLock Nat
  limiters : Nat → RateLimiter

/-- A call that was answered, and what was shared just before and just after. -/
structure Exchange where
  call : Call
  answer : call.Answer
  before : Shared
  after : Shared

/-- A request under way or done with, what is left of its program, and its calls so far, the latest
first. -/
structure Submission where
  request : Request
  service : Service
  rest : Prog (Except DeliveryError Notification)
  log : List Exchange

structure State where
  shared : Shared
  submissions : Nat → Option Submission

namespace Shared

variable (s : Shared) (service : Service) (who : Nat)

def rows : List Notification := s.world.store.notifications

def events : List OutboxEvent := s.world.store.outbox

/-- Who is inside a key of the lock of an instance. -/
def inside (key : String) : Option Nat := ((s.locks service.lock).gate key).inside

def enter (key : String) (who : Nat) : Shared :=
  { s with
    locks := Function.update s.locks service.lock ((s.locks service.lock).enter key who).2 }

def leave (key : String) (who : Nat) : Shared :=
  { s with
    locks := Function.update s.locks service.lock ((s.locks service.lock).leave key who).2 }

variable {s service who}

/-- Nobody inside is displaced by someone who comes. -/
theorem inside_enter {other : Service} {key key' : String} {i : Nat}
    (h : s.inside other key' = some i) : (s.enter service key who).inside other key' = some i := by
  simp only [inside, enter] at h ⊢
  by_cases hlock : other.lock = service.lock
  · rw [hlock] at h
    rw [hlock, Function.update_self]
    exact KeyLock.inside_enter _ h
  · rwa [Function.update_of_ne hlock]

/-- Nobody inside is displaced by someone else who goes. -/
theorem inside_leave {other : Service} {key key' : String} {i : Nat}
    (h : s.inside other key' = some i) (hne : i ≠ who) :
    (s.leave service key who).inside other key' = some i := by
  simp only [inside, leave] at h ⊢
  by_cases hlock : other.lock = service.lock
  · rw [hlock] at h
    rw [hlock, Function.update_self]
    exact KeyLock.inside_leave _ h hne
  · rwa [Function.update_of_ne hlock]

variable (s service who)

/-- How a call is answered. A lock lets in who is inside; a limiter may decide as it likes; all
else is up to the world. -/
inductive Serves : (c : Call) → c.Answer → Shared → Prop
  | admits {key} (h : s.inside service key = some who) : Serves (.lock key) () s
  | releases {key} : Serves (.unlock key) () (s.leave service key who)
  | limits {key admitted limiter} :
      Serves (.acquire key) admitted
        { s with limiters := Function.update s.limiters service.limiter limiter }
  | answers {c a world} (hlock : ∀ key, c ≠ .lock key ∧ c ≠ .unlock key ∧ c ≠ .acquire key)
      (h : s.world.answer c = (.done a, world)) : Serves c a { s with world }

end Shared

/-- A submission that comes is at the gate of its key at once. -/
inductive Step (services : Service → Prop) (s : State) : State → Prop
  | comes {i request service} (hfree : s.submissions i = none) (hservice : services service) :
      Step services s
        ⟨s.shared.enter service request.idempotencyKey i,
          Function.update s.submissions i (some ⟨request, service, (submit request).run, []⟩)⟩
  | goes {i request service c next log a shared}
      (hi : s.submissions i = some ⟨request, service, .ask c next, log⟩)
      (hserves : s.shared.Serves service i c a shared) :
      Step services s
        ⟨shared, Function.update s.submissions i
          (some ⟨request, service, next a, ⟨c, a, s.shared, shared⟩ :: log⟩)⟩
  | drops {i request service c next log}
      (hi : s.submissions i = some ⟨request, service, .ask c next, log⟩) :
      Step services s
        ⟨s.shared.leave service request.idempotencyKey i, Function.update s.submissions i none⟩
  | surroundings {world limiters} (h : world.books = s.shared.world.books) :
      Step services s { s with shared := { s.shared with world, limiters } }

abbrev Steps (services : Service → Prop) : State → State → Prop :=
  Relation.ReflTransGen (Step services)

/-- A world with nobody at any lock. -/
def State.opened (world : World) (limiters : Nat → RateLimiter) : State :=
  ⟨⟨world, fun _ => .unused, limiters⟩, fun _ => none⟩

/-! ## Runs by schedule -/

/-- One way to answer a call, unless it has to wait. -/
def Shared.respond (s : Shared) (service : Service) (who : Nat) :
    (c : Call) → Option (c.Answer × Shared)
  | .lock key => if s.inside service key = some who then some ((), s) else none
  | .unlock key => some ((), s.leave service key who)
  | .acquire key =>
    let (admitted, limiter) := (s.limiters service.limiter).acquire s.world.now key
    some (admitted, { s with limiters := Function.update s.limiters service.limiter limiter })
  | c =>
    match s.world.answer c with
    | (.done a, world) => some (a, { s with world })
    | _ => none

theorem Shared.serves_of_respond {s s' : Shared} {service : Service} {who : Nat} {c : Call}
    {a : c.Answer} (h : s.respond service who c = some (a, s')) : s.Serves service who c a s' := by
  have hanswered (hc : ∀ key, c ≠ .lock key ∧ c ≠ .unlock key ∧ c ≠ .acquire key)
      (h : (match s.world.answer c with
        | (.done a, world) => some (a, { s with world })
        | _ => none) = some (a, s')) : s.Serves service who c a s' := by
    split at h
    · next a' world hanswer =>
      obtain ⟨rfl, rfl⟩ := Prod.mk.inj (Option.some.inj h)
      exact .answers hc hanswer
    · exact nomatch h
  cases c with
  | lock key =>
      simp only [respond] at h
      split at h
      · next hinside =>
        obtain ⟨rfl, rfl⟩ := Prod.mk.inj (Option.some.inj h)
        exact .admits hinside
      · exact nomatch h
  | unlock key =>
      obtain ⟨rfl, rfl⟩ := Prod.mk.inj (Option.some.inj h)
      exact .releases
  | acquire key =>
      obtain ⟨rfl, rfl⟩ := Prod.mk.inj (Option.some.inj h)
      exact .limits
  | _ => exact hanswered (fun _ => ⟨nofun, nofun, nofun⟩) h

namespace State

/-- Someone comes, if their place is free. -/
def arrive (s : State) (i : Nat) (request : Request) (service : Service) : State :=
  match s.submissions i with
  | some _ => s
  | none =>
    ⟨s.shared.enter service request.idempotencyKey i,
      Function.update s.submissions i (some ⟨request, service, (submit request).run, []⟩)⟩

/-- Answers the next call of a submission, if it has one that need not wait. -/
def advance (s : State) (i : Nat) : State :=
  match s.submissions i with
  | some ⟨request, service, .ask c next, log⟩ =>
    match s.shared.respond service i c with
    | some (a, shared) =>
      ⟨shared, Function.update s.submissions i
        (some ⟨request, service, next a, ⟨c, a, s.shared, shared⟩ :: log⟩)⟩
    | none => s
  | _ => s

/-- What a submission has returned. -/
def returned? (s : State) (i : Nat) : Option (Except DeliveryError Notification) :=
  (s.submissions i).bind fun p => match p.rest with
    | .done outcome => some outcome
    | _ => none

end State

section Schedules

variable {services : Service → Prop} (s : State)

theorem steps_arrive (i : Nat) (request : Request) {service : Service} (h : services service) :
    Steps services s (s.arrive i request service) := by
  unfold State.arrive
  split
  · exact .refl
  · next hfree => exact .single (.comes hfree h)

theorem steps_advance (i : Nat) : Steps services s (s.advance i) := by
  unfold State.advance
  split
  · next hi =>
    split
    · next hrespond => exact .single (.goes hi (Shared.serves_of_respond hrespond))
    · exact .refl
  · exact .refl

theorem steps_schedule (schedule : List Nat) : Steps services s (schedule.foldl .advance s) := by
  induction schedule generalizing s with
  | nil => exact .refl
  | cons i schedule ih => exact (steps_advance s i).trans (ih _)

end Schedules

/-! ## Stages -/

/-- How a submission ends: the key was known, the request was turned down, or it was taken in. -/
inductive Ending where
  | found (n : Notification)
  | refused (error : DeliveryError)
  | accepted (n : Notification)

def Ending.outcome : Ending → Except DeliveryError Notification
  | .found n | .accepted n => .ok n
  | .refused error => .error error

/-- Where a submission stands. -/
inductive Stage where
  | absent
  | arriving
  | looking
  /-- The limits that are still to be asked. -/
  | counting (keys : List String)
  | numbered (id : Uuid)
  | ready (n : Notification)
  | leaving (ending : Ending)
  | gone (ending : Ending)

/-- What is done under the lock of a key, and then the leaving of it. -/
def closing (key : String) (job : Job Notification) : Prog (Except DeliveryError Notification) :=
  (do
    let outcome ← job.outcome
    Job.call (.unlock key)
    ExceptT.mk (pure outcome) : Job Notification).run

/-- Stores a new notification with the promise to send it. -/
def enrol (n : Notification) : Job Notification := do
  let _ ← Job.store (.call (.saveWithOutbox n Topic.send.name))
  return n

/-- Takes in a request under a new identifier. -/
def register (request : Request) (id : Uuid) : Job Notification := do
  enrol (.ofRequest request id (← Job.call .now))

namespace Stage

/-- What is left to do at a stage. -/
def program (request : Request) : Stage → Option (Prog (Except DeliveryError Notification))
  | .absent => none
  | .arriving => some (submit request).run
  | .looking => some (closing request.idempotencyKey (accept request))
  | .counting keys => some (closing request.idempotencyKey do
      countAgainst keys
      register request (← Job.call .newId))
  | .numbered id => some (closing request.idempotencyKey (register request id))
  | .ready n => some (closing request.idempotencyKey (enrol n))
  | .leaving ending => some (.ask (.unlock request.idempotencyKey) fun _ => .done ending.outcome)
  | .gone ending => some (.done ending.outcome)

/-- A submission of a request makes a call at a stage, is answered, and comes to the next one. -/
inductive Goes (request : Request) : Stage → (c : Call) → c.Answer → Stage → Prop
  | enters : Goes request .arriving (.lock request.idempotencyKey) () .looking
  | finds {n} :
      Goes request .looking (.findByKey request.idempotencyKey) (.ok (some n)) (.leaving (.found n))
  | misses :
      Goes request .looking (.findByKey request.idempotencyKey) (.ok none)
        (.counting request.admissionKeys)
  | fails {error} :
      Goes request .looking (.findByKey request.idempotencyKey) (.error error)
        (.leaving (.refused (.ofStore error)))
  | passes {key keys} : Goes request (.counting (key :: keys)) (.acquire key) true (.counting keys)
  | exceeds {key keys} :
      Goes request (.counting (key :: keys)) (.acquire key) false
        (.leaving (.refused (.rateLimited key)))
  | draws {id} : Goes request (.counting []) .newId id (.numbered id)
  | dates {id now} : Goes request (.numbered id) .now now (.ready (.ofRequest request id now))
  | saves {n e} :
      Goes request (.ready n) (.saveWithOutbox n Topic.send.name) (.ok e) (.leaving (.accepted n))
  | conflicts {n error} :
      Goes request (.ready n) (.saveWithOutbox n Topic.send.name) (.error error)
        (.leaving (.refused (.ofStore error)))
  | leaves {ending} :
      Goes request (.leaving ending) (.unlock request.idempotencyKey) () (.gone ending)

/-- Whatever the program at a stage is answered, it comes to a stage. -/
theorem goes_of_program {request : Request} {stage : Stage} {c : Call}
    {next : c.Answer → Prog (Except DeliveryError Notification)}
    (h : stage.program request = some (.ask c next)) (a : c.Answer) :
    ∃ stage', stage.Goes request c a stage' ∧ stage'.program request = some (next a) := by
  have hask {c' : Call} {next' : c'.Answer → Prog (Except DeliveryError Notification)}
      (hprogram : stage.program request = some (.ask c' next'))
      (hnext : ∀ a, ∃ stage', stage.Goes request c' a stage' ∧
        stage'.program request = some (next' a)) :
      ∃ stage', stage.Goes request c a stage' ∧ stage'.program request = some (next a) := by
    have heq := Option.some.inj (hprogram.symm.trans h)
    injection heq with hcall hrest
    subst hcall
    obtain rfl := eq_of_heq hrest
    exact hnext a
  cases stage with
  | absent | gone ending => exact nomatch h
  | arriving => exact hask rfl fun _ => ⟨_, .enters, rfl⟩
  | looking =>
      refine hask rfl fun found => ?_
      rcases found with error | (_ | n)
      · exact ⟨_, .fails, rfl⟩
      · exact ⟨_, .misses, rfl⟩
      · exact ⟨_, .finds, rfl⟩
  | counting keys =>
      cases keys with
      | nil => exact hask rfl fun id => ⟨_, .draws, rfl⟩
      | cons key keys =>
          refine hask rfl fun admitted => ?_
          cases admitted with
          | true => exact ⟨_, .passes, rfl⟩
          | false => exact ⟨_, .exceeds, rfl⟩
  | numbered id => exact hask rfl fun now => ⟨_, .dates, rfl⟩
  | ready n =>
      refine hask rfl fun saved => ?_
      cases saved with
      | ok e => exact ⟨_, .saves, rfl⟩
      | error error => exact ⟨_, .conflicts, rfl⟩
  | leaving ending => exact hask rfl fun _ => ⟨_, .leaves, rfl⟩

end Stage
end Courier.Intake
