/-!
Locks by key. Of those who want a key one is inside and the others wait; when the one inside
leaves, the one who has waited longest goes in. A key that nobody wants is forgotten. `KeyLock` says
this of the keys as such; `MutexMap` is how it comes about, by mutexes that are shared and counted.
-/

namespace Courier

/-- Who is inside and who waits, longest first, for one key. -/
structure Gate (α : Type) where
  inside : Option α
  waiting : List α
  deriving DecidableEq

structure KeyLock (α : Type) where
  gates : List (String × Gate α)
  deriving DecidableEq

namespace KeyLock

variable {α : Type} [DecidableEq α]

def unused : KeyLock α := ⟨[]⟩

def activeKeys (l : KeyLock α) : Nat := l.gates.length

def gate (l : KeyLock α) (key : String) : Gate α := (l.gates.lookup key).getD ⟨none, []⟩

/-- Sets the gate of a key, which goes away if nobody is at it. -/
def setGate (l : KeyLock α) (key : String) (gate : Gate α) : KeyLock α :=
  let others := l.gates.filter (·.1 != key)
  if gate.inside.isNone && gate.waiting.isEmpty then ⟨others⟩ else ⟨others ++ [(key, gate)]⟩

/-- Lets someone in, or lets them wait. True if they are inside. -/
def enter (l : KeyLock α) (key : String) (who : α) : Bool × KeyLock α :=
  let gate := l.gate key
  match gate.inside with
  | none => (true, l.setGate key { gate with inside := some who })
  | some _ => (false, l.setGate key { gate with waiting := gate.waiting ++ [who] })

/-- Lets someone go, from inside or from the queue. Returns who goes in for them. -/
def leave (l : KeyLock α) (key : String) (who : α) : Option α × KeyLock α :=
  let gate := l.gate key
  if gate.inside = some who then
    match gate.waiting with
    | [] => (none, l.setGate key ⟨none, []⟩)
    | next :: rest => (some next, l.setGate key ⟨some next, rest⟩)
  else (none, l.setGate key { gate with waiting := gate.waiting.erase who })

end KeyLock

/-! ## Mutexes -/

namespace Gate

variable {α : Type} [DecidableEq α]

def free : Gate α := ⟨none, []⟩

/-- Lets someone in, or lets them wait. -/
def enter (g : Gate α) (who : α) : Gate α :=
  match g.inside with
  | none => { g with inside := some who }
  | some _ => { g with waiting := g.waiting ++ [who] }

/-- Lets someone go, from inside or from the queue. -/
def leave (g : Gate α) (who : α) : Gate α :=
  if g.inside = some who then
    match g.waiting with
    | [] => free
    | next :: rest => ⟨some next, rest⟩
  else { g with waiting := g.waiting.erase who }

end Gate

/-- Someone's reference to the mutex of a key. -/
structure Lease (α : Type) where
  owner : α
  key : String
  mutex : Nat
  deriving DecidableEq

/-- Mutexes by key. Each has a number; the map and the leases refer to it by that. -/
structure MutexMap (α : Type) where
  /-- All mutexes made so far, by number. -/
  mutexes : List (Gate α) := []
  /-- The mutex of each key that is known. -/
  entries : List (String × Nat) := []
  /-- The leases that are out, oldest first. -/
  leases : List (Lease α) := []
  deriving DecidableEq

namespace MutexMap

variable {α : Type} [DecidableEq α]

def activeKeys (l : MutexMap α) : Nat := l.entries.length

def mutex (l : MutexMap α) (number : Nat) : Gate α := l.mutexes.getD number .free

def change (l : MutexMap α) (number : Nat) (f : Gate α → Gate α) : MutexMap α :=
  { l with mutexes := l.mutexes.modify number f }

/-- How many refer to a mutex: the map and the leases. -/
def references (l : MutexMap α) (number : Nat) : Nat :=
  l.entries.countP (·.2 == number) + l.leases.countP (·.mutex == number)

/-- Gives out a lease on the mutex of a key, which is made if the key is not known. -/
def lease (l : MutexMap α) (key : String) (who : α) : Lease α × MutexMap α :=
  match l.entries.lookup key with
  | some number =>
    let lease : Lease α := ⟨who, key, number⟩
    (lease, { l with leases := l.leases ++ [lease] })
  | none =>
    let number := l.mutexes.length
    let lease : Lease α := ⟨who, key, number⟩
    (lease, ⟨l.mutexes ++ [.free], l.entries ++ [(key, number)], l.leases ++ [lease]⟩)

/-- Takes a lease back. If only the map and this lease refer to the mutex, its key is forgotten. -/
def takeBack (l : MutexMap α) (lease : Lease α) : MutexMap α :=
  { l with
    entries :=
      if l.references lease.mutex = 2 then l.entries.filter (·.1 != lease.key) else l.entries
    leases := l.leases.erase lease }

def leaseOf? (l : MutexMap α) (who : α) : Option (Lease α) := l.leases.find? (·.owner == who)

/-- Whether someone is inside the mutex that they have a lease on. -/
def holds (l : MutexMap α) (who : α) : Bool :=
  match l.leaseOf? who with
  | some lease => (l.mutex lease.mutex).inside = some who
  | none => false

/-- Lets someone at the mutex of a key, where they go in or wait. -/
def enter (l : MutexMap α) (key : String) (who : α) : MutexMap α :=
  let (lease, l) := l.lease key who
  l.change lease.mutex (·.enter who)

/-- Lets someone go: first from the mutex, where another one may go in, then from the map. Returns
who goes in. -/
def leave (l : MutexMap α) (who : α) : Option α × MutexMap α :=
  match l.leaseOf? who with
  | none => (none, l)
  | some lease =>
    let next := if l.holds who then ((l.mutex lease.mutex).leave who).inside else none
    (next, (l.change lease.mutex (·.leave who)).takeBack lease)

end MutexMap

/-! ## Tasks -/

/-- A task that wants a key to run its body. -/
structure LockTask where
  name : String
  key : String
  /-- Whether the body may end. -/
  released : Bool := false
  /-- Whether the task has neither ended nor been dropped. -/
  live : Bool := true
  deriving DecidableEq

inductive LockStep where
  | start (task key : String)
  | release (task : String)
  | abort (task : String)
  | look

inductive LockEvent where
  | entered (task : String)
  | left (task : String)
  | done (task : String)
  deriving DecidableEq

/-- A task that is done tells the size of its name. -/
def LockEvent.text : LockEvent → String
  | .entered task => s!"enter {task}"
  | .left task => s!"leave {task}"
  | .done task => s!"done {task} {task.utf8ByteSize}"

/-- Tasks, numbered in the order in which they start, and their lock. -/
structure LockRoom where
  lock : MutexMap Nat := {}
  tasks : List LockTask := []

namespace LockRoom

/-- The last task that started under a name. -/
def latest? (r : LockRoom) (name : String) : Option (Nat × LockTask) :=
  (r.tasks.zipIdx.reverse.find? fun entry => entry.1.name == name).map fun entry =>
    (entry.2, entry.1)

def modify (r : LockRoom) (number : Nat) (change : LockTask → LockTask) : LockRoom :=
  { r with tasks := r.tasks.modify number change }

/-- Lets a task go, whose body has ended or which is dropped. Returns the task that goes in. -/
def dismiss (r : LockRoom) (number : Nat) : Option Nat × LockRoom :=
  let (next, lock) := r.lock.leave number
  (next, { r with lock }.modify number fun t => { t with live := false })

/-- Lets a task go. The next one at its mutex goes in, and if its body may end it goes too. -/
def depart (r : LockRoom) (fuel number : Nat) : List LockEvent × LockRoom :=
  match fuel with
  | 0 => ([], r)
  | fuel + 1 =>
    let (next, r) := r.dismiss number
    match next.bind fun n => (r.tasks[n]?).map fun t => (n, t) with
    | none => ([], r)
    | some (n, t) =>
      if t.released then
        let (events, r) := r.depart fuel n
        (.entered t.name :: .left t.name :: .done t.name :: events, r)
      else ([.entered t.name], r)

/-- One step, after which every task that can go on has done so. -/
def step (r : LockRoom) : LockStep → List LockEvent × LockRoom
  | .start name key =>
    let lock := r.lock.enter key r.tasks.length
    (if lock.holds r.tasks.length then [.entered name] else [], ⟨lock, r.tasks ++ [{ name, key }]⟩)
  | .release name =>
    match r.latest? name with
    | some (number, task) =>
      let r := r.modify number fun t => { t with released := true }
      if task.live ∧ r.lock.holds number then
        let (events, r) := r.depart r.tasks.length number
        (.left name :: .done name :: events, r)
      else ([], r)
    | none => ([], r)
  | .abort name =>
    match r.latest? name with
    | some (number, task) => if task.live then r.depart r.tasks.length number else ([], r)
    | none => ([], r)
  | .look => ([], r)

end LockRoom
end Courier
