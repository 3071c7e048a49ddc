import Courier.Bus
import Courier.Channel
import Courier.Stats
import Courier.Store

/-!
Programs of the pipeline. A program is a tree of calls to the world outside it: the clock, the
store, the bus, the channels, the limiter, the locks, the counters. Each call is one step; between
two of them other programs can run, or the program can be abandoned. What a call does is not said
here.
-/

namespace Courier

inductive Call where
  | now
  | newId
  | jitter (bound : Duration)
  | acquire (key : String)
  | lock (key : String)
  | unlock (key : String)
  | findById (id : Uuid)
  | findByIds (ids : List Uuid)
  | findByKey (key : String)
  | findByStatus (status : Status) (limit : Nat)
  | save (n : Notification)
  | saveWithOutbox (n : Notification) (topic : String)
  | dueEvents (now : Instant) (limit : Nat)
  | markPublished (id : Uuid)
  | markFailed (id : Uuid) (error : String) (next : Instant)
  | deletePublished (cutoff : Instant)
  | publish (topic : String) (key : Option String) (payload : Bytes)
  | poll (consumer : Subscription) (max : Nat)
  | commit (consumer : Subscription) (offset : Int)
  | prune (topic : String) (cutoff : Instant)
  | send (channel : Nat) (n : Notification)
  | tally (ledger : Ledger) (what : Tally)
  | note (entry : JournalEntry)

namespace Call

@[reducible] def Answer : Call → Type
  | .now => Instant
  | .newId => Uuid
  | .jitter _ => Duration
  | .acquire _ => Bool
  | .lock _ | .unlock _ => Unit
  | .findById _ | .findByKey _ => Except StoreError (Option Notification)
  | .findByIds _ | .findByStatus _ _ => Except StoreError (List Notification)
  | .save _ => Except StoreError Unit
  | .saveWithOutbox _ _ => Except StoreError OutboxEvent
  | .dueEvents _ _ => Except StoreError (List OutboxEvent)
  | .markPublished _ | .markFailed _ _ _ => Except StoreError Unit
  | .deletePublished _ => Except StoreError Nat
  | .publish _ _ _ => Except DeliveryError Unit
  | .poll _ _ => Except DeliveryError (List Record)
  | .commit _ _ => Except DeliveryError Unit
  | .prune _ _ => Except DeliveryError Nat
  | .send _ _ => Except DeliveryError Unit
  | .tally _ _ | .note _ => Unit

end Call

/-- A program that returns a value, breaks off, or makes a call and goes on with the answer. -/
inductive Prog (α : Type) where
  | done (a : α)
  | crash (text : String)
  | ask (c : Call) (next : c.Answer → Prog α)

namespace Prog

variable {α β : Type}

/-- Runs one program and then another that depends on its value. -/
def bind : Prog α → (α → Prog β) → Prog β
  | .done a, f => f a
  | .crash text, _ => .crash text
  | .ask c next, f => .ask c fun answer => (next answer).bind f

instance : Monad Prog where
  pure := .done
  bind := Prog.bind

end Prog

/-- A program that can fail with a delivery error. -/
abbrev Job (α : Type) := ExceptT DeliveryError Prog α

namespace Job

variable {α : Type}

/-- A call that cannot fail. -/
def call (c : Call) : Job c.Answer := ExceptT.lift (.ask c .done)

/-- A call that can fail with a delivery error. -/
def attempt (p : Prog (Except DeliveryError α)) : Job α := ExceptT.mk p

def store (p : Prog (Except StoreError α)) : Job α :=
  ExceptT.mk do return (← p).mapError DeliveryError.ofStore

/-- The outcome of a job, errors included. -/
def outcome (job : Job α) : Job (Except DeliveryError α) := ExceptT.lift job.run

/-- A value, or the breaking off of the program where moving a moment overflows. -/
def orCrash (r : Except Instant.Overflow α) : Job α :=
  match r with
  | .ok a => pure a
  | .error o => ExceptT.lift (.crash o.message)

end Job

namespace Prog

def call (c : Call) : Prog c.Answer := .ask c .done

end Prog
end Courier
