import Courier.Jitter
import Courier.Program
import Courier.RateLimiter
import Courier.Time.Clock

/-!
A world in which programs run: a clock set by hand, a store and a bus in memory, channels, a
limiter. Every call is answered in one step. Programs run here one at a time, so a lock is free
whenever it is wanted. A call to a channel may take time of its own, which the clock does not
show.
-/

namespace Courier

structure World where
  clock : Clock
  store : Store := {}
  bus : Bus := {}
  channels : List Channel
  limiter : RateLimiter
  jitter : Jitter
  pipelineStats : Stats := {}
  loopStats : Stats := {}
  journal : List JournalEntry := []
  /-- The identifiers that are drawn. -/
  ids : Uuid.Supply := .counting
  /-- How many of them have been drawn. -/
  serial : Nat
  /-- Milliseconds that calls to channels have taken so far. -/
  channelMillis : Nat := 0

inductive Outcome (α : Type) where
  | done (a : α)
  | crashed (text : String)
  | stuck
  deriving DecidableEq

namespace World

def now (w : World) : Instant := w.clock.now

/-- Counts in a ledger. -/
def count (w : World) (ledger : Ledger) (what : Tally) : World :=
  match ledger with
  | .pipeline => { w with pipelineStats := w.pipelineStats.count what }
  | .loops => { w with loopStats := w.loopStats.count what }

/-- Replaces the store by what an operation on it left, and passes on what it returned. -/
def withStore {α : Type} (w : World) (r : Store.Result α) : Except StoreError α × World :=
  (r.1, { w with store := r.2 })

/-- The next identifier. -/
def takeId (w : World) : Uuid × World := (w.ids.draw w.serial, { w with serial := w.serial + 1 })

def changeChannel (w : World) (place : Nat) (change : Channel → Channel) : World :=
  { w with channels := w.channels.modify place change }

/-- A call to a channel that has been made. -/
structure PendingCall where
  channel : Nat
  /-- Whether the channel's breaker counts the end of the call. -/
  counted : Bool
  /-- When it ends, in milliseconds of the channels, and how. Nothing if it never does. -/
  course : Option (Nat × Ending)

/-- Calls a channel. -/
def startCall (w : World) (place : Nat) (n : Notification) : PendingCall × World :=
  match w.channels[place]? with
  | none => (⟨place, false, some (w.channelMillis, .returned (.error (.noChannel n.medium)))⟩, w)
  | some channel =>
    match channel.start n w.now with
    | (.refused error, _) =>
      (⟨place, false, some (w.channelMillis, .returned (.error error))⟩, w)
    | (.underWay course entries, channel) =>
      (⟨place, true, course.map fun (delay, ending) => (w.channelMillis + delay, ending)⟩,
        { w.changeChannel place fun _ => channel with journal := w.journal ++ entries })

def finishCall (w : World) (call : PendingCall) (ending : Ending) : World :=
  if call.counted then w.changeChannel call.channel (·.finish ending w.now) else w

/-- Calls a channel and waits for the end of the call. -/
def sendAndWait (w : World) (place : Nat) (n : Notification) :
    Outcome (Except DeliveryError Unit) × World :=
  let (call, w) := w.startCall place n
  match call.course with
  | none => (.stuck, w)
  | some (due, ending) =>
    let w := { w with channelMillis := max w.channelMillis due }.finishCall call ending
    match ending with
    | .returned result => (.done result, w)
    | .brokenOff text => (.crashed text, w)

/-- Answers a call. The end of a call to a channel is waited for. -/
def answer (w : World) : (c : Call) → Outcome c.Answer × World
  | .now => (.done w.now, w)
  | .newId => (.done w.takeId.1, w.takeId.2)
  | .jitter bound =>
    let (d, jitter) := w.jitter.draw bound
    (.done d, { w with jitter })
  | .acquire key =>
    let (admitted, limiter) := w.limiter.acquire w.now key
    (.done admitted, { w with limiter })
  | .lock _ => (.done (), w)
  | .unlock _ => (.done (), w)
  | .findById id => (.done (.ok (w.store.find? id)), w)
  | .findByIds ids => (.done (.ok (w.store.findMany ids)), w)
  | .findByKey key => (.done (.ok (w.store.findKey? key)), w)
  | .findByStatus status limit => (.done (.ok (w.store.findByStatus status limit)), w)
  | .save n =>
    let (r, w) := w.withStore (w.store.save n)
    (.done r, w)
  | .saveWithOutbox n topic =>
    let (id, w) := w.takeId
    let (r, w) := w.withStore (w.store.saveWithOutbox n topic id w.now)
    (.done r, w)
  | .dueEvents now limit =>
    let (r, w) := w.withStore (w.store.dueEvents now limit)
    (.done r, w)
  | .markPublished id =>
    let (r, w) := w.withStore (w.store.markPublished id w.now)
    (.done r, w)
  | .markFailed id error next =>
    let (r, w) := w.withStore (w.store.markFailed id error next w.now)
    (.done r, w)
  | .deletePublished cutoff =>
    let (r, w) := w.withStore (w.store.deletePublished cutoff)
    (.done r, w)
  | .publish topic key payload =>
    let (r, bus) := w.bus.publish topic key payload w.now
    (.done r, { w with bus })
  | .poll consumer max => (.done (.ok (w.bus.poll consumer max)), w)
  | .commit consumer offset => (.done (.ok ()), { w with bus := w.bus.commit consumer offset })
  | .prune topic cutoff =>
    let (dropped, bus) := w.bus.prune topic cutoff
    (.done (.ok dropped), { w with bus })
  | .send place n => w.sendAndWait place n
  | .tally ledger what => (.done (), w.count ledger what)
  | .note entry => (.done (), { w with journal := w.journal ++ [entry] })

end World

namespace Prog

variable {α : Type}

/-- Runs a program to its end, each call as soon as the one before is answered. -/
def run : Prog α → World → Outcome α × World
  | .done a, w => (.done a, w)
  | .crash text, w => (.crashed text, w)
  | .ask c next, w =>
    match w.answer c with
    | (.done a, w) => (next a).run w
    | (.crashed text, w) => (.crashed text, w)
    | (.stuck, w) => (.stuck, w)

/-- How far a program got that does not wait for channels. -/
inductive Progress (α : Type) where
  | ended (outcome : Outcome α)
  | waiting (call : World.PendingCall) (next : Except DeliveryError Unit → Prog α)

/-- Runs a program to its end, or up to a call to a channel that takes time. -/
def runUntilWait : Prog α → World → Progress α × World
  | .done a, w => (.ended (.done a), w)
  | .crash text, w => (.ended (.crashed text), w)
  | .ask (.send place n) next, w =>
    let (call, w) := w.startCall place n
    match call.course with
    | some (due, ending) =>
      if due ≤ w.channelMillis then
        let w := w.finishCall call ending
        match ending with
        | .returned result => (next result).runUntilWait w
        | .brokenOff text => (.ended (.crashed text), w)
      else (.waiting call next, w)
    | none => (.waiting call next, w)
  | .ask c next, w =>
    match w.answer c with
    | (.done a, w) => (next a).runUntilWait w
    | (.crashed text, w) => (.ended (.crashed text), w)
    | (.stuck, w) => (.ended .stuck, w)

end Prog
end Courier
