import Courier.Pipeline
import Courier.World

/-!
The workers of a running pipeline. A worker runs a round, sleeps, and runs the next; it may end,
and in a round it may wait for a channel. Sleeps end when the clock is moved to their deadlines,
the earliest first, and of equal ones the one that began first. Calls to channels end in a time of
their own. On shutdown sleeping workers end at once and the others when their round is over.
-/

namespace Courier

inductive Verdict where
  | sleep (pause : Duration)
  | again
  | stop

inductive Activity where
  /-- Asleep until a time in microseconds; the number tells which sleep began first. -/
  | sleeping (deadline : Int) (begun : Nat)
  | waiting (call : World.PendingCall) (next : Except DeliveryError Unit → Prog Verdict)
  | ended (panicked : Bool)

structure Worker where
  name : String
  round : Prog Verdict
  activity : Activity

namespace Worker

/-- The pause after a round that failed. -/
def errorPause : Duration := .ofSecs 5

/-- A round of a consumer: one batch, followed by the next unless there was nothing. -/
def consumerRound (c : Consumer) (pause : Duration) : Prog Verdict := do
  match ← c.batch.run with
  | .ok 0 => return .sleep pause
  | .ok _ => return .again
  | .error e => return if e.isFatal then .stop else .sleep errorPause

/-- A round of a job that is repeated at intervals. -/
def intervalRound {α : Type} (job : Job α) (pause : Duration) : Prog Verdict := do
  match ← job.run with
  | .ok _ => return .sleep pause
  | .error e => return if e.isFatal then .stop else .sleep pause

end Worker

structure Supervisor where
  workers : List Worker
  /-- How many sleeps have begun. -/
  begun : Nat := 0
  /-- Whether workers are to end as soon as they can. -/
  cancelled : Bool := false

abbrev Running := Supervisor × World

namespace Supervisor

/-- Puts a worker to sleep for a span from now on. -/
def lull (r : Running) (place : Nat) (pause : Duration) : Running :=
  let (s, w) := r
  let asleep := Activity.sleeping (w.clock.micros + pause.micros) s.begun
  ({ s with
      workers := s.workers.modify place fun worker => { worker with activity := asleep }
      begun := s.begun + 1 }, w)

def setActivity (r : Running) (place : Nat) (activity : Activity) : Running :=
  ({ r.1 with workers := r.1.workers.modify place fun worker => { worker with activity } }, r.2)

/-- Goes on with a worker from the progress of its round, until it sleeps, waits or ends. -/
def proceed (fuel : Nat) (r : Running) (place : Nat) (round : Prog Verdict)
    (progress : Prog.Progress Verdict) : Running :=
  match progress with
  | .waiting call next => setActivity r place (.waiting call next)
  | .ended (.done .stop) => setActivity r place (.ended false)
  | .ended (.done (.sleep pause)) =>
    if r.1.cancelled then setActivity r place (.ended false) else lull r place pause
  | .ended (.done .again) =>
    if r.1.cancelled then setActivity r place (.ended false)
    else match fuel with
      | 0 => setActivity r place (.ended false)
      | fuel + 1 =>
        let (progress, w) := round.runUntilWait r.2
        proceed fuel (r.1, w) place round progress
  | .ended _ => setActivity r place (.ended true)

/-- How many rounds in a row can have something to do: no more than there are records. -/
def roundLimit (w : World) : Nat :=
  w.bus.logs.foldl (fun sum entry => sum + entry.2.entries.length) 1

def wake (r : Running) (place : Nat) : Running :=
  match r.1.workers[place]? with
  | none => r
  | some worker =>
    let (progress, w) := worker.round.runUntilWait r.2
    proceed (roundLimit w) (r.1, w) place worker.round progress

/-! ## Sleeping -/

/-- The sleeping worker to be woken first: its deadline, the number of its sleep, its place. -/
def nextSleeper (s : Supervisor) : Option (Int × Nat × Nat) :=
  s.workers.zipIdx.foldl (fun best entry =>
    match entry.1.activity with
    | .sleeping deadline begun =>
      match best with
      | some (d, b, _) =>
        if deadline < d ∨ deadline = d ∧ begun < b then some (deadline, begun, entry.2) else best
      | none => some (deadline, begun, entry.2)
    | _ => best) none

/-- Wakes workers whose deadlines are not behind `target`, and counts them. -/
def wakeUntil (target : Int) : Nat → Running → Nat × Running
  | 0, r => (0, r)
  | fuel + 1, r =>
    match r.1.nextSleeper with
    | none => (0, r)
    | some (deadline, _, place) =>
      if target < deadline then (0, r)
      else
        let (woken, r) := wakeUntil target fuel
          (wake (r.1, { r.2 with clock := ⟨deadline⟩ }) place)
        (woken + 1, r)

/-- Moves the clock on by a span, waking workers on the way. Returns how many sleeps ended. -/
def advance (r : Running) (span : Duration) : Nat × Running :=
  let clock := r.2.clock.advance span
  let fuel := r.1.workers.length * (span.micros + 1)
  let (woken, s, w) := wakeUntil clock.micros fuel r
  (woken, s, { w with clock })

/-! ## Waiting for channels -/

/-- The waiting worker whose call ends first: the time, the place, the call, how it ends, and what
then follows. -/
def nextReturn (s : Supervisor) :
    Option (Nat × Nat × World.PendingCall × Ending × (Except DeliveryError Unit → Prog Verdict)) :=
  s.workers.zipIdx.foldl (fun best entry =>
    match entry.1.activity with
    | .waiting call next =>
      match call.course with
      | some (due, ending) =>
        match best with
        | some (d, _) => if due < d then some (due, entry.2, call, ending, next) else best
        | none => some (due, entry.2, call, ending, next)
      | none => best
    | _ => best) none

def resume (r : Running) (place : Nat) (call : World.PendingCall) (ending : Ending)
    (next : Except DeliveryError Unit → Prog Verdict) : Running :=
  let w := r.2.finishCall call ending
  match r.1.workers[place]?, ending with
  | some worker, .returned result =>
    let (progress, w) := (next result).runUntilWait w
    proceed (roundLimit w) (r.1, w) place worker.round progress
  | _, _ => setActivity (r.1, w) place (.ended true)

/-- Lets calls end that end by a time of the channels. -/
def returnUntil (target : Nat) : Nat → Running → Running
  | 0, r => r
  | fuel + 1, r =>
    match r.1.nextReturn with
    | none => r
    | some (due, place, call, ending, next) =>
      if target < due then r
      else
        let w := { r.2 with channelMillis := max r.2.channelMillis due }
        returnUntil target fuel (resume (r.1, w) place call ending next)

/-- Lets time pass for the channels. -/
def pass (r : Running) (millis : Nat) : Running :=
  let target := r.2.channelMillis + millis
  let (s, w) := returnUntil target (r.1.workers.length * (millis + 1)) r
  (s, { w with channelMillis := target })

/-! ## Starting and ending -/

/-- The five workers of a pipeline, not yet started. -/
def workersOf (p : Pipeline) : List Worker :=
  let resting := Activity.ended false
  let consumers := Topic.all.map fun topic =>
    let c := p.consumer .pipeline topic
    ⟨c.handler.name, Worker.consumerRound c p.settings.consumer.pollInterval, resting⟩
  consumers ++
    [⟨"outbox", Worker.intervalRound (p.publication.publishDue p.settings.outboxBatchLimit.toNat)
        p.settings.outboxPollInterval, resting⟩,
      ⟨"retention", Worker.intervalRound (p.retention .pipeline).sweep
        p.settings.retentionSweepInterval, resting⟩]

/-- Starts the workers, each of which goes on until it sleeps or waits. The last one, which
sweeps, begins with a sleep. -/
def start (p : Pipeline) (w : World) : Running :=
  let workers := workersOf p
  let w := { w with pipelineStats := { w.pipelineStats with activeWorkers := workers.length } }
  let r := (List.range (workers.length - 1)).foldl wake ({ workers }, w)
  lull r (workers.length - 1) p.settings.retentionSweepInterval

def firstEnded (s : Supervisor) : Option String :=
  (s.workers.find? fun worker => worker.activity matches .ended _).map Worker.name

/-- Looks for a worker that has ended, at intervals of a quarter of a second of the channels'
time, so many times after the first. -/
def waitForExit : Nat → Running → Option String × Running
  | 0, r => (r.1.firstEnded, r)
  | looks + 1, r =>
    match r.1.firstEnded with
    | some name => (some name, r)
    | none => waitForExit looks (pass r 250)

def cancelSleep (worker : Worker) : Worker :=
  match worker.activity with
  | .sleeping _ _ => { worker with activity := .ended false }
  | _ => worker

def firstPanic (s : Supervisor) : Option Nat :=
  s.workers.findIdx? fun worker => worker.activity matches .ended true

inductive Shutdown where
  | clean
  | workerPanicked (worker : Nat)
  | timedOut (budget : Duration)

/-- Ends all workers within a budget of the channels' time. -/
def shutdown (budget : Duration) (r : Running) : Shutdown × Running :=
  let s := { r.1 with workers := r.1.workers.map cancelSleep, cancelled := true }
  let (s, w) := pass (s, r.2) ((budget.nanos + 999_999) / 1_000_000)
  if s.workers.all fun worker => worker.activity matches .ended _ then
    let w := { w with pipelineStats := { w.pipelineStats with activeWorkers := 0 } }
    match s.firstPanic with
    | some worker => (.workerPanicked worker, s, w)
    | none => (.clean, s, w)
  else (.timedOut budget, s, w)

end Supervisor
end Courier
