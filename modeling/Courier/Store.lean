import Courier.Error
import Courier.OutboxEvent

/-!
The store: notifications, one for each idempotency key, and the outbox, in the order in which its
events were created. A notification and its outbox event are written in one step. Each operation
either does all it should or returns an error and changes neither table. Errors can be injected
into two slots: the next write, or the next use of the outbox, then fails.
-/

namespace Courier

structure Store where
  notifications : List Notification := []
  outbox : List OutboxEvent := []
  /-- The text of the error that the next write meets. -/
  saveError : Option String := none
  /-- The text of the error that the next use of the outbox meets. -/
  outboxError : Option String := none
  deriving DecidableEq

namespace Store

/-! ## Tables -/

def find? (s : Store) (id : Uuid) : Option Notification :=
  s.notifications.find? (·.id == id)

def findKey? (s : Store) (key : String) : Option Notification :=
  s.notifications.find? (·.idempotencyKey == key)

/-- The notifications with one put in the place of the one with its id, or at the end. -/
def putInto (n : Notification) : List Notification → List Notification
  | [] => [n]
  | m :: rest => if m.id = n.id then n :: rest else m :: putInto n rest

def byKey (s : Store) : List Notification :=
  s.notifications.mergeSort fun a b =>
    a.idempotencyKey < b.idempotencyKey ||
      a.idempotencyKey == b.idempotencyKey && (a.id.compare b.id).isLE

/-- Puts a notification without looking at its key. -/
def put (s : Store) (n : Notification) : Store :=
  { s with notifications := putInto n s.notifications }

def remove (s : Store) (id : Uuid) : Store :=
  { s with notifications := s.notifications.filter (·.id != id) }

/-- Whether another notification has the idempotency key. -/
def keyTaken (s : Store) (n : Notification) : Bool :=
  s.notifications.any fun m => m.idempotencyKey == n.idempotencyKey && m.id != n.id

/-- Changes the first event with an id, if there is one. -/
def changeEvent (id : Uuid) (change : OutboxEvent → OutboxEvent) :
    List OutboxEvent → Option (List OutboxEvent)
  | [] => none
  | e :: rest =>
    if e.id = id then some (change e :: rest)
    else (changeEvent id change rest).map (e :: ·)

/-! ## Operations -/

/-- What an operation returns, and the store after it. -/
abbrev Result (α : Type) := Except StoreError α × Store

/-- Where an error waits: for the next write, or for the next use of the outbox. -/
inductive Slot where
  | write
  | outbox

/-- The text of the error in a slot. -/
def waiting (s : Store) : Slot → Option String
  | .write => s.saveError
  | .outbox => s.outboxError

/-- The store after the error in a slot was met. -/
def spend (s : Store) : Slot → Store
  | .write => { s with saveError := none }
  | .outbox => { s with outboxError := none }

/-- Runs an operation, unless an error waits for it. -/
def guarded {α : Type} (s : Store) (slot : Slot) (run : Store → Result α) : Result α :=
  match s.waiting slot with
  | some message => (.error (.database message), s.spend slot)
  | none => run s

theorem guarded_of_none {α : Type} {s : Store} {run : Store → Result α} (slot : Slot)
    (h : s.waiting slot = none) : s.guarded slot run = run s := by
  rw [guarded, h]

theorem guarded_of_some {α : Type} {s : Store} {run : Store → Result α} {message : String}
    (slot : Slot) (h : s.waiting slot = some message) :
    s.guarded slot run = (.error (.database message), s.spend slot) := by
  rw [guarded, h]

def keyError (n : Notification) : StoreError :=
  .constraintViolation s!"idempotency key {n.idempotencyKey} already exists"

def save (s : Store) (n : Notification) : Result Unit :=
  s.guarded .write fun s =>
    if s.keyTaken n then (.error (keyError n), s) else (.ok (), s.put n)

/-- Saves a notification together with a new event that promises it to a topic. -/
def saveWithOutbox (s : Store) (n : Notification) (topic : String) (eventId : Uuid)
    (now : Instant) : Result OutboxEvent :=
  s.guarded .write fun s =>
    if s.keyTaken n then (.error (keyError n), s)
    else
      let event := OutboxEvent.pending eventId n.id topic now
      (.ok event, { s.put n with outbox := s.outbox ++ [event] })

/-- The stored ones of some notifications, in the order asked for. -/
def findMany (s : Store) (ids : List Uuid) : List Notification := ids.filterMap s.find?

/-- Whether one notification comes before another in a list by status: the one changed earlier, or
the one with the smaller id. -/
def listedBefore (a b : Notification) : Bool :=
  a.updatedAt < b.updatedAt || a.updatedAt == b.updatedAt && (a.id.compare b.id).isLE

/-- The notifications of a status, those unchanged for longest first, at most `limit`. -/
def findByStatus (s : Store) (status : Status) (limit : Nat) : List Notification :=
  ((s.notifications.filter (·.status == status)).mergeSort listedBefore).take limit

/-- The events due now, oldest first, at most `limit`. -/
def dueEvents (s : Store) (now : Instant) (limit : Nat) : Result (List OutboxEvent) :=
  s.guarded .outbox fun s =>
    let due := s.outbox.filter (·.isDue now)
    (.ok ((due.mergeSort fun a b => a.createdAt ≤ b.createdAt).take limit), s)

/-- Changes an event of the outbox, which has to exist. -/
def changing (s : Store) (id : Uuid) (change : OutboxEvent → OutboxEvent) : Result Unit :=
  s.guarded .outbox fun s =>
    match changeEvent id change s.outbox with
    | some outbox => (.ok (), { s with outbox })
    | none => (.error (.notFound s!"outbox event {id.text} not found"), s)

def markPublished (s : Store) (id : Uuid) (now : Instant) : Result Unit :=
  s.changing id (·.markPublished now)

def markFailed (s : Store) (id : Uuid) (error : String) (next now : Instant) : Result Unit :=
  s.changing id (·.markFailed error next now)

/-- Deletes the published events not changed since the cutoff, and counts them. -/
def deletePublished (s : Store) (cutoff : Instant) : Result Nat :=
  s.guarded .outbox fun s =>
    let kept := s.outbox.filter fun e => e.status != .published || cutoff ≤ e.updatedAt
    (.ok (s.outbox.length - kept.length), { s with outbox := kept })

end Store
end Courier
