import Courier.Error
import Courier.Text.Utf8

/-!
The bus: a log of records for each topic, and for each group of consumers of a topic a cursor. A
record gets the next offset of its topic. Polling shows the records from the cursor on and moves
nothing; committing a record moves the cursor behind it, never back. Pruning drops old records
that every group is done with. Publishing to a topic can be made to fail a number of times.
-/

namespace Courier

structure Record where
  topic : String
  partition : Int
  offset : Int
  key : Option String
  payload : Bytes
  deriving DecidableEq

structure LogEntry where
  record : Record
  appendedAt : Instant
  deriving DecidableEq

/-- The records of a topic that are kept, and the offset of the next one. That offset has no bound:
it grows by one with each record, and at one in each nanosecond it would take almost three hundred
years to reach the largest offset of 64 bits, where `behind` stays. -/
structure Log where
  entries : List LogEntry := []
  head : Int := 0
  deriving DecidableEq

structure Subscription where
  group : String
  topic : String
  deriving DecidableEq

structure Bus where
  logs : List (String × Log) := []
  cursors : List (Subscription × Int) := []
  /-- How many of the next records of a topic will be refused. -/
  refusals : List (String × Nat) := []
  deriving DecidableEq

namespace Bus

/-- A list of values by key with the value of one key set. -/
def set {κ β : Type} [DecidableEq κ] (key : κ) (value : β) : List (κ × β) → List (κ × β)
  | [] => [(key, value)]
  | (other, kept) :: rest =>
    if other = key then (key, value) :: rest else (other, kept) :: set key value rest

def log (b : Bus) (topic : String) : Log := (b.logs.lookup topic).getD {}

/-- The offset of the first record that a group has not committed. -/
def cursor (b : Bus) (s : Subscription) : Int := (b.cursors.lookup s).getD 0

/-- Appends a record to a topic, or refuses it. -/
def publish (b : Bus) (topic : String) (key : Option String) (payload : Bytes) (now : Instant) :
    Except DeliveryError Unit × Bus :=
  match (b.refusals.lookup topic).getD 0 with
  | left + 1 =>
    (.error (.publish topic "injected publish failure"),
      { b with refusals := set topic left b.refusals })
  | 0 =>
    let log := b.log topic
    let record : Record := ⟨topic, 0, log.head, key, payload⟩
    let log : Log := ⟨log.entries ++ [⟨record, now⟩], log.head + 1⟩
    (.ok (), { b with logs := set topic log b.logs })

/-- The first records that a group has not committed, at most `max`. -/
def poll (b : Bus) (s : Subscription) (max : Nat) : List Record :=
  (((b.log s.topic).entries.map LogEntry.record).filter (b.cursor s ≤ ·.offset)).take max

/-- The offset behind another one; the largest has none behind it. -/
def behind (offset : Int) : Int := min (offset + 1) 0x7fff_ffff_ffff_ffff

/-- Moves the cursor of a group behind an offset. -/
def commit (b : Bus) (s : Subscription) (offset : Int) : Bus :=
  { b with cursors := set s (max (b.cursor s) (behind offset)) b.cursors }

/-- The offset below which every group of a topic is done; zero if the topic has no group. -/
def lowWater (b : Bus) (topic : String) : Int :=
  ((b.cursors.filter (·.1.topic == topic)).map Prod.snd).min?.getD 0

/-- Drops the records of a topic that every group is done with and that were appended before the
cutoff, and counts them. -/
def prune (b : Bus) (topic : String) (cutoff : Instant) : Nat × Bus :=
  match b.logs.lookup topic with
  | none => (0, b)
  | some log =>
    let low := b.lowWater topic
    let kept := log.entries.filter fun e => low ≤ e.record.offset || cutoff ≤ e.appendedAt
    (log.entries.length - kept.length,
      { b with logs := set topic { log with entries := kept } b.logs })

def records (b : Bus) (topic : String) : List Record := (b.log topic).entries.map LogEntry.record

def refuseNext (b : Bus) (topic : String) (count : Nat) : Bus :=
  { b with refusals := set topic count b.refusals }

end Bus
end Courier
