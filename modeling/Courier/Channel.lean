import Courier.Breaker
import Courier.Email
import Courier.Webhook

/-!
Channels: what delivers notifications. A call to a channel gives a result at once or after a time;
it may also break off or never end. Behind a channel stands the email relay, a webhook client, or
a row of replies given in advance. A breaker may guard it: calls while it is open are refused,
calls that take too long are cut off, and every result is counted.
-/

namespace Courier

inductive Reply where
  | done (result : Except DeliveryError Unit)
  /-- The call breaks off without a result. -/
  | panic (text : String)
  | hang
  | after (millis : Nat) (next : Reply)

inductive Ending where
  | returned (result : Except DeliveryError Unit)
  | brokenOff (text : String)

namespace Reply

/-- After how many milliseconds a call ends, and how. Nothing if it never does. -/
def course : Reply → Option (Nat × Ending)
  | .done result => some (0, .returned result)
  | .panic text => some (0, .brokenOff text)
  | .hang => none
  | .after millis next => next.course.map fun (delay, ending) => (millis + delay, ending)

/-- The course of a call that is cut off after a budget. A call that ends just then counts. -/
def courseWithin (budget : Duration) (reply : Reply) : Nat × Ending :=
  let limit := (budget.nanos + 999_999) / 1_000_000
  let cut := (limit, .returned (.error (.timedOut budget)))
  match reply.course with
  | some (delay, ending) => if delay ≤ limit then (delay, ending) else cut
  | none => cut

end Reply

/-- What stands behind a channel. -/
inductive Line where
  | relay
  | webhook (client : WebhookClient) (transport : Transport)
  /-- Replies for the next calls, and one for all later calls. -/
  | script (replies : List Reply) (standing : Reply)

structure Channel where
  name : String
  media : List Medium
  line : Line
  breaker : Option Breaker
  /-- How many calls got past the breaker. -/
  calls : Nat := 0

/-- A call that has been made: refused by the breaker, or under way. -/
inductive CallStart where
  | refused (error : DeliveryError)
  | underWay (course : Option (Nat × Ending)) (entries : List JournalEntry)

namespace Channel

def email (breaker : Option Breaker) : Channel := ⟨Email.channelName, [.email], .relay, breaker, 0⟩

def webhook (client : WebhookClient) (transport : Transport) (breaker : Option Breaker) : Channel :=
  ⟨WebhookClient.channelName, [.webhook], .webhook client transport, breaker, 0⟩

def supports (c : Channel) (medium : Medium) : Bool := c.media.contains medium

/-- The reply of the line to a call, what it leaves in the journal, and the line after it. -/
def answer (line : Line) (n : Notification) : Reply × List JournalEntry × Line :=
  match line with
  | .relay =>
    match Email.deliver n with
    | .ok entry => (.done (.ok ()), [entry], line)
    | .error e => (.done (.error e), [], line)
  | .webhook client transport => (.done (client.deliver transport n), [], line)
  | .script [] standing => (standing, [], line)
  | .script (reply :: rest) standing => (reply, [], .script rest standing)

def start (c : Channel) (n : Notification) (now : Instant) : CallStart × Channel :=
  if (c.breaker.map (·.allows now)).getD true then
    let (reply, entries, line) := answer c.line n
    let course := match c.breaker with
      | some b => some (reply.courseWithin b.config.callTimeout)
      | none => reply.course
    (.underWay course entries, { c with line, calls := c.calls + 1 })
  else (.refused (.circuitOpen c.name), c)

/-- Counts the end of a call in the breaker. A call that broke off leaves no count. -/
def finish (c : Channel) (ending : Ending) (now : Instant) : Channel :=
  match c.breaker, ending with
  | some b, .returned (.ok _) => { c with breaker := some b.recordSuccess }
  | some b, .returned (.error _) => { c with breaker := some (b.recordFailure now).2 }
  | _, _ => c

end Channel

/-- The names and media of channels, in the order in which they are asked. -/
structure Registry where
  channels : List (String × List Medium)
  deriving DecidableEq

namespace Registry

def ofChannels (channels : List Channel) : Registry := ⟨channels.map fun c => (c.name, c.media)⟩

/-- The place and name of the first channel that delivers by a medium. -/
def find (r : Registry) (medium : Medium) : Except DeliveryError (Nat × String) :=
  match r.channels.zipIdx.find? fun entry => entry.1.2.contains medium with
  | some ((name, _), place) => .ok (place, name)
  | none => .error (.noChannel medium)

/-- Whether there is a channel for every medium, or the first one without. -/
def coverage (r : Registry) : Except DeliveryError Unit :=
  Medium.all.forM fun medium => (r.find medium).map fun _ => ()

def text (r : Registry) : String :=
  "[" ++ String.intercalate ", " (r.channels.map fun c => Text.quoted c.1) ++ "]"

end Registry
end Courier
