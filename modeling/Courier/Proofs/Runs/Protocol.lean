import Courier.Pipeline

/-!
Where a program of the pipeline stands after the calls that were answered so far, and what it may
call from there. A stand keeps what the program has learned and still has to do: the events that
are left to publish, the record in hand and those polled behind it. `Moves` lists all calls that
count; any other call leaves the program where it stands.
-/

namespace Courier

/-- The notification that a record carries, if it can be read. -/
def Record.snapshot (r : Record) : Option Notification :=
  (Envelope.decode r.payload).toOption.map Envelope.notification

/-- A record carries a notification that knows no fewer failures than the row. -/
def Record.Covers (r : Record) (n : Notification) : Prop :=
  ∃ m, r.snapshot = some m ∧ m.id = n.id ∧ n.retryCount ≤ m.retryCount

/-- The group that consumes a topic. -/
def Topic.subscription (topic : Topic) : Subscription := ⟨Pipeline.group topic, topic.name⟩

namespace Call

/-- A call about nothing that lasts: time, chance, limits, locks, counts, notes and queries. -/
def Passes : Call → Prop
  | .now | .jitter _ | .acquire _ | .lock _ | .unlock _ | .findByIds _ | .findByKey _
  | .tally _ _ | .note _ => True
  | _ => False

/-- The answer is an error. -/
def Fails : (c : Call) → c.Answer → Prop
  | .findById _, a | .findByKey _, a | .findByIds _, a | .findByStatus _ _, a | .save _, a
  | .saveWithOutbox _ _, a | .dueEvents _ _, a | .markPublished _, a | .markFailed _ _ _, a
  | .deletePublished _, a | .publish _ _ _, a | .poll _ _, a | .commit _ _, a | .prune _ _, a
  | .send _ _, a => ∃ error, a = .error error
  | _, _ => False

end Call

/-- Why a notification is delivered: someone asks for it, or a record of a topic carries it. Then
the records polled behind it are kept too. -/
inductive Origin where
  | request
  | record (topic : Topic) (r : Record) (rest : List Record)

/-- Where a program stands. -/
inductive Stand where
  /-- Nothing that counts is left to do. -/
  | over
  /-- Intake, before and after a new identifier is drawn. -/
  | fresh
  | drew (id : Uuid)
  /-- The outbox: due events, of which the first is then looked up, published and marked. -/
  | fetching
  | publishing (due : List OutboxEvent)
  | lookedUp (e : OutboxEvent) (n : Notification) (due : List OutboxEvent)
  | announced (e : OutboxEvent) (due : List OutboxEvent)
  | putOff (e : OutboxEvent) (due : List OutboxEvent)
  /-- A batch, before records are polled. -/
  | polling (topic : Topic)
  /-- A delivery: before the lookup, before the channel answers, and after each answer. -/
  | handling (origin : Origin) (n : Notification)
  | attempting (origin : Origin) (n : Notification)
  | delivered (origin : Origin) (n : Notification)
  | rejected (origin : Origin) (n : Notification)
  /-- The record in hand is to be reported, or to be committed. -/
  | unreadable (topic : Topic) (r : Record) (rest : List Record)
  | settled (topic : Topic) (r : Record) (rest : List Record)
  /-- Dead letters, before they are listed, and those left to publish. -/
  | listing
  | republishing (ns : List Notification)
  | sweeping

/-- Where a delivery leads that has been recorded or was not needed. -/
def Origin.settled : Origin → Stand
  | .request => .over
  | .record topic r rest => .settled topic r rest

/-- Where a delivery leads whose notification cannot be read. -/
def Origin.unreadable : Origin → Stand
  | .request => .over
  | .record topic r rest => .unreadable topic r rest

namespace Stand

/-- In front of polled records, with the first of them in hand. -/
def facing (topic : Topic) : List Record → Stand
  | [] => .over
  | r :: rest =>
    match topic, r.snapshot with
    | .deadLetter, _ => .settled topic r rest
    | _, some n => .handling (.record topic r rest) n
    | _, none => .unreadable topic r rest

/-- The record in hand is a dead letter, or carries a notification, or cannot be read. -/
theorem facing_cons (topic : Topic) (r : Record) (rest : List Record) :
    topic = .deadLetter ∧ facing topic (r :: rest) = .settled topic r rest ∨
      (∃ n, r.snapshot = some n ∧
        facing topic (r :: rest) = .handling (.record topic r rest) n) ∨
      r.snapshot = none ∧ facing topic (r :: rest) = .unreadable topic r rest := by
  by_cases htopic : topic = .deadLetter
  · subst htopic
    exact Or.inl ⟨rfl, rfl⟩
  · cases hsnapshot : r.snapshot with
    | none =>
        refine Or.inr (Or.inr ⟨rfl, ?_⟩)
        cases topic with
        | deadLetter => exact absurd rfl htopic
        | _ => simp only [facing, hsnapshot]
    | some n =>
        refine Or.inr (Or.inl ⟨n, rfl, ?_⟩)
        cases topic with
        | deadLetter => exact absurd rfl htopic
        | _ => simp only [facing, hsnapshot]

/-- An event has been published but not marked yet. A program does not end here by itself. -/
def Announces (id : Uuid) : Stand → Prop
  | .announced e _ => e.id = id
  | _ => False

/-- No event is published without being marked. -/
def Rests (s : Stand) : Prop := ∀ id, ¬ s.Announces id

end Stand

/-- The message says less than the store, so it is skipped. -/
def Notification.Outdates (stored n : Notification) : Prop :=
  stored.status = .sent ∨ n.retryCount < stored.retryCount

/-- A program at a stand makes a call, is answered, and comes to another stand. -/
inductive Moves : Stand → (c : Call) → c.Answer → Stand → Prop
  | passes {s c a} (h : c.Passes) : Moves s c a s
  | fails {s c a} (h : c.Fails a) (hrests : s.Rests) : Moves s c a .over
  | draws {id} : Moves .fresh .newId id (.drew id)
  | promises {n e} (hpending : n.status = .pending) (hcount : n.retryCount = 0) :
      Moves (.drew n.id) (.saveWithOutbox n Topic.send.name) (.ok e) .over
  | fetches {now limit due} : Moves .fetching (.dueEvents now limit) (.ok due) (.publishing due)
  | looksUp {e due n} :
      Moves (.publishing (e :: due)) (.findById e.notificationId) (.ok (some n))
        (.lookedUp e n due)
  | misses {e due} :
      Moves (.publishing (e :: due)) (.findById e.notificationId) (.ok none) .over
  | announces {e n due key now} :
      Moves (.lookedUp e n due) (.publish e.topic key (Envelope.ofNotification n now).encode)
        (.ok ()) (.announced e due)
  | misfires {e n due key now error} :
      Moves (.lookedUp e n due) (.publish e.topic key (Envelope.ofNotification n now).encode)
        (.error error) (.putOff e due)
  | marks {e due} :
      Moves (.announced e due) (.markPublished e.id) (.ok ()) (.publishing due)
  | forgets {e due error} :
      Moves (.announced e due) (.markPublished e.id) (.error error) .over
  | postpones {e due error next} :
      Moves (.putOff e due) (.markFailed e.id error next) (.ok ()) (.publishing due)
  | polls {topic max rs} :
      Moves (.polling topic) (.poll topic.subscription max) (.ok rs) (.facing topic rs)
  | skips {o n stored} (h : stored.Outdates n) :
      Moves (.handling o n) (.findById n.id) (.ok (some stored)) o.settled
  | begins {o n stored} (h : ¬ stored.Outdates n) :
      Moves (.handling o n) (.findById n.id) (.ok (some stored)) (.attempting o stored)
  | trusts {o n} : Moves (.handling o n) (.findById n.id) (.ok none) (.attempting o n)
  | delivers {o n place} : Moves (.attempting o n) (.send place n) (.ok ()) (.delivered o n)
  | rejects {o n place error} (h : error.isDeliveryFailure = true) :
      Moves (.attempting o n) (.send place n) (.error error) (.rejected o n)
  | garbles {o n place message} :
      Moves (.attempting o n) (.send place n) (.error (.deserialization message)) o.unreadable
  | records {o n now} : Moves (.delivered o n) (.save (n.sent now)) (.ok ()) o.settled
  | reschedules {o n failure next now e} (h : (countUp n.retryCount).toNat < 0xffff_ffff) :
      Moves (.rejected o n)
        (.saveWithOutbox (n.retryScheduled failure next now) Topic.retry.name) (.ok e) o.settled
  | buries {o n failure now e} :
      Moves (.rejected o n)
        (.saveWithOutbox (n.deadLettered failure now) Topic.deadLetter.name) (.ok e) o.settled
  | numbers {topic r rest id} :
      Moves (.unreadable topic r rest) .newId id (.unreadable topic r rest)
  | reports {topic r rest key payload} :
      Moves (.unreadable topic r rest) (.publish Topic.deadLetter.name key payload) (.ok ())
        (.settled topic r rest)
  | commits {topic r rest} :
      Moves (.settled topic r rest) (.commit topic.subscription r.offset) (.ok ())
        (.facing topic rest)
  | lists {limit ns} :
      Moves .listing (.findByStatus .deadLettered limit) (.ok ns) (.republishing ns)
  | republishes {n ns key now} :
      Moves (.republishing (n :: ns))
        (.publish Topic.send.name key (Envelope.ofNotification n now).encode) (.ok ())
        (.republishing ns)
  | deletes {cutoff count} : Moves .sweeping (.deletePublished cutoff) (.ok count) .sweeping
  | prunes {topic cutoff count} : Moves .sweeping (.prune topic cutoff) (.ok count) .sweeping

/-! ## Programs that keep to the protocol -/

/-- A program keeps to the protocol from a stand on, whatever it is answered. If it returns, its
value and the stand it then has are as told; if it breaks off, it rests. -/
def Prog.Leads {α : Type} : Stand → Prog α → (α → Stand → Prop) → Prop
  | s, .done a, Q => Q a s
  | s, .crash _, _ => s.Rests
  | s, .ask c next, Q => ∀ a, ∃ s', Moves s c a s' ∧ (next a).Leads s' Q

namespace Prog

variable {α β : Type} {s : Stand}

theorem leads_bind {p : Prog α} {f : α → Prog β} {R : α → Stand → Prop} {Q : β → Stand → Prop}
    (hp : p.Leads s R) (hf : ∀ a s', R a s' → (f a).Leads s' Q) : (p.bind f).Leads s Q := by
  induction p generalizing s with
  | done a => exact hf a s hp
  | crash text => exact hp
  | ask c next ih =>
      intro a
      obtain ⟨s', hmove, hnext⟩ := hp a
      exact ⟨s', hmove, ih a hnext⟩

theorem leads_mono {p : Prog α} {R Q : α → Stand → Prop} (hp : p.Leads s R)
    (h : ∀ a s', R a s' → Q a s') : p.Leads s Q := by
  induction p generalizing s with
  | done a => exact h a s hp
  | crash text => exact hp
  | ask c next ih =>
      intro a
      obtain ⟨s', hmove, hnext⟩ := hp a
      exact ⟨s', hmove, ih a hnext⟩

end Prog

namespace Job

variable {α β : Type} {s : Stand} {Q : α → Stand → Prop} {E : DeliveryError → Stand → Prop}

def ends (Q : α → Stand → Prop) (E : DeliveryError → Stand → Prop) :
    Except DeliveryError α → Stand → Prop
  | .ok a => Q a
  | .error error => E error

/-- A job keeps to the protocol. -/
def Leads (s : Stand) (job : Job α) (Q : α → Stand → Prop)
    (E : DeliveryError → Stand → Prop) : Prop :=
  Prog.Leads s job.run (ends Q E)

theorem leads_pure {a : α} (h : Q a s) : Leads s (pure a) Q E := h

theorem leads_throw {error : DeliveryError} (h : E error s) : Leads s (throw error) Q E := h

theorem leads_bind {job : Job β} {f : β → Job α} {R : β → Stand → Prop}
    (hjob : job.Leads s R E) (hf : ∀ b s', R b s' → (f b).Leads s' Q E) :
    (job >>= f).Leads s Q E := by
  apply Prog.leads_bind hjob
  intro result s' hresult
  cases result with
  | ok b => exact hf b s' hresult
  | error error => exact hresult

/-- A call that leaves the program where it stands. -/
theorem leads_passing {c : Call} {f : c.Answer → Job α} (h : c.Passes)
    (hf : ∀ a, (f a).Leads s Q E) : (Job.call c >>= f).Leads s Q E := by
  intro a
  exact ⟨s, .passes h, hf a⟩

theorem leads_call {c : Call} {R : c.Answer → Stand → Prop}
    (h : ∀ a, ∃ s', Moves s c a s' ∧ R a s') : (Job.call c).Leads s R E := h

theorem leads_store {p : Prog (Except StoreError α)}
    (h : p.Leads s fun result => ends Q E (result.mapError DeliveryError.ofStore)) :
    (Job.store p).Leads s Q E :=
  Prog.leads_bind h fun _ _ hresult => hresult

theorem leads_outcome {job : Job β} {Q : Except DeliveryError β → Stand → Prop}
    (h : job.Leads s (fun b => Q (.ok b)) fun error => Q (.error error)) :
    job.outcome.Leads s Q E := by
  apply Prog.leads_bind h
  intro result s' hresult
  cases result with
  | ok b => exact hresult
  | error error => exact hresult

theorem leads_orCrash {r : Except Instant.Overflow α} (hrests : s.Rests)
    (h : ∀ a, r = .ok a → Q a s) : (Job.orCrash r).Leads s Q E := by
  cases r with
  | ok a => exact h a rfl
  | error o => exact hrests

end Job
end Courier
