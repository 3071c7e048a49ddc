import Courier.Proofs.Alone.Promptness
import Courier.Proofs.Alone.Sights
import Courier.Proofs.Draining.Work

/-!
Sweeps cannot be noticed. A closed run and the same run without its sweeps go side by side: at any
time the worlds differ in published events, in records that the group of their topic has committed,
and in counts. No operation but a sweep looks at any of these. It takes due events from the pending
ones and records from those that are unread, it appends at the head of a topic, and the event that
it marks is a pending one.
-/

namespace Courier

/-! ## The store -/

def OutboxEvent.isPending (e : OutboxEvent) : Bool := e.status == .pending

namespace Store

/-- The events that are still to be published. -/
def pendingEvents (s : Store) : List OutboxEvent := s.outbox.filter OutboxEvent.isPending

/-- A store becomes another by sweeps: events that are not pending may be gone. -/
structure SweepsTo (s t : Store) : Prop where
  notifications : t.notifications = s.notifications
  saveError : t.saveError = s.saveError
  outboxError : t.outboxError = s.outboxError
  outbox_sublist : t.outbox.Sublist s.outbox
  pending : t.pendingEvents = s.pendingEvents

/-- Two stores give the same result, and one still becomes the other. -/
def Result.SweepsTo {α : Type} (r r' : Result α) : Prop := r.1 = r'.1 ∧ r.2.SweepsTo r'.2

variable {α : Type} {s t : Store}

theorem SweepsTo.refl (s : Store) : s.SweepsTo s := ⟨rfl, rfl, rfl, .refl _, rfl⟩

private theorem SweepsTo.waiting (h : s.SweepsTo t) (slot : Slot) :
    t.waiting slot = s.waiting slot := by
  cases slot with
  | write => exact h.saveError
  | outbox => exact h.outboxError

private theorem SweepsTo.spend (h : s.SweepsTo t) (slot : Slot) :
    (s.spend slot).SweepsTo (t.spend slot) := by
  cases slot with
  | write => exact { h with saveError := rfl }
  | outbox => exact { h with outboxError := rfl }

private theorem SweepsTo.guarded (h : s.SweepsTo t) {slot : Slot} {run : Store → Result α}
    (hrun : (run s).SweepsTo (run t)) : (s.guarded slot run).SweepsTo (t.guarded slot run) := by
  rw [Store.guarded, Store.guarded, h.waiting]
  cases s.waiting slot with
  | some message => exact ⟨rfl, h.spend slot⟩
  | none => exact hrun

private theorem SweepsTo.put (h : s.SweepsTo t) (n : Notification) :
    (s.put n).SweepsTo (t.put n) :=
  { h with notifications := congrArg (putInto n) h.notifications }

private theorem SweepsTo.keyTaken (h : s.SweepsTo t) (n : Notification) :
    t.keyTaken n = s.keyTaken n := by
  rw [Store.keyTaken, Store.keyTaken, h.notifications]

theorem SweepsTo.save (h : s.SweepsTo t) (n : Notification) : (s.save n).SweepsTo (t.save n) := by
  refine h.guarded ?_
  rw [h.keyTaken]
  split
  · exact ⟨rfl, h⟩
  · exact ⟨rfl, h.put n⟩

theorem SweepsTo.saveWithOutbox (h : s.SweepsTo t) (n : Notification) (topic : String) (id : Uuid)
    (now : Instant) :
    (s.saveWithOutbox n topic id now).SweepsTo (t.saveWithOutbox n topic id now) := by
  refine h.guarded ?_
  rw [h.keyTaken]
  split
  · exact ⟨rfl, h⟩
  · refine ⟨rfl, { h.put n with outbox_sublist := h.outbox_sublist.append_right _, pending := ?_ }⟩
    simp only [pendingEvents, List.filter_append]
    exact congrArg (· ++ _) h.pending

/-- What is due is pending. -/
private theorem filter_isDue (s : Store) (now : Instant) :
    s.outbox.filter (·.isDue now) = s.pendingEvents.filter (·.isDue now) := by
  rw [pendingEvents, List.filter_filter]
  refine List.filter_congr fun e _ => ?_
  rw [OutboxEvent.isDue, OutboxEvent.isPending]
  cases e.status == .pending <;> simp

theorem SweepsTo.dueEvents (h : s.SweepsTo t) (now : Instant) (limit : Nat) :
    (s.dueEvents now limit).SweepsTo (t.dueEvents now limit) := by
  refine h.guarded ⟨?_, h⟩
  dsimp only
  rw [filter_isDue, filter_isDue, h.pending]

/-- Where no event becomes pending, what is pending after a change depends on nothing else. -/
private theorem filter_map_isPending (change : OutboxEvent → OutboxEvent)
    (hchange : ∀ e, (change e).isPending = true → e.isPending = true) (events : List OutboxEvent) :
    (events.map change).filter OutboxEvent.isPending =
      ((events.filter OutboxEvent.isPending).map change).filter OutboxEvent.isPending := by
  rw [List.filter_map, List.filter_map, List.filter_filter]
  refine congrArg (List.map change) (List.filter_congr fun e _ => ?_)
  exact (Bool.and_eq_left_iff_imp.mpr (hchange e)).symm

/-- The event that is changed is a pending one, so it has not been swept. -/
private theorem SweepsTo.changing (h : s.SweepsTo t) (hnodup : (s.outbox.map (·.id)).Nodup)
    {e : OutboxEvent} (he : e ∈ s.pendingEvents) {change : OutboxEvent → OutboxEvent}
    (hchange : ∀ e, (change e).isPending = true → e.isPending = true) :
    (s.changing e.id change).SweepsTo (t.changing e.id change) := by
  have hthere : e ∈ t.outbox := (List.mem_filter.mp (h.pending ▸ he)).1
  obtain ⟨events, hevents⟩ := exists_changeEvent change (List.mem_filter.mp he).1
  obtain ⟨events', hevents'⟩ := exists_changeEvent change hthere
  have hnodup' : (t.outbox.map (·.id)).Nodup := hnodup.sublist (h.outbox_sublist.map _)
  refine h.guarded ?_
  rw [hevents, hevents']
  rw [eq_map_of_changeEvent hnodup hevents, eq_map_of_changeEvent hnodup' hevents']
  refine ⟨rfl, { h with outbox_sublist := h.outbox_sublist.map _, pending := ?_ }⟩
  have hkept (x : OutboxEvent) (hx : (if x.id = e.id then change x else x).isPending = true) :
      x.isPending = true := by
    split at hx
    · exact hchange x hx
    · exact hx
  rw [pendingEvents, pendingEvents, filter_map_isPending _ hkept t.outbox,
    filter_map_isPending _ hkept s.outbox]
  exact congrArg (fun events : List OutboxEvent => (events.map _).filter _) h.pending

theorem SweepsTo.markPublished (h : s.SweepsTo t) (hnodup : (s.outbox.map (·.id)).Nodup)
    {e : OutboxEvent} (he : e ∈ s.pendingEvents) (now : Instant) :
    (s.markPublished e.id now).SweepsTo (t.markPublished e.id now) :=
  h.changing hnodup he fun _ hpending => nomatch hpending

theorem SweepsTo.markFailed (h : s.SweepsTo t) (hnodup : (s.outbox.map (·.id)).Nodup)
    {e : OutboxEvent} (he : e ∈ s.pendingEvents) (error : String) (next now : Instant) :
    (s.markFailed e.id error next now).SweepsTo (t.markFailed e.id error next now) :=
  h.changing hnodup he fun _ hpending => hpending

/-- A sweep deletes what is not pending. -/
theorem SweepsTo.deletePublished (h : s.SweepsTo t) (hnone : s.outboxError = none)
    (cutoff : Instant) : s.SweepsTo (t.deletePublished cutoff).2 := by
  have hdeleted : (t.deletePublished cutoff).2 = { t with
      outbox := t.outbox.filter fun e => e.status != .published || cutoff ≤ e.updatedAt } := by
    rw [Store.deletePublished, Store.guarded_of_none .outbox (h.outboxError.trans hnone)]
  rw [hdeleted]
  refine { h with
    outbox_sublist := List.filter_sublist.trans h.outbox_sublist
    pending := Eq.trans ?_ h.pending }
  rw [pendingEvents, pendingEvents, List.filter_filter]
  refine List.filter_congr fun e _ => ?_
  rw [Bool.and_eq_left_iff_imp, OutboxEvent.isPending]
  intro hpending
  rw [beq_iff_eq.mp hpending]
  rfl

end Store

/-! ## The bus -/

namespace Bus

/-- A bus becomes another by sweeps: records that are not unread may be gone. -/
structure SweepsTo (b c : Bus) : Prop where
  cursors : c.cursors = b.cursors
  refusals : c.refusals = b.refusals
  head : ∀ topic, (c.log topic).head = (b.log topic).head
  unread : ∀ topic : Topic, c.unread topic = b.unread topic

variable {b c : Bus}

theorem SweepsTo.refl (b : Bus) : b.SweepsTo b := ⟨rfl, rfl, fun _ => rfl, fun _ => rfl⟩

theorem SweepsTo.cursor (h : b.SweepsTo c) (s : Subscription) : c.cursor s = b.cursor s := by
  rw [Bus.cursor, Bus.cursor, h.cursors]

theorem SweepsTo.poll (h : b.SweepsTo c) (topic : Topic) (max : Nat) :
    b.poll topic.subscription max = c.poll topic.subscription max :=
  congrArg (List.take max) (h.unread topic).symm

theorem SweepsTo.publish (h : b.SweepsTo c) (topic : String) (key : Option String) (payload : Bytes)
    (now : Instant) :
    (b.publish topic key payload now).1 = (c.publish topic key payload now).1 ∧
      (b.publish topic key payload now).2.SweepsTo (c.publish topic key payload now).2 := by
  have hrefused : c.refused topic = b.refused topic := by rw [refused, refused, h.refusals]
  cases hleft : b.refused topic with
  | succ left =>
      rw [publish_of_refused hleft, publish_of_refused (hrefused.trans hleft)]
      exact ⟨rfl, { h with refusals := congrArg (set topic left) h.refusals }⟩
  | zero =>
      rw [publish_of_room hleft, publish_of_room (hrefused.trans hleft)]
      refine ⟨rfl, h.cursors, h.refusals, fun other => ?_, fun other => ?_⟩
      · by_cases hother : other = topic
        · subst hother
          rw [head_append_self, head_append_self, h.head]
        · rw [log_append_of_ne _ _ _ _ _ hother, log_append_of_ne _ _ _ _ _ hother, h.head]
      · rw [unread_append, unread_append, h.unread, h.head, h.cursor]

theorem SweepsTo.commit (h : b.SweepsTo c) (topic : Topic) (offset : Int) :
    (b.commit topic.subscription offset).SweepsTo (c.commit topic.subscription offset) where
  cursors := by rw [Bus.commit, Bus.commit, h.cursor, h.cursors]
  refusals := h.refusals
  head := h.head
  unread other := by
    by_cases hother : other = topic
    · subst hother
      rw [unread_commit_self, unread_commit_self, h.unread]
    · rw [unread_commit_of_ne hother, unread_commit_of_ne hother, h.unread]

/-- A sweep drops what the only group of a topic has committed. -/
theorem SweepsTo.prune (h : b.SweepsTo c)
    (hown : ∀ entry ∈ b.cursors, ∀ topic : Topic, entry.1.topic = topic.name →
      entry.1 = topic.subscription) (topic : String) (cutoff : Instant) :
    b.SweepsTo (c.prune topic cutoff).2 where
  cursors := (cursors_prune c topic).trans h.cursors
  refusals := (refusals_prune c topic cutoff).trans h.refusals
  head other := (head_prune c topic other).trans (h.head other)
  unread other := by
    refine (unread_prune (lowWater_le_cursor fun entry hentry htopic => ?_) cutoff).trans
      (h.unread other)
    exact hown entry (h.cursors ▸ hentry) other htopic

end Bus

/-! ## Calls -/

namespace World

/-- A world becomes another by sweeps. What was counted is left out of account. -/
structure SweepsTo (v w : World) : Prop where
  rest : ∃ store bus pipelineStats loopStats,
    w = { v with store, bus, pipelineStats, loopStats }
  store : v.store.SweepsTo w.store
  bus : v.bus.SweepsTo w.bus

/-- A call that is no part of a sweep. Topics are read for their own groups, and what is marked is
pending. -/
def Admits (w : World) : Call → Prop
  | .markPublished id | .markFailed id _ _ => ∃ e ∈ w.store.pendingEvents, e.id = id
  | .poll s _ | .commit s _ => ∃ topic : Topic, s = topic.subscription
  | .deletePublished _ | .prune _ _ => False
  | _ => True

namespace SweepsTo

variable {v w : World}

theorem refl (w : World) : w.SweepsTo w := ⟨⟨_, _, _, _, rfl⟩, .refl _, .refl _⟩

theorem serial_eq (h : v.SweepsTo w) : w.serial = v.serial := by
  obtain ⟨store, bus, pipelineStats, loopStats, rfl⟩ := h.rest
  rfl

/-- Whatever is no part of a sweep is answered the same, and does the same. -/
theorem answer (h : v.SweepsTo w) (hnodup : (v.store.outbox.map (·.id)).Nodup) {c : Call}
    (hc : v.Admits c) :
    (v.answer c).1 = (w.answer c).1 ∧ (v.answer c).2.SweepsTo (w.answer c).2 := by
  obtain ⟨hrest, hstore, hbus⟩ := h
  obtain ⟨store, bus, pipelineStats, loopStats, rfl⟩ := hrest
  have hrows : store.notifications = v.store.notifications := hstore.notifications
  have hfind : store.find? = v.store.find? := by
    funext id
    rw [Store.find?, hrows, Store.find?]
  cases c with
  | findById _ | findByIds _ | findByKey _ | findByStatus _ _ =>
      refine ⟨?_, ⟨_, _, _, _, rfl⟩, hstore, hbus⟩
      simp only [World.answer, hfind, Store.findMany, Store.findKey?, Store.findByStatus, hrows]
  | save n =>
      obtain ⟨hresult, hleft⟩ := hstore.save n
      exact ⟨congrArg Outcome.done hresult, ⟨_, _, _, _, rfl⟩, hleft, hbus⟩
  | saveWithOutbox n topic =>
      obtain ⟨hresult, hleft⟩ := hstore.saveWithOutbox n topic (v.ids.draw v.serial) v.now
      exact ⟨congrArg Outcome.done hresult, ⟨_, _, _, _, rfl⟩, hleft, hbus⟩
  | dueEvents now limit =>
      obtain ⟨hresult, hleft⟩ := hstore.dueEvents now limit
      exact ⟨congrArg Outcome.done hresult, ⟨_, _, _, _, rfl⟩, hleft, hbus⟩
  | markPublished id =>
      obtain ⟨e, he, rfl⟩ := hc
      obtain ⟨hresult, hleft⟩ := hstore.markPublished hnodup he v.now
      exact ⟨congrArg Outcome.done hresult, ⟨_, _, _, _, rfl⟩, hleft, hbus⟩
  | markFailed id error next =>
      obtain ⟨e, he, rfl⟩ := hc
      obtain ⟨hresult, hleft⟩ := hstore.markFailed hnodup he error next v.now
      exact ⟨congrArg Outcome.done hresult, ⟨_, _, _, _, rfl⟩, hleft, hbus⟩
  | deletePublished cutoff => exact hc.elim
  | publish topic key payload =>
      obtain ⟨hresult, hleft⟩ := hbus.publish topic key payload v.now
      exact ⟨congrArg Outcome.done hresult, ⟨_, _, _, _, rfl⟩, hstore, hleft⟩
  | poll s max =>
      obtain ⟨topic, rfl⟩ := hc
      refine ⟨?_, ⟨_, _, _, _, rfl⟩, hstore, hbus⟩
      exact congrArg (Outcome.done ∘ Except.ok) (hbus.poll topic max)
  | commit s offset =>
      obtain ⟨topic, rfl⟩ := hc
      exact ⟨rfl, ⟨_, _, _, _, rfl⟩, hstore, hbus.commit topic offset⟩
  | prune topic cutoff => exact hc.elim
  | send place n =>
      have hsend := v.sendAndWait_with store bus pipelineStats loopStats place n
      obtain ⟨channels, journal, millis, heq⟩ := v.sendAndWait_eq place n
      rw [answer, answer, hsend, heq]
      exact ⟨rfl, ⟨_, _, _, _, rfl⟩, hstore, hbus⟩
  | tally ledger what =>
      cases ledger <;> exact ⟨rfl, ⟨_, _, _, _, rfl⟩, hstore, hbus⟩
  | _ => exact ⟨rfl, ⟨_, _, _, _, rfl⟩, hstore, hbus⟩

theorem sight_eq (h : v.SweepsTo w) {c : Call} (hanswer : (v.answer c).1 = (w.answer c).1) :
    v.sight c = w.sight c := by
  have hoffset : (v.sight c).offset = (w.sight c).offset := by
    cases c with
    | publish topic key payload => exact congrArg some (h.bus.head topic).symm
    | _ => rfl
  exact (Sight.mk.injEq ..).mpr ⟨rfl, heq_of_eq hanswer, hoffset⟩

/-- What a sweep calls on one side goes unnoticed on the other. -/
theorem sweeps (h : v.SweepsTo w) (hnone : v.store.outboxError = none) (hsound : v.books.Sound)
    {c : Call} (hc : c.Sweeps) : v.SweepsTo (w.answer c).2 := by
  obtain ⟨hrest, hstore, hbus⟩ := h
  obtain ⟨store, bus, pipelineStats, loopStats, rfl⟩ := hrest
  cases c with
  | now => exact ⟨⟨_, _, _, _, rfl⟩, hstore, hbus⟩
  | deletePublished cutoff =>
      exact ⟨⟨_, _, _, _, rfl⟩, hstore.deletePublished hnone cutoff, hbus⟩
  | prune topic cutoff =>
      exact ⟨⟨_, _, _, _, rfl⟩, hstore, hbus.prune hsound.cursors_own topic cutoff⟩
  | tally ledger what => cases ledger <;> exact ⟨⟨_, _, _, _, rfl⟩, hstore, hbus⟩
  | _ => exact hc.elim

theorem sweep (h : v.SweepsTo w) (hnone : v.store.outboxError = none) (hsound : v.books.Sound)
    (r : Retention) : v.SweepsTo (w.obey (.run (.sweep r))) := by
  have hsweep : r.sweep.Heeds (fun _ => True) Call.Sweeps fun _ => True :=
    r.heeds_sweep fun _ hc => hc
  change v.SweepsTo ((r.sweep.run.bind fun _ => .done ()).run w).2
  rw [Prog.world_run_discard]
  exact hsweep.run (I := fun w => v.SweepsTo w) h fun h hc =>
    ⟨h.sweeps hnone hsound hc, fun _ _ => trivial⟩

end SweepsTo
end World

/-! ## Programs -/

/-- No property is asked for: that the books are in order is enough. -/
private def InOrder : Alone := fun _ _ _ => True

private theorem InOrder.lasts : InOrder.Lasts where
  starts _ _ := trivial
  moves := by
    unfold Alone.Kept
    intros
    exact trivial
  leaves _ _ := trivial

/-- Where a program stands that makes a call of those that are not always admitted. -/
private def Stand.Calls (s : Stand) : Call → Prop
  | .markPublished id => ∃ e due, s = .announced e due ∧ e.id = id
  | .markFailed id _ _ => ∃ e due, s = .putOff e due ∧ e.id = id
  | .poll sub _ | .commit sub _ => ∃ topic : Topic, sub = topic.subscription
  | .deletePublished _ | .prune _ _ => s = .sweeping
  | _ => True

private theorem Moves.calls {s s' : Stand} {c : Call} {a : c.Answer} (h : Moves s c a s') :
    c.Fails a ∨ s.Calls c := by
  cases h with
  | fails hc => exact Or.inl hc
  | passes hc =>
      cases c with
      | markPublished | markFailed | poll | commit | deletePublished | prune => exact hc.elim
      | _ => exact Or.inr trivial
  | marks | forgets | postpones => exact Or.inr ⟨_, _, rfl, rfl⟩
  | polls | commits => exact Or.inr ⟨_, rfl⟩
  | deletes | prunes => exact Or.inr rfl
  | _ => exact Or.inr trivial

/-- What a program calls that is no sweep is no part of one. -/
private theorem Account.At.admits {t : Account} {s : Stand} {c : Call} (h : t.At InOrder s)
    (hleads : ∀ a, ∃ s', Moves s c a s') (htask : s.task ≠ some .retention) :
    t.world.Admits c := by
  have hstand := h.orderly.stands 0
  rw [Stand.only_zero] at hstand
  have hpending {e : OutboxEvent} {due : List OutboxEvent}
      (hdue : t.world.books.Publishes (e :: due)) : e ∈ t.world.store.pendingEvents := by
    obtain ⟨hmem, hstatus⟩ := hdue.2 e List.mem_cons_self
    exact List.mem_filter.mpr ⟨hmem, beq_iff_eq.mpr hstatus⟩
  -- Whatever is called may also succeed.
  have hcalls {a : c.Answer} (hok : ¬ c.Fails a) : s.Calls c := by
    obtain ⟨s', hmove⟩ := hleads a
    exact hmove.calls.resolve_left hok
  cases c with
  | markPublished id =>
      obtain ⟨e, due, rfl, rfl⟩ := hcalls (a := .ok ()) fun hfails => nomatch hfails.choose_spec
      exact ⟨e, hpending hstand, rfl⟩
  | markFailed id error next =>
      obtain ⟨e, due, rfl, rfl⟩ := hcalls (a := .ok ()) fun hfails => nomatch hfails.choose_spec
      exact ⟨e, hpending hstand, rfl⟩
  | poll sub max => exact hcalls (a := .ok []) fun hfails => nomatch hfails.choose_spec
  | commit sub offset => exact hcalls (a := .ok ()) fun hfails => nomatch hfails.choose_spec
  | deletePublished cutoff =>
      obtain rfl := hcalls (a := .ok 0) fun hfails => nomatch hfails.choose_spec
      exact htask rfl
  | prune topic cutoff =>
      obtain rfl := hcalls (a := .ok 0) fun hfails => nomatch hfails.choose_spec
      exact htask rfl
  | _ => exact trivial

/-- A program that is no sweep is shown the same in both worlds, and does the same to them. -/
private theorem Prog.sights_swept {α : Type} {p : Prog α} {s : Stand} {Q : α → Stand → Prop}
    {t : Account} {w : World} (hleads : p.Leads s Q)
    (hmakes : ∀ task, s.task = some task → p.Asks task.Makes) (htask : s.task ≠ some .retention)
    (hat : t.At InOrder s) (h : t.world.SweepsTo w)
    (hserial : (p.run w).2.serial ≤ Books.serialLimit) :
    p.sights t.world = p.sights w ∧ (p.run t.world).2.SweepsTo (p.run w).2 := by
  induction p generalizing s t w with
  | done a | crash text => exact ⟨rfl, h⟩
  | ask c next ih =>
      have hmoves : ∀ a, ∃ s', Moves s c a s' := fun a => (hleads a).imp fun _ h => h.1
      obtain ⟨hsame, hswept⟩ := h.answer hat.consistent.books.events_nodup (hat.admits hmoves htask)
      rw [sights_ask, sights_ask, h.sight_eq hsame, run, run]
      rw [run] at hserial
      rcases hanswer : t.world.answer c with ⟨o, v'⟩
      rcases hanswer' : w.answer c with ⟨o', w'⟩
      rw [hanswer, hanswer'] at hsame hswept
      rw [hanswer'] at hserial
      obtain rfl : o = o' := hsame
      cases o with
      | done a =>
          obtain ⟨s', hmove, hnext⟩ := hleads a
          have hbefore : v'.serial ≤ Books.serialLimit :=
            hswept.serial_eq ▸ ((next a).serial_le_run w').trans hserial
          have hmoved := hat.move InOrder.lasts.moves hmoves hmove
            (fun task htask => (hmakes task htask).1) hanswer hbefore
          have hgoes {task : Task} (hsome : s'.task = some task) : s.task = some task :=
            (hmove.task_eq.resolve_left (by simp [hsome])).symm.trans hsome
          obtain ⟨hsights, hworlds⟩ :=
            ih a hnext (fun task hsome => (hmakes task (hgoes hsome)).2 a)
              (fun hsome => htask (hgoes hsome)) hmoved hswept hserial
          exact ⟨congrArg _ hsights, hworlds⟩
      | crashed text | stuck => exact ⟨rfl, hswept⟩

/-! ## Closed runs -/

def Command.isSweep : Command → Bool
  | .run (.sweep _) => true
  | _ => false

/-- The run without its sweeps. -/
def unswept (commands : List Command) : List Command := commands.filter (!·.isSweep)

/-- What is reported of a command: what an operation comes to that is no sweep. -/
def Command.reports (w : World) : Command → List Report
  | .run (.sweep _) => []
  | .run op => [op.report w]
  | _ => []

namespace World

/-- What is reported in a closed run. -/
def reports (w : World) : List Command → List Report
  | [] => []
  | command :: commands => command.reports w ++ (w.obey command).reports commands

theorem outboxError_obey {w : World} (hnone : w.store.outboxError = none) {command : Command}
    (hinject : ∀ message, command ≠ .injectOutboxError message) :
    (w.obey command).store.outboxError = none := by
  cases command with
  | run op =>
      exact op.program.keeps_run (I := fun w => w.store.outboxError = none) hnone
        fun hnone c => waiting_answer .outbox hnone c
  | injectOutboxError message => exact absurd rfl (hinject message)
  | _ => exact hnone

variable {t : Account} {w : World} {command : Command} {commands : List Command}

/-- Whatever is done that is no sweep, the same is reported of it, and it does the same. -/
private theorem SweepsTo.obey (h : t.world.SweepsTo w) (hat : t.At InOrder .over)
    (hsweep : command.isSweep = false) (hruns : ∀ op, command = .run op → op.task ≠ .delivery)
    (hserial : (w.obey command).serial ≤ Books.serialLimit) :
    command.reports t.world = command.reports w ∧
      (t.world.obey command).SweepsTo (w.obey command) := by
  obtain ⟨store, bus, pipelineStats, loopStats, hrest⟩ := h.rest
  cases command with
  | run op =>
      have hstarted : t.At InOrder op.start := hat.start (hruns op rfl) trivial
        (h.serial_eq ▸ (op.program.serial_le_run w).trans hserial)
      have htask : op.start.task ≠ some .retention := by
        rw [op.task_start]
        cases op with
        | sweep r => exact nomatch hsweep
        | _ => exact nofun
      obtain ⟨hsights, hworlds⟩ := Prog.sights_swept op.leads_program
        (fun task hsome => Option.some.inj (op.task_start.symm.trans hsome) ▸ op.asks_program)
        htask hstarted h hserial
      refine ⟨?_, hworlds⟩
      have hreport := Operation.report_eq_of_sights hsights
      cases op with
      | sweep r => exact nomatch hsweep
      | _ => exact congrArg (fun report => [report]) hreport
  | setClock clock =>
      subst hrest
      exact ⟨rfl, ⟨_, _, _, _, rfl⟩, h.store, h.bus⟩
  | refusePublishes topic count =>
      subst hrest
      exact ⟨rfl, ⟨_, _, _, _, rfl⟩, h.store,
        { h.bus with refusals := congrArg (Bus.set topic count) h.bus.refusals }⟩
  | injectSaveError message =>
      subst hrest
      exact ⟨rfl, ⟨_, _, _, _, rfl⟩, { h.store with saveError := rfl }, h.bus⟩
  | injectOutboxError message =>
      subst hrest
      exact ⟨rfl, ⟨_, _, _, _, rfl⟩, { h.store with outboxError := rfl }, h.bus⟩

private theorem SweepsTo.after (h : t.world.SweepsTo w) (hat : t.At InOrder .over)
    (hnone : t.world.store.outboxError = none)
    (hinject : ∀ message, Command.injectOutboxError message ∉ commands)
    (hruns : ∀ op, Command.run op ∈ commands → op.task ≠ .delivery)
    (hserial : (w.after commands).serial ≤ Books.serialLimit) :
    t.world.reports (unswept commands) = w.reports commands ∧
      (t.world.after (unswept commands)).SweepsTo (w.after commands) := by
  induction commands generalizing t w with
  | nil => exact ⟨rfl, h⟩
  | cons command commands ih =>
      have hinject' : ∀ message, Command.injectOutboxError message ∉ commands :=
        fun message hmem => hinject message (List.mem_cons_of_mem command hmem)
      have hruns' : ∀ op, Command.run op ∈ commands → op.task ≠ .delivery :=
        fun op hop => hruns op (List.mem_cons_of_mem command hop)
      have hbefore := (serial_le_after (w.obey command) commands).trans hserial
      cases hsweep : command.isSweep with
      | true =>
          obtain ⟨r, rfl⟩ : ∃ r, command = .run (.sweep r) := by
            unfold Command.isSweep at hsweep
            split at hsweep
            · exact ⟨_, rfl⟩
            · exact nomatch hsweep
          have hswept := h.sweep hnone hat.consistent.books r
          exact ih hswept hat hnone hinject' hruns' hserial
      | false =>
          have hkept : unswept (command :: commands) = command :: unswept commands :=
            List.filter_cons_of_pos (by rw [hsweep]; rfl)
          obtain ⟨hreport, hworlds⟩ := h.obey hat hsweep
            (fun op hop => hruns op (hop ▸ List.mem_cons_self)) hbefore
          have hat' : (t.after [command]).At InOrder .over := by
            refine Account.at_after InOrder.lasts (fun op hop => ?_) hat ?_
            · exact hruns op (List.mem_singleton.mp hop ▸ List.mem_cons_self)
            · rw [Account.world_after]
              exact hworlds.serial_eq ▸ hbefore
          have hworld : (t.after [command]).world = t.world.obey command := t.world_obey command
          have hnone' : (t.after [command]).world.store.outboxError = none := hworld ▸
            outboxError_obey hnone fun message heq => hinject message (heq ▸ List.mem_cons_self)
          obtain ⟨hreports, hafter⟩ := ih (hworld ▸ hworlds) hat' hnone' hinject' hruns' hserial
          rw [hworld] at hreports hafter
          rw [hkept, reports, reports, hreport, hreports]
          exact ⟨rfl, hafter⟩

/-- A closed run in which the outbox does not fail reports the same without its sweeps: every other
operation returns the same, and the same is seen of it. At the end the rows are the same, and the
events still to be published, and on every topic the offset of the next record, the cursors and what
is unread. -/
theorem sweeps_unnoticed (hblank : w.IsBlank) (hnone : w.store.outboxError = none)
    (hinject : ∀ message, Command.injectOutboxError message ∉ commands)
    (hruns : ∀ op, Command.run op ∈ commands → op.task ≠ .delivery)
    (hserial : (w.after commands).serial ≤ Books.serialLimit) :
    w.reports (unswept commands) = w.reports commands ∧
      (w.after (unswept commands)).store.notifications = (w.after commands).store.notifications ∧
      (w.after (unswept commands)).store.pendingEvents = (w.after commands).store.pendingEvents ∧
      (w.after (unswept commands)).bus.cursors = (w.after commands).bus.cursors ∧
      (∀ topic, ((w.after (unswept commands)).bus.log topic).head =
        ((w.after commands).bus.log topic).head) ∧
      ∀ topic : Topic, (w.after (unswept commands)).bus.unread topic =
        (w.after commands).bus.unread topic := by
  have hat : (Account.opened w).At InOrder .over := hblank.at_over trivial
  obtain ⟨hreports, hswept⟩ := (SweepsTo.refl w).after hat hnone hinject hruns hserial
  exact ⟨hreports, hswept.store.notifications.symm, hswept.store.pending.symm,
    hswept.bus.cursors.symm, fun topic => (hswept.bus.head topic).symm,
    fun topic => (hswept.bus.unread topic).symm⟩

/-- Between two attempts there is a sweep, which drops the first event of a notification and its
first record. -/
theorem sweeps_unnoticed_retry :
    let p := Sample.pipeline 5
    let w := Sample.world [.done (.error (.network "down"))]
    let commands := Sample.firstAttempt p ++
      .setClock ⟨10_000_000⟩ :: .run (.sweep (p.retention .loops)) :: Sample.secondAttempt p
    ((w.after commands).store.outbox.length <
        (w.after (unswept commands)).store.outbox.length ∧
      ((w.after commands).bus.records Topic.send.name).length <
        ((w.after (unswept commands)).bus.records Topic.send.name).length) ∧
      w.reports (unswept commands) = w.reports commands := by
  intro p w commands
  have hinject : ∀ message, Command.injectOutboxError message ∉ commands := by
    intro message hmem
    simp [commands, Sample.firstAttempt, Sample.arrival, Sample.secondAttempt] at hmem
  have hruns : ∀ op, Command.run op ∈ commands → op.task ≠ .delivery := by
    intro op hop
    simp only [commands, Sample.firstAttempt, Sample.arrival, Sample.secondAttempt,
      List.cons_append, List.nil_append, List.mem_cons, Command.run.injEq, reduceCtorEq,
      List.not_mem_nil, or_false, false_or] at hop
    rcases hop with rfl | rfl | rfl | rfl | rfl | rfl <;> decide
  have hserial : (w.after commands).serial ≤ Books.serialLimit := by decide +kernel
  obtain ⟨hreports, -⟩ := sweeps_unnoticed (Sample.isBlank_world _) rfl hinject hruns hserial
  exact ⟨by decide +kernel, hreports⟩

end World
end Courier
