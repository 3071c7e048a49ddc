import Courier.Proofs.Draining.Batches
import Courier.Proofs.Draining.Publications
import Courier.Proofs.Turns.Operations
import Courier.Proofs.Alone.Announcements
import Courier.Proofs.Registry

/-!
Draining comes to an end and leaves nothing due. Every cycle that has something to do lowers the
work that is left, so at last one has nothing to do. Then no event is due, nothing is unread on the
topic to send from and among the dead letters, and the first record to try again is not due yet.
As no notification is ever lost, each that is neither sent nor given up waits for a time to come.
-/

namespace Courier

open Job

/-! ## Worlds that are reached -/

/-- A closed run leads here from a blank world whose channels claim of nothing that it cannot be
read. -/
inductive World.Reached (w : World) : Prop
  | intro {blank : World} {commands : List Command} (hblank : blank.IsBlank)
      (hreadable : blank.Readable) (hruns : ∀ op, Command.run op ∈ commands → op.task ≠ .delivery)
      (heq : blank.after commands = w)

namespace World.Reached

variable {w : World} {n : Notification}

theorem obey (h : w.Reached) {op : Operation} (hop : op.task ≠ .delivery) :
    (w.obey (.run op)).Reached := by
  obtain @⟨blank, commands, hblank, hreadable, hruns, rfl⟩ := h
  have heq : blank.after (commands ++ [.run op]) = (blank.after commands).obey (.run op) :=
    List.foldl_append
  refine .intro hblank hreadable ?_ heq
  intro other hother
  rcases List.mem_append.mp hother with hmem | hlast
  · exact hruns other hmem
  · obtain rfl := Command.run.inj (List.mem_singleton.mp hlast)
    exact hop

/-- The tables and the topics are in order, and every event and record suits its topic. -/
theorem at_over (h : w.Reached) (hserial : w.serial ≤ Books.serialLimit) :
    ∃ history, Account.At Announced ⟨w, history⟩ .over := by
  obtain ⟨hblank, -, hruns, rfl⟩ := h
  exact hblank.announced_after hruns hserial

theorem sound (h : w.Reached) (hserial : w.serial ≤ Books.serialLimit) : w.books.Sound := by
  obtain ⟨history, hat⟩ := h.at_over hserial
  exact hat.consistent.books

theorem keys_nodup (h : w.Reached) (hserial : w.serial ≤ Books.serialLimit) :
    (w.store.notifications.map (·.idempotencyKey)).Nodup := by
  obtain ⟨hblank, -, hruns, rfl⟩ := h
  exact (hblank.regular_after hruns hserial).keys_nodup

/-- What waits is promised or carried. -/
theorem keeps (h : w.Reached) (hserial : w.serial ≤ Books.serialLimit)
    (hn : n ∈ w.store.notifications) (topic : Topic) (hother : topic ≠ .deadLetter)
    (hwaits : n.status.topic = some topic) : w.Promises topic n ∨ w.Carries topic n := by
  obtain @⟨blank, commands, hblank, hreadable, hruns, rfl⟩ := h
  have hstart : blank.books.Retains Books.Steady [] Stand.over.only := by
    rw [Stand.only_over]
    exact fun _ => ⟨⟨hblank.sound, fun _ => trivial⟩, hblank.kept, hblank.orderly True⟩
  obtain ⟨history, hsteady⟩ := after_steady hruns hreadable hstart hserial
  obtain ⟨-, hkept, -⟩ := hsteady hserial
  obtain ⟨id, -, hsecures⟩ := hkept.rows n hn topic hwaits
  rcases hsecures with ⟨e, he, -, hpending, habout, hto, -⟩ | hcarries
  · exact Or.inl ⟨e, he, hpending, habout, hto⟩
  · rw [if_neg hother] at hcarries
    obtain ⟨r, hr, hcursor, hcovers, -⟩ := hcarries
    exact Or.inr ⟨r, hr, hcursor, hcovers⟩

/-- A record that carries a failed row as it is says of it what the row says. -/
theorem snapshot_eq (h : w.Reached) (hserial : w.serial ≤ Books.serialLimit)
    (hn : n ∈ w.store.notifications) (hfailed : n.status = .failed) {r : Record}
    (hr : r ∈ w.bus.records Topic.retry.name) (hcovers : r.Covers n) :
    r.snapshot = some n.told := by
  obtain ⟨history, hat⟩ := h.at_over hserial
  obtain ⟨m, hm, -, hcurrent⟩ := hat.holds.records .retry (by decide) r hr
  obtain ⟨m', hm', hid, hcount⟩ := hcovers
  obtain rfl := Option.some.inj (hm.symm.trans hm')
  obtain ⟨-, rfl⟩ := hcurrent n hn hid.symm hfailed hcount
  exact hm

theorem tidy (h : w.Reached) (hserial : w.serial ≤ Books.serialLimit)
    (hheads : ∀ topic : Topic, (w.bus.log topic.name).head ≤ 0x7fff_ffff_ffff_ffff) : w.Tidy := by
  obtain ⟨history, hat⟩ := h.at_over hserial
  have hsound := hat.consistent.books
  refine ⟨⟨hsound.rows_nodup, h.keys_nodup hserial⟩, hsound.records_ordered, ?_, ?_⟩
  · intro topic r hr
    exact (hsound.records_below topic r hr).trans_le (hheads topic)
  · intro topic htopic r hr
    obtain ⟨m, hm, -⟩ := hat.holds.records topic htopic r hr
    exact ⟨m, hm, hsound.records_known topic htopic r hr m hm⟩

end World.Reached

/-! ## Nothing to do now -/

namespace World

/-- A pending event is about the notification, but is not to be published yet. -/
def IsPromisedLater (w : World) (n : Notification) : Prop :=
  ∃ e ∈ w.store.outbox, e.status = .pending ∧ e.notificationId = n.id ∧
    ∃ next, e.nextAttemptAt = some next ∧ w.now < next

/-- The notification failed. An unread record to be tried again tells of it, and the first of these
records is not to be tried yet. -/
def IsRetriedLater (w : World) (n : Notification) : Prop :=
  n.status = .failed ∧ (∃ r ∈ w.bus.unread .retry, r.snapshot = some n.told) ∧
    ∃ head ∈ (w.bus.unread .retry).head?, ∃ m next,
      head.snapshot = some m ∧ m.nextRetryAt = some next ∧ w.now < next

/-- Nothing is due: whatever is not finished waits for a time to come. -/
structure NothingDue (w : World) : Prop where
  rows : ∀ n ∈ w.store.notifications,
    n.status = .sent ∨ n.status = .deadLettered ∨ w.IsPromisedLater n ∨ w.IsRetriedLater n
  sent : w.bus.unread .send = []
  buried : w.bus.unread .deadLetter = []

variable {w : World}

theorem Defers.retry {topic : Topic} {r : Record} (h : w.Defers topic r) :
    ∃ m next, r.snapshot = some m ∧ m.nextRetryAt = some next ∧ w.now < next := by
  obtain ⟨-, m, hm, hpending⟩ := h
  rw [Notification.isRetryPending] at hpending
  split at hpending
  · next next hnext => exact ⟨m, next, hm, hnext, of_decide_eq_true hpending⟩
  · cases hpending

theorem unread_eq_nil {topic : Topic} (hother : topic ≠ .retry)
    (hhead : ∀ r ∈ (w.bus.unread topic).head?, w.Defers topic r) : w.bus.unread topic = [] := by
  cases hunread : w.bus.unread topic with
  | nil => rfl
  | cons r rest =>
      rw [hunread] at hhead
      exact absurd (hhead r rfl).1 hother

theorem Carries.unread {topic : Topic} {n : Notification} (h : w.Carries topic n) :
    ∃ r ∈ w.bus.unread topic, r.Covers n := by
  obtain ⟨r, hr, hcursor, hcovers⟩ := h
  exact ⟨r, List.mem_filter.mpr ⟨hr, decide_eq_true hcursor⟩, hcovers⟩

theorem Promises.later {topic : Topic} {n : Notification} (h : w.Promises topic n)
    (hevents : ∀ e ∈ w.store.outbox, e.isDue w.now = false) : w.IsPromisedLater n := by
  obtain ⟨e, he, hpending, habout, -⟩ := h
  have hdue := hevents e he
  rw [OutboxEvent.isDue, hpending, beq_self_eq_true, Bool.true_and] at hdue
  split at hdue
  · cases hdue
  · next next hnext => exact ⟨e, he, hpending, habout, next, hnext,
      Int.not_le.mp (of_decide_eq_false hdue)⟩

/-- Where nothing is done, nothing is due. -/
theorem Reached.nothingDue (h : w.Reached) (hserial : w.serial ≤ Books.serialLimit)
    (hevents : ∀ e ∈ w.store.outbox, e.isDue w.now = false)
    (hheads : ∀ topic, ∀ r ∈ (w.bus.unread topic).head?, w.Defers topic r) : w.NothingDue := by
  have hsent : w.bus.unread .send = [] := unread_eq_nil (by decide) (hheads .send)
  refine ⟨fun n hn => ?_, hsent, unread_eq_nil (by decide) (hheads .deadLetter)⟩
  cases hstatus : n.status with
  | sent => exact Or.inl rfl
  | deadLettered => exact Or.inr (Or.inl rfl)
  | pending =>
      rcases h.keeps hserial hn .send (by decide) (Status.topic_eq_send.mpr hstatus) with
        hpromises | hcarries
      · exact Or.inr (Or.inr (Or.inl (hpromises.later hevents)))
      · obtain ⟨r, hr, -⟩ := hcarries.unread
        rw [hsent] at hr
        exact absurd hr List.not_mem_nil
  | failed =>
      rcases h.keeps hserial hn .retry (by decide) (Status.topic_eq_retry.mpr hstatus) with
        hpromises | hcarries
      · exact Or.inr (Or.inr (Or.inl (hpromises.later hevents)))
      · obtain ⟨r, hr, hcovers⟩ := hcarries.unread
        have hmem : r ∈ w.bus.records Topic.retry.name := (List.mem_filter.mp hr).1
        have hsnapshot := h.snapshot_eq hserial hn hstatus hmem hcovers
        refine Or.inr (Or.inr (Or.inr ⟨hstatus, ⟨r, hr, hsnapshot⟩, ?_⟩))
        cases hunread : w.bus.unread .retry with
        | nil =>
            rw [hunread] at hr
            exact absurd hr List.not_mem_nil
        | cons head rest =>
            refine ⟨head, rfl, (hheads .retry head ?_).retry⟩
            rw [hunread]
            rfl

end World

/-! ## Cycles -/

/-- A pipeline can go on from here until all work is done. -/
structure Pipeline.Ready (p : Pipeline) (w : World) : Prop where
  reached : w.Reached
  unhindered : p.Unhindered w
  serial : w.serial + p.workLeft w ≤ Books.serialLimit
  heads : ∀ topic : Topic,
    (w.bus.log topic.name).head + p.workLeft w ≤ 0x7fff_ffff_ffff_ffff

namespace Pipeline

variable {p : Pipeline} {w w' : World} {limit steps : Nat}

theorem Ready.serial_le (h : p.Ready w) : w.serial ≤ Books.serialLimit :=
  (Nat.le_add_right _ _).trans h.serial

theorem Ready.tidy (h : p.Ready w) : w.Tidy :=
  h.reached.tidy h.serial_le fun topic => by
    have hhead := h.heads topic
    omega

/-- An operation that works leaves the pipeline ready. -/
theorem Ready.next {α : Type} {job : Job α} {a : α} (h : p.Ready w) (op : Operation)
    (hop : op.task ≠ .delivery) (hprogram : op.program = job.run.bind fun _ => .done ())
    (hrun : job.run.run w = (.done (.ok a), w')) (hworks : p.Works steps w w') : p.Ready w' := by
  have hworld : w.obey (.run op) = w' := by
    change (op.program.run w).2 = w'
    rw [hprogram, Prog.world_run_discard, hrun]
  have hwork := hworks.work
  refine ⟨hworld ▸ h.reached.obey hop, ?_, ?_, fun topic => ?_⟩
  · have hafter := h.unhindered.run job.run
    rwa [hrun] at hafter
  · have hserial := hworks.serial
    have hlimit := h.serial
    omega
  · have hhead := hworks.heads topic.name
    have hlimit := h.heads topic
    omega

theorem Ready.publishDue (h : p.Ready w) (hlimit : 1 ≤ limit) :
    (p.publication.publishDue limit).Ensures w fun count w' => p.Ready w' ∧ p.Works count w w' ∧
      (count = 0 → w' = w ∧ ∀ e ∈ w.store.outbox, e.isDue w.now = false) := by
  have hsound := h.reached.sound h.serial_le
  obtain ⟨count, w', hrun, hworks, hidle⟩ :=
    ensures_publishDue h.unhindered hsound.events_nodup hsound.events_known hlimit
  have hready := h.next (.publishDue p.publication limit) (by simp [Operation.task]) rfl hrun hworks
  exact ⟨count, w', hrun, hready, hworks, hidle⟩

theorem Ready.batch (h : p.Ready w) (hsize : 1 ≤ p.settings.consumer.batchSize.toNat)
    (topic : Topic) :
    (p.consumer .loops topic).batch.Ensures w fun count w' => p.Ready w' ∧ p.Works count w w' ∧
      (count = 0 → w' = w ∧ ∀ r ∈ (w.bus.unread topic).head?, w.Defers topic r) := by
  obtain ⟨count, w', hrun, hworks, hidle⟩ := ensures_batch h.unhindered h.tidy .loops topic hsize
  have hready := h.next (.batch p .loops topic) (by simp [Operation.task]) rfl hrun hworks
  exact ⟨count, w', hrun, hready, hworks, hidle⟩

/-- A cycle does as much work as it counts. If it does none, nothing is due. -/
theorem Ready.cycle (h : p.Ready w) (hlimit : 1 ≤ limit)
    (hsize : 1 ≤ p.settings.consumer.batchSize.toNat) :
    (p.cycle limit).Ensures w fun count w' => p.Ready w' ∧ p.Works count w w' ∧
      (count = 0 → w' = w ∧ w.NothingDue) := by
  refine ensures_bind (h.publishDue hlimit) ?_
  rintro events w₁ - ⟨h₁, hevents, hidle⟩
  refine ensures_bind (h₁.batch hsize .send) ?_
  rintro sent w₂ - ⟨h₂, hsent, hidle₁⟩
  refine ensures_bind (h₂.batch hsize .retry) ?_
  rintro retried w₃ - ⟨h₃, hretried, hidle₂⟩
  refine ensures_bind (h₃.batch hsize .deadLetter) ?_
  rintro seen w₄ - ⟨h₄, hseen, hidle₃⟩
  refine ensures_pure ⟨h₄, ((hevents.trans hsent).trans hretried).trans hseen, fun hnone => ?_⟩
  obtain ⟨rfl, hdue⟩ := hidle (by omega)
  obtain ⟨rfl, hsend⟩ := hidle₁ (by omega)
  obtain ⟨rfl, hretry⟩ := hidle₂ (by omega)
  obtain ⟨rfl, hdead⟩ := hidle₃ (by omega)
  refine ⟨rfl, h₄.reached.nothingDue h₄.serial_le hdue fun topic => ?_⟩
  cases topic with
  | send => exact hsend
  | retry => exact hretry
  | deadLetter => exact hdead

/-- Draining comes to an end after at most as many cycles as there is work. -/
theorem Ready.drain (h : p.Ready w) (hlimit : 1 ≤ limit)
    (hsize : 1 ≤ p.settings.consumer.batchSize.toNat) :
    ∃ cycles w', cycles ≤ p.workLeft w ∧
      (∀ fuel > cycles, (p.drain limit fuel).run.run w = (.done (.ok cycles), w')) ∧
      (p.cycle limit).run.run w' = (.done (.ok 0), w') ∧ w'.NothingDue := by
  -- The work left decreases with every cycle but the last.
  induction hwork : p.workLeft w using Nat.strong_induction_on generalizing w with
  | _ work ih =>
      subst hwork
      obtain ⟨count, w₁, hrun, h₁, hworks, hidle⟩ := h.cycle hlimit hsize
      by_cases hnone : count = 0
      · obtain ⟨rfl, hdue⟩ := hidle hnone
        subst hnone
        refine ⟨0, w₁, Nat.zero_le _, fun fuel hfuel => ?_, hrun, hdue⟩
        obtain ⟨fuel, rfl⟩ := Nat.exists_eq_add_one.mpr hfuel
        rw [Pipeline.drain, Prog.run_bind_job, hrun]
        rfl
      · have hless := hworks.work
        obtain ⟨cycles, w', hcycles, hdrain, hlast, hdue⟩ := ih _ (by omega) h₁ rfl
        refine ⟨cycles + 1, w', by omega, fun fuel hfuel => ?_, hlast, hdue⟩
        obtain ⟨fuel, rfl⟩ := Nat.exists_eq_add_one.mpr (Nat.zero_lt_of_lt hfuel)
        rw [Pipeline.drain, Prog.run_bind_job, hrun]
        dsimp only
        rw [if_neg hnone, Prog.run_bind_job, hdrain fuel (by omega)]
        rfl

end Pipeline

/-! ## Draining -/

/-- After a closed run whose channels claim of nothing that it cannot be read, let the clock stand
still, and let nothing stop the pipeline that was put together for the channels: no error waits in
the store, the channels settle all calls, and all times can be represented. Then draining ends,
after at most as many cycles as there is work left, with a cycle that has nothing to do. Where it
ends nothing is due. Identifiers and offsets have to last that long. -/
theorem Pipeline.drain_leaves_nothing_due {w : World} {commands : List Command}
    {settings : PipelineSettings} {backoff : Backoff} {p : Pipeline} {limit : Nat}
    (hblank : w.IsBlank) (hreadable : w.Readable)
    (hruns : ∀ op, Command.run op ∈ commands → op.task ≠ .delivery)
    (hnew : new settings (.ofChannels (w.after commands).channels) backoff = .ok p)
    (hsave : (w.after commands).store.saveError = none)
    (houtbox : (w.after commands).store.outboxError = none)
    (hsettles : ∀ channel ∈ (w.after commands).channels, channel.Settles)
    (htimely : p.Timely (w.after commands)) (hlimit : 1 ≤ limit)
    (hsize : 1 ≤ settings.consumer.batchSize.toNat)
    (hserial : (w.after commands).serial + p.workLeft (w.after commands) ≤ Books.serialLimit)
    (hheads : ∀ topic : Topic, ((w.after commands).bus.log topic.name).head +
      p.workLeft (w.after commands) ≤ 0x7fff_ffff_ffff_ffff) :
    ∃ cycles w', cycles ≤ p.workLeft (w.after commands) ∧
      (∀ fuel > cycles,
        (p.drain limit fuel).run.run (w.after commands) = (.done (.ok cycles), w')) ∧
      (p.cycle limit).run.run w' = (.done (.ok 0), w') ∧ w'.NothingDue := by
  obtain ⟨hcovered, rfl⟩ : Registry.coverage (.ofChannels (w.after commands).channels) = .ok () ∧
      p = ⟨settings, .ofChannels (w.after commands).channels, backoff⟩ := by
    unfold new at hnew
    cases hcoverage : Registry.coverage (.ofChannels (w.after commands).channels) with
    | error error =>
        rw [hcoverage] at hnew
        cases hnew
    | ok _ =>
        rw [hcoverage] at hnew
        exact ⟨rfl, (Except.ok.inj hnew).symm⟩
  refine Ready.drain (p := ⟨settings, _, backoff⟩) ⟨.intro hblank hreadable hruns rfl, ?_, hserial,
    hheads⟩ hlimit hsize
  refine ⟨hsave, houtbox, hsettles, fun medium => ?_, htimely⟩
  have hmedium : medium ∈ Medium.all := by cases medium <;> decide
  obtain ⟨⟨place, name⟩, hfind⟩ := Registry.find_of_forM hcovered hmedium
  have hplace := Registry.lt_of_find hfind
  rw [Registry.ofChannels, List.length_map] at hplace
  exact ⟨place, name, hfind, hplace⟩

/-- A channel fails for a notification. Draining leaves the notification to be tried again later. -/
theorem Pipeline.drain_leaves_retry :
    ∃ cycles w', ((Sample.pipeline 5).drain 100 (cycles + 1)).run.run
        ((Sample.world [.done (.error (.network "down"))]).after
          (Sample.arrival (Sample.pipeline 5))) = (.done (.ok cycles), w') ∧
      w'.NothingDue ∧ w'.store.notifications.map (·.status) = [.failed] := by
  let p := Sample.pipeline 5
  let w := (Sample.world [.done (.error (.network "down"))]).after (Sample.arrival p)
  have hruns : ∀ op, Command.run op ∈ Sample.arrival p → op.task ≠ .delivery := by
    intro op hop
    simp [Sample.arrival] at hop
    rcases hop with rfl | rfl <;> decide
  have hreadable : (Sample.world [.done (.error (.network "down"))]).Readable := by
    intro channel hchannel
    obtain rfl := List.mem_singleton.mp hchannel
    refine ⟨fun reply hreply => ?_, Reply.readable_done (by simp)⟩
    obtain rfl := List.mem_singleton.mp hreply
    exact Reply.readable_done (by simp)
  have hp : p.Unhindered w :=
    (Sample.unhindered.run (Operation.submit Sample.request).program).run
      (Operation.publishDue p.publication 100).program
  have hchannels : Registry.ofChannels w.channels = p.registry := by decide +kernel
  have hnew : Pipeline.new p.settings (.ofChannels w.channels) p.backoff = .ok p := by
    rw [hchannels]
    rfl
  have hheads (topic : Topic) :
      (w.bus.log topic.name).head + p.workLeft w ≤ 0x7fff_ffff_ffff_ffff := by
    cases topic <;> decide +kernel
  obtain ⟨cycles, w', hcycles, hdrain, -, hdue⟩ := drain_leaves_nothing_due
    (Sample.isBlank_world _) hreadable hruns hnew hp.saveError hp.outboxError hp.channels hp.timely
    (show 1 ≤ 100 by decide) (by decide +kernel) (by decide +kernel) hheads
  refine ⟨cycles, w', hdrain _ (Nat.lt_succ_self _), hdue, ?_⟩
  have hend : ((p.drain 100 100).run.run w).2 = w' := by
    have hwork : p.workLeft w < 100 := by decide +kernel
    rw [hdrain 100 (hcycles.trans_lt hwork)]
  rw [← hend]
  decide +kernel

end Courier
