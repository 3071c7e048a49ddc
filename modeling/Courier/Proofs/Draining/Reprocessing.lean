import Courier.Proofs.Alone.Announcements
import Courier.Proofs.Draining.Exhaustion

/-!
Reprocessing collapses. Dead letters that are published again several times over are attempted no
more often than if they had been published once: by the first message that a row sees it is sent or
given up with one failure more, and either way it has gone beyond all the other messages. So when
the topic is exhausted, nothing but the bus tells how often the dead letters were published.
-/

namespace Courier

open Job

/-- Publishes dead letters again, a number of times over. -/
def Reprocessing.times (limit : Nat) : Nat → Job Unit
  | 0 => return ()
  | k + 1 => do
    let _ ← execute limit
    times limit k

/-- Publishes dead letters again, a number of times over, and then exhausts the topic. -/
def Pipeline.reprocess (p : Pipeline) (ledger : Ledger) (limit k fuel : Nat) : Job Unit := do
  Reprocessing.times limit k
  let _ ← (p.consumer ledger .send).exhaust fuel

/-! ## What is published -/

/-- The bus once these notifications were published to be sent. -/
def Bus.carrying (b : Bus) (ns : List Notification) (now : Instant) : Bus :=
  ns.foldl (fun b n =>
    b.append Topic.send.name (some n.id.text) (Envelope.ofNotification n now).encode now) b

namespace Bus

variable {b : Bus} {ms ns : List Notification}

theorem InOrder.append (h : b.InOrder) (key : Option String) (payload : Bytes) (now : Instant)
    (hroom : (b.log Topic.send.name).head < 0x7fff_ffff_ffff_ffff) :
    (b.append Topic.send.name key payload now).InOrder ∧
      (b.append Topic.send.name key payload now).unread .send = b.unread .send ++
        [⟨Topic.send.name, 0, (b.log Topic.send.name).head, key, payload⟩] := by
  have hunread := b.unread_append .send Topic.send.name key payload now
  rw [if_pos rfl, List.filter_cons_of_pos (by exact decide_eq_true h.cursor_le),
    List.filter_nil] at hunread
  have hhead := b.head_append_self Topic.send.name key payload now
  have hcursor := h.cursor_le
  refine ⟨⟨?_, ?_, ?_, ?_⟩, hunread⟩
  · rw [hunread, List.pairwise_append]
    refine ⟨h.ordered, List.pairwise_singleton _ _, fun r hr r' hr' => ?_⟩
    rw [List.mem_singleton.mp hr']
    exact h.below r hr
  · rw [hunread, hhead]
    intro r hr
    rcases List.mem_append.mp hr with hr | hr
    · exact (h.below r hr).trans (Int.lt_succ _)
    · rw [List.mem_singleton.mp hr]
      exact Int.lt_succ _
  · rw [hhead]
    exact hcursor.trans (Int.le_add_one (Int.le_refl _))
  · rw [hhead]
    omega

/-- What is published waits behind what was unread. -/
theorem InOrder.carrying (h : b.InOrder) (hms : b.Waiting ms) (now : Instant)
    (hroom : (b.log Topic.send.name).head + ns.length ≤ 0x7fff_ffff_ffff_ffff) :
    (b.carrying ns now).InOrder ∧ (b.carrying ns now).Waiting (ms ++ ns.map Notification.told) := by
  induction ns generalizing b ms with
  | nil =>
      rw [List.map_nil, List.append_nil]
      exact ⟨h, hms⟩
  | cons n ns ih =>
      rw [List.length_cons] at hroom
      obtain ⟨horder, hunread⟩ := h.append (some n.id.text)
        (Envelope.ofNotification n now).encode now (by omega)
      have hhead := b.head_append_self Topic.send.name (some n.id.text)
        (Envelope.ofNotification n now).encode now
      have hwaiting : Bus.Waiting (b.append Topic.send.name (some n.id.text)
          (Envelope.ofNotification n now).encode now) (ms ++ [n.told]) := by
        rw [Waiting, hunread, List.map_append, hms, List.map_append, List.map_singleton,
          List.map_singleton, Stand.snapshot_ofNotification rfl]
      have hrest := ih horder hwaiting (by omega)
      rw [List.append_assoc] at hrest
      exact hrest

end Bus

/-! ## Publications that succeed -/

variable {s : Account} {n : Notification} {ns : List Notification} {ids : List Uuid} {limit : Nat}

/-- A publication that succeeds appends a record, and that is all. -/
theorem comesTo_publishNotification {topic : String}
    (h : ((publishNotification topic n).run.perform s).1 = .returned (.ok ())) :
    (publishNotification topic n).ComesTo s.world () (s.world.withBus
      (s.world.bus.append topic (some n.id.text)
        (Envelope.ofNotification n s.world.now).encode s.world.now)) [] := by
  let payload := (Envelope.ofNotification n s.world.now).encode
  have hperform (history : List Answered) :
      (publishNotification topic n).run.perform ⟨s.world, history⟩ =
        (.returned (s.world.bus.publish topic (some n.id.text) payload s.world.now).1,
          ⟨s.world.withBus (s.world.bus.publish topic (some n.id.text) payload s.world.now).2,
            [⟨.publish topic (some n.id.text) payload,
                (s.world.bus.publish topic (some n.id.text) payload s.world.now).1⟩,
              ⟨.now, s.world.now⟩] ++ history⟩) := rfl
  cases hrefused : s.world.bus.refused topic with
  | zero =>
      rw [Bus.publish_of_room hrefused] at hperform
      exact ⟨_, hperform, rfl⟩
  | succ left =>
      have hfails := (congrArg Prod.fst (hperform s.history)).symm.trans h
      rw [Bus.publish_of_refused hrefused] at hfails
      cases Close.returned.inj hfails

namespace Reprocessing

theorem comesTo_republish (h : ((republish ns).run.perform s).1 = .returned (.ok ids)) :
    (republish ns).ComesTo s.world ids
      (s.world.withBus (s.world.bus.carrying ns s.world.now)) [] := by
  induction ns generalizing s ids with
  | nil =>
      obtain rfl := Except.ok.inj (Close.returned.inj h)
      exact comesTo_pure [] s.world
  | cons n ns ih =>
      obtain ⟨_, s', hfirst, hrest⟩ := returned_of_bind h
      have hpublish := comesTo_publishNotification (congrArg Prod.fst hfirst)
      obtain ⟨-, hworld⟩ := hpublish.eq_of_perform hfirst
      obtain ⟨ids', s'', hothers, hids⟩ := returned_of_bind hrest
      obtain rfl := Except.ok.inj (Close.returned.inj hids)
      have hrepublish := ih (congrArg Prod.fst hothers)
      rw [hworld] at hrepublish
      exact comesTo_seq hpublish (comesTo_last hrepublish rfl)

theorem comesTo_execute (h : ((execute limit).run.perform s).1 = .returned (.ok ids)) :
    (execute limit).ComesTo s.world ids (s.world.withBus (s.world.bus.carrying
      (s.world.store.findByStatus .deadLettered limit) s.world.now)) [] := by
  let dead := s.world.store.findByStatus .deadLettered limit
  have hfound : (Job.store (.call (.findByStatus .deadLettered limit))).ComesTo s.world dead
      s.world [] := comesTo_ask rfl rfl rfl rfl
  obtain ⟨_, s', hfirst, hrest⟩ := returned_of_bind h
  obtain ⟨rfl, hworld⟩ := hfound.eq_of_perform hfirst
  have hrepublish := comesTo_republish hrest
  rw [hworld] at hrepublish
  exact comesTo_seq hfound hrepublish

/-- The dead letters stay the same while they are published, so each time the same are published. -/
theorem comesTo_times {k : Nat} (h : ((times limit k).run.perform s).1 = .returned (.ok ())) :
    (times limit k).ComesTo s.world () (s.world.withBus (s.world.bus.carrying
      (List.replicate k (s.world.store.findByStatus .deadLettered limit)).flatten
        s.world.now)) [] := by
  induction k generalizing s with
  | zero => exact comesTo_pure () s.world
  | succ k ih =>
      obtain ⟨_, s', hfirst, hrest⟩ := returned_of_bind h
      have hexecute := comesTo_execute (congrArg Prod.fst hfirst)
      obtain ⟨-, hworld⟩ := hexecute.eq_of_perform hfirst
      have htimes := ih hrest
      rw [hworld] at htimes
      rw [List.replicate_succ, List.flatten_cons, Bus.carrying, List.foldl_append]
      exact comesTo_seq hexecute htimes

/-- If dead letters can be published several times over, they can be once. -/
theorem returned_once {k : Nat} (hk : 1 ≤ k)
    (h : ((times limit k).run.perform s).1 = .returned (.ok ())) :
    ((times limit 1).run.perform s).1 = .returned (.ok ()) := by
  obtain ⟨k, rfl⟩ := Nat.exists_eq_add_one.mpr hk
  obtain ⟨_, s', hfirst, -⟩ := returned_of_bind h
  rw [times, Prog.perform_bind_job, hfirst]
  rfl

end Reprocessing

/-! ## What is delivered -/

/-- Messages wait on the topic to send from. Each is about a row that knows of no fewer failures,
and the rows can be told apart. -/
structure World.Awaits (w : World) (ms : List Notification) : Prop where
  rows : w.store.Distinct
  records : w.bus.InOrder
  waiting : w.bus.Waiting ms
  backed : ∀ m ∈ ms, w.books.Backs m

namespace Pipeline

variable {p : Pipeline} {w w' : World} {ms dead : List Notification} {k : Nat}
  {sends : List (Nat × Notification)}

/-- Whatever waits before them, and however often they follow, dead letters are each attempted
once. What follows is the dead letters as they are told. -/
theorem Unobstructed.delivers_again (h : p.Unobstructed w) (hw : w.Awaits ms)
    (hdead : ∀ n ∈ dead, n ∈ w.store.notifications ∧ n.IsSpent (p.backoff.policyFor n.medium)) :
    ∃ w' sends,
      (∀ k ≥ 1, p.Delivers w (ms ++ (List.replicate k (dead.map Notification.told)).flatten)
        w' sends) ∧
      ∀ n ∈ dead, callsFor n.id sends = 1 ∧
        ∃ y, w'.store.find? n.id = some y ∧ n.Revives y := by
  have hbacked : ∀ m ∈ ms ++ dead.map Notification.told, w.books.Backs m := by
    intro m hm
    rcases List.mem_append.mp hm with hm | hm
    · exact hw.backed m hm
    · obtain ⟨n, hn, rfl⟩ := List.mem_map.mp hm
      exact ⟨n, (hdead n hn).1, rfl, UInt32.le_refl _⟩
  obtain ⟨w', sends, honce⟩ := h.delivers hw.rows fun m hm => by
    obtain ⟨x, hx, hid, -⟩ := hbacked m hm
    exact List.mem_map.mpr ⟨x, hx, hid⟩
  have hrevived : ∀ n ∈ dead, callsFor n.id sends = 1 ∧
      ∃ y, w'.store.find? n.id = some y ∧ n.Revives y := by
    intro n hn
    obtain ⟨hrow, hspent⟩ := hdead n hn
    have hfind := Store.find?_of_mem hw.rows.ids hrow
    obtain ⟨y, hy, hrevives, hcalls⟩ := honce.revives hw.rows hspent hfind
      (List.mem_append_right ms (List.mem_map_of_mem hn)) fun m hm hsame => by
        obtain ⟨x, hx, hid, hcount⟩ := hbacked m hm
        obtain rfl := Store.eq_of_id_eq hw.rows.ids hx hrow (hid.trans hsame)
        exact hcount
    exact ⟨hcalls, y, hy, hrevives⟩
  refine ⟨w', sends, fun k hk => ?_, hrevived⟩
  obtain ⟨k, rfl⟩ := Nat.exists_eq_add_one.mpr hk
  have hcopies : p.Delivers w' (List.replicate k (dead.map Notification.told)).flatten w' [] := by
    refine .of_outdated fun m hm => ?_
    obtain ⟨copy, hcopy, hm⟩ := List.mem_flatten.mp hm
    obtain ⟨n, hn, rfl⟩ := List.mem_map.mp (List.eq_of_mem_replicate hcopy ▸ hm)
    obtain ⟨-, y, hy, hrevives⟩ := hrevived n hn
    exact ⟨y, hy, hrevives.outdates (UInt32.le_refl _)⟩
  rw [List.replicate_succ, List.flatten_cons, ← List.append_assoc]
  exact honce.append hcopies

/-- Publishing and exhausting come to delivering what waited and what was published. -/
theorem Delivers.comesTo_reprocess (ledger : Ledger)
    (hdead : w.store.findByStatus .deadLettered limit = dead)
    (h : p.Delivers w (ms ++ (List.replicate k (dead.map Notification.told)).flatten) w' sends)
    (hsize : 1 ≤ p.settings.consumer.batchSize.toNat) (hw : w.Awaits ms)
    (hhead : (w.bus.log Topic.send.name).head + (k * dead.length : Nat) ≤ 0x7fff_ffff_ffff_ffff)
    (hpublished :
      ((Reprocessing.times limit k).run.perform (.opened w)).1 = .returned (.ok ()))
    {fuel : Nat} (hfuel : ms.length + k * dead.length < fuel) :
    ∃ b : Bus, b.Waiting [] ∧
      (p.reprocess ledger limit k fuel).ComesTo w () (w'.withBus b) sends := by
  have hlength : (List.replicate k dead).flatten.length = k * dead.length := by
    rw [List.length_flatten, List.map_replicate, List.sum_replicate_nat]
  rw [← List.map_replicate, ← List.map_flatten] at h
  rw [← hlength] at hhead hfuel
  obtain ⟨horder, hwaiting⟩ := hw.records.carrying hw.waiting w.now hhead
  obtain ⟨b, -, hnone, hexhaust⟩ := h.comesTo_exhaust ledger hsize horder hwaiting
  rw [List.length_append, List.length_map] at hexhaust
  have htimes := Reprocessing.comesTo_times hpublished
  rw [show (Account.opened w).world = w from rfl, hdead] at htimes
  exact ⟨b, hnone, comesTo_seq htimes (comesTo_last (hexhaust fuel hfuel) rfl)⟩

/-- Where no message waits, a batch does nothing. -/
theorem run_batch_idle (p : Pipeline) (ledger : Ledger) (hnone : w.bus.Waiting []) :
    (p.consumer ledger .send).batch.run.run w = (.done (.ok 0), w) := by
  have hunread : w.bus.unread .send = [] := List.map_eq_nil_iff.mp hnone
  have hpoll : (Job.attempt (.call (.poll Topic.send.subscription
      p.settings.consumer.batchSize.toNat))).ComesTo w
        ((w.bus.unread .send).take p.settings.consumer.batchSize.toNat) w [] :=
    comesTo_ask rfl rfl rfl rfl
  rw [hunread, List.take_nil] at hpoll
  exact ComesTo.run (comesTo_seq hpoll (comesTo_pure 0 w))

/-- Nothing keeps a pipeline from delivering that was put together for the channels. -/
theorem unobstructed_of_new {settings : PipelineSettings} {backoff : Backoff}
    (hnew : new settings (.ofChannels w.channels) backoff = .ok p)
    (hsave : w.store.saveError = none) (hsettles : ∀ channel ∈ w.channels, channel.Settles)
    (hdelay : ∀ medium, ∃ t, w.now.plus (backoff.policyFor medium).maxDelay = .ok t) :
    p.settings = settings ∧ p.backoff = backoff ∧ p.Unobstructed w := by
  unfold new at hnew
  cases hcoverage : Registry.coverage (.ofChannels w.channels) with
  | error error =>
      rw [hcoverage] at hnew
      cases hnew
  | ok _ =>
      rw [hcoverage] at hnew
      obtain rfl := Except.ok.inj hnew
      refine ⟨rfl, rfl, hsave, hsettles, fun medium => ?_, hdelay⟩
      obtain ⟨place, name, hfind⟩ := Registry.find_of_coverage hcoverage medium
      have hplace := Registry.lt_of_find hfind
      rw [Registry.ofChannels, List.length_map] at hplace
      exact ⟨place, name, hfind, hplace⟩

end Pipeline

/-! ## Closed runs -/

theorem Books.Sound.inOrder {w : World} (h : w.books.Sound)
    (hhead : (w.bus.log Topic.send.name).head ≤ 0x7fff_ffff_ffff_ffff) : w.bus.InOrder where
  ordered := (h.records_ordered .send).sublist List.filter_sublist
  below := fun r hr => h.records_below .send r (List.mem_filter.mp hr).1
  cursor_le := h.cursor_le_head .send
  head_le := hhead

/-- Records that can be read carry messages. -/
theorem Bus.exists_waiting {b : Bus} (h : ∀ r ∈ b.unread .send, ∃ m, r.snapshot = some m) :
    ∃ ms, b.Waiting ms ∧ ∀ m ∈ ms, ∃ r ∈ b.unread .send, r.snapshot = some m := by
  refine ⟨(b.unread .send).filterMap Record.snapshot, ?_, fun m hm => List.mem_filterMap.mp hm⟩
  rw [Waiting, List.map_filterMap_some_eq_filter_map_isSome]
  refine (List.filter_eq_self.mpr fun snapshot hsnapshot => ?_).symm
  obtain ⟨r, hr, rfl⟩ := List.mem_map.mp hsnapshot
  obtain ⟨m, hm⟩ := h r hr
  rw [hm]
  rfl

namespace World.IsBlank

variable {w : World} {commands : List Command}

/-- After a closed run, messages that rows have not fallen behind wait to be sent. -/
theorem exists_awaits (h : w.IsBlank)
    (hruns : ∀ op, Command.run op ∈ commands → op.task ≠ .delivery)
    (hserial : (w.after commands).serial ≤ Books.serialLimit)
    (hhead : ((w.after commands).bus.log Topic.send.name).head ≤ 0x7fff_ffff_ffff_ffff) :
    ∃ ms, (w.after commands).Awaits ms := by
  obtain ⟨history, hat⟩ := h.announced_after hruns hserial
  have hregular := h.regular_after hruns hserial
  obtain ⟨ms, hms, hcarried⟩ := Bus.exists_waiting fun r hr => by
    obtain ⟨m, hm, -⟩ := hat.holds.records .send (by decide) r (List.mem_filter.mp hr).1
    exact ⟨m, hm⟩
  refine ⟨ms, ⟨hregular.rows_nodup, hregular.keys_nodup⟩, hat.consistent.books.inOrder hhead, hms,
    fun m hm => ?_⟩
  obtain ⟨r, hr, hsnapshot⟩ := hcarried m hm
  exact hregular.records_backed .send (by decide) r (List.mem_filter.mp hr).1 m hsnapshot

/-- After a closed run the dead letters have used up all their attempts. -/
theorem dead_spent {backoff : Backoff} (h : w.IsBlank)
    (hruns : ∀ op, Command.run op ∈ commands → op.task ≠ .delivery)
    (hbackoff : ∀ q ledger topic, Command.run (.batch q ledger topic) ∈ commands →
      q.backoff = backoff)
    (hdelay : ∀ medium, ∃ t,
      (w.after commands).now.plus (backoff.policyFor medium).maxDelay = .ok t)
    (hroom : ∀ n ∈ (w.after commands).store.notifications, n.retryCount ≠ 0xffffffff)
    (hserial : (w.after commands).serial ≤ Books.serialLimit) :
    ∀ n ∈ (w.after commands).store.notifications, n.status = .deadLettered →
      n.IsSpent (backoff.policyFor n.medium) := by
  intro n hn hstatus
  have hphase := h.phased_after hruns hbackoff
    (fun medium => Instant.canShiftBy_of_plus (hdelay medium).choose_spec) hserial n hn
  rw [Notification.InPhase, hstatus] at hphase
  have hspent := (Nat.le_max_right _ _).trans hphase.1
  exact ⟨hstatus, UInt32.le_iff_toNat_le.mpr hspent, hroom n hn⟩

end World.IsBlank

/-- Reprocessing collapses. After a closed run let nothing keep the pipeline from delivering: no
error waits in the store, the channels settle all calls, and the times of next attempts can be
represented. Then to publish the dead letters several times over, without a failure, and to take
batches until one commits nothing comes to the same as publishing them once: the same world but for
the bus, above all the same rows and the same events in the outbox, and the same calls of channels
in the same order. Each of the notifications is attempted just once, and is sent or given up again
with one failure more. -/
theorem Pipeline.reprocessing_collapses {w : World} {commands : List Command}
    {settings : PipelineSettings} {backoff : Backoff} {p : Pipeline} {limit k : Nat}
    (ledger : Ledger) (hblank : w.IsBlank)
    (hruns : ∀ op, Command.run op ∈ commands → op.task ≠ .delivery)
    (hbackoff : ∀ q ledger topic, Command.run (.batch q ledger topic) ∈ commands →
      q.backoff = backoff)
    (hnew : new settings (.ofChannels (w.after commands).channels) backoff = .ok p)
    (hsave : (w.after commands).store.saveError = none)
    (hsettles : ∀ channel ∈ (w.after commands).channels, channel.Settles)
    (hdelay : ∀ medium, ∃ t,
      (w.after commands).now.plus (backoff.policyFor medium).maxDelay = .ok t)
    (hroom : ∀ n ∈ (w.after commands).store.notifications, n.retryCount ≠ 0xffffffff)
    (hsize : 1 ≤ settings.consumer.batchSize.toNat)
    (hserial : (w.after commands).serial ≤ Books.serialLimit)
    (hhead : ((w.after commands).bus.log Topic.send.name).head +
      (k * ((w.after commands).store.findByStatus .deadLettered limit).length : Nat) ≤
        0x7fff_ffff_ffff_ffff)
    (hk : 1 ≤ k)
    (hpublished : ((Reprocessing.times limit k).run.perform (.opened (w.after commands))).1 =
      .returned (.ok ())) :
    ∃ rounds, ∀ fuel > rounds, ∃ once many : Account,
      (p.reprocess ledger limit 1 fuel).run.perform (.opened (w.after commands)) =
        (.returned (.ok ()), once) ∧
      (p.reprocess ledger limit k fuel).run.perform (.opened (w.after commands)) =
        (.returned (.ok ()), many) ∧
      (p.consumer ledger .send).batch.run.run once.world = (.done (.ok 0), once.world) ∧
      (p.consumer ledger .send).batch.run.run many.world = (.done (.ok 0), many.world) ∧
      many.world = { once.world with bus := many.world.bus } ∧
      many.addressed = once.addressed ∧
      ∀ n ∈ (w.after commands).store.findByStatus .deadLettered limit,
        callsFor n.id once.addressed = 1 ∧
          ∃ y, once.world.store.find? n.id = some y ∧ n.Revives y := by
  obtain ⟨rfl, rfl, hp⟩ := unobstructed_of_new hnew hsave hsettles hdelay
  have hspent : ∀ n ∈ (w.after commands).store.findByStatus .deadLettered limit,
      n ∈ (w.after commands).store.notifications ∧
        n.IsSpent (p.backoff.policyFor n.medium) := by
    intro n hn
    obtain ⟨hrow, hstatus⟩ := Store.mem_findByStatus hn
    exact ⟨hrow, hblank.dead_spent hruns hbackoff hdelay hroom hserial n hrow hstatus⟩
  obtain ⟨ms, hw⟩ := hblank.exists_awaits hruns hserial (by omega)
  generalize hdead : (w.after commands).store.findByStatus .deadLettered limit = dead
    at hhead hspent
  obtain ⟨w', sends, hdelivers, hrevived⟩ := hp.delivers_again hw hspent
  refine ⟨ms.length + k * dead.length, fun fuel hfuel => ?_⟩
  have hless : dead.length ≤ k * dead.length := Nat.le_mul_of_pos_left _ hk
  obtain ⟨b, hnone, honce⟩ := (hdelivers 1 (Nat.le_refl 1)).comesTo_reprocess ledger hdead hsize hw
    (by omega) (Reprocessing.returned_once hk hpublished) (show _ < fuel by omega)
  obtain ⟨b', hnone', hmany⟩ :=
    (hdelivers k hk).comesTo_reprocess ledger hdead hsize hw hhead hpublished hfuel
  obtain ⟨once, honce, hworld, haddressed⟩ := honce.perform (.opened (w.after commands)) rfl
  obtain ⟨many, hmany, hworld', haddressed'⟩ := hmany.perform (.opened (w.after commands)) rfl
  refine ⟨once, many, honce, hmany, ?_, ?_, ?_, haddressed'.trans haddressed.symm, ?_⟩
  · rw [hworld]
    exact p.run_batch_idle ledger hnone
  · rw [hworld']
    exact p.run_batch_idle ledger hnone'
  · rw [hworld, hworld']
    rfl
  · have hopened : (Account.opened (w.after commands)).addressed = [] := rfl
    rw [hopened, List.append_nil] at haddressed
    rw [hworld, haddressed]
    exact hrevived

/-- A channel that fails twice. -/
private def failingTwice : World :=
  Sample.world (List.replicate 2 (.done (.error (.network "down"))))

/-- A notification was given up there after the first failure. -/
private def givenUp : World := failingTwice.after (Sample.firstAttempt (Sample.pipeline 1))

private theorem unobstructed_givenUp : (Sample.pipeline 1).Unobstructed givenUp := by
  let p := Sample.pipeline 1
  have hblank : p.Unobstructed failingTwice := by
    refine ⟨rfl, fun channel hchannel => ?_, fun medium => ?_, fun medium => ?_⟩
    · obtain rfl := List.mem_singleton.mp hchannel
      intro reply hreply
      rcases List.mem_cons.mp hreply with rfl | hreply
      · exact Reply.settled_done (by simp) _
      · obtain rfl := List.eq_of_mem_replicate hreply
        exact Reply.settled_done (by simp [DeliveryError.isDeliveryFailure]) _
    · cases medium <;> exact ⟨0, "channel", rfl, Nat.zero_lt_one⟩
    · refine ⟨⟨300, 0, by decide, by decide, by decide⟩, ?_⟩
      cases medium <;> decide +kernel
  exact ((hblank.run (Operation.submit Sample.request).program).run
    (Operation.publishDue p.publication 100).program).run (Operation.batch p .loops .send).program

/-- The channel still fails when the notification is published three times over, and it is called
once. -/
theorem Pipeline.reprocessing_collapses_thrice :
    ∃ n ∈ givenUp.store.findByStatus .deadLettered 100, ∃ (fuel : Nat) (many : Account),
      ((Sample.pipeline 1).reprocess .loops 100 3 fuel).run.perform (.opened givenUp) =
        (.returned (.ok ()), many) ∧
      callsFor n.id many.addressed = 1 ∧
      ∃ y, many.world.store.find? n.id = some y ∧ n.Revives y := by
  let p := Sample.pipeline 1
  have hp : p.Unobstructed givenUp := unobstructed_givenUp
  have hruns {op : Operation} (hop : Command.run op ∈ Sample.firstAttempt p) :
      op.task ≠ .delivery ∧ ∀ q ledger topic, op = .batch q ledger topic → q = p :=
    Sample.runs_pipeline (List.mem_append_left _ hop)
  have hchannels : Registry.ofChannels givenUp.channels = p.registry := by decide +kernel
  have hnew : Pipeline.new p.settings (.ofChannels givenUp.channels) p.backoff = .ok p := by
    rw [hchannels]
    rfl
  have hdead : (∀ n ∈ givenUp.store.notifications, n.retryCount ≠ 0xffffffff) ∧
      givenUp.serial ≤ Books.serialLimit ∧
      (givenUp.bus.log Topic.send.name).head +
        (3 * (givenUp.store.findByStatus .deadLettered 100).length : Nat) ≤
          0x7fff_ffff_ffff_ffff ∧
      0 < (givenUp.store.findByStatus .deadLettered 100).length := by
    decide +kernel
  obtain ⟨hroom, hserial, hhead, hpos⟩ := hdead
  have hpublished : ((Reprocessing.times 100 3).run.perform (.opened givenUp)).1 =
      .returned (.ok ()) := by
    decide +kernel
  obtain ⟨rounds, hcollapses⟩ := reprocessing_collapses .loops
    (Sample.isBlank_world _ : failingTwice.IsBlank) (fun op hop => (hruns hop).1)
    (fun q ledger topic hop => (hruns hop).2 q ledger topic rfl ▸ rfl) hnew hp.saveError
    hp.channels hp.delays hroom (by decide) hserial hhead (show 1 ≤ 3 by decide) hpublished
  obtain ⟨once, many, -, hmany, -, -, hworld, haddressed, hrevived⟩ :=
    hcollapses (rounds + 1) (Nat.lt_succ_self _)
  obtain ⟨n, hn⟩ := List.exists_mem_of_length_pos hpos
  obtain ⟨hcalls, y, hy, hrevives⟩ := hrevived n hn
  refine ⟨n, hn, rounds + 1, many, hmany, haddressed ▸ hcalls, y, ?_, hrevives⟩
  rw [hworld]
  exact hy

end Courier
