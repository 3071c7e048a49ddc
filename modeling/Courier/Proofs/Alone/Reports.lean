import Courier.Proofs.Alone.Settling
import Courier.Proofs.Bus
import Courier.Proofs.Text.Utf8
import Mathlib.Data.List.Forall2

/-!
Records that cannot be read are reported once each. A report is published and counted right before
the record is committed, and nothing that can fail stands between them; a report that is refused
ends its batch, with the record still to be polled. So what a consumer that delivers adds to the
dead letters is told by the records below its cursor, whatever else ends its batches early, and by
nothing else, as long as no channel claims that it cannot read what it was given.
-/

namespace Courier

/-! ## Reports -/

/-- A report names the place of a record, and shows all of its payload if that is text. -/
structure UnreadableReport.On (report : UnreadableReport) (r : Record) : Prop where
  reason : report.reason = "DESERIALIZATION_ERROR"
  topic : report.sourceTopic = r.topic
  partition : report.sourcePartition = r.partition
  offset : report.sourceOffset = r.offset
  payload : (Bytes.toString? r.payload).isSome → Bytes.ofString report.rawPayload = r.payload

/-- The bytes read back as a report on the record. -/
def Record.IsReportedBy (r : Record) (bytes : Bytes) : Prop :=
  ∃ report, UnreadableReport.codec.decode bytes = .ok report ∧ report.On r

/-- What is published for a record is a report on it. -/
theorem Record.isReportedBy_encode {r : Record} (hpartition : r.partition = 0)
    (hlow : 0 ≤ r.offset) (hhigh : r.offset ≤ 2 ^ 63 - 1) (now : Instant) :
    r.IsReportedBy
      (UnreadableReport.ofPayload r.topic r.partition r.offset r.payload now).encode := by
  refine ⟨_, UnreadableReport.decode_ofPayload _ _ _ (by omega) (by omega), rfl, rfl, rfl, rfl, ?_⟩
  exact Bytes.ofString_toStringLossy

/-! ## Topics that are whole -/

/-- Nothing was dropped from a topic: the offset of a record counts the records before it. -/
structure Bus.Whole (b : Bus) (topic : String) : Prop where
  head_eq : (b.log topic).head = (b.records topic).length
  places : ∀ (i : Nat) (r : Record), (b.records topic)[i]? = some r → r.partition = 0 ∧ r.offset = i

namespace Bus

variable {b : Bus} {topic : String} {k : Nat}

/-- The records of a topic that a group is done with. -/
def below (b : Bus) (s : Subscription) : List Record :=
  (b.records s.topic).filter (·.offset < b.cursor s)

theorem records_prefix_append (b : Bus) (topic other : String) (key : Option String)
    (payload : Bytes) (now : Instant) :
    b.records topic <+: (b.append other key payload now).records topic := by
  by_cases hname : topic = other
  · rw [hname, records_append_self]
    exact List.prefix_append _ _
  · rw [records, records, b.log_append_of_ne other key payload now hname]

theorem whole_of_nil (h : b.log topic = {}) : b.Whole topic := by
  have hnone : b.records topic = [] := by rw [records, h]; rfl
  refine ⟨by rw [h, hnone]; rfl, fun i r hr => ?_⟩
  rw [hnone, List.getElem?_nil] at hr
  cases hr

namespace Whole

theorem append (h : b.Whole topic) (other : String) (key : Option String) (payload : Bytes)
    (now : Instant) : (b.append other key payload now).Whole topic := by
  by_cases hname : topic = other
  · subst hname
    refine ⟨?_, fun i r hr => ?_⟩
    · rw [head_append_self, records_append_self, h.head_eq, List.length_append]
      rfl
    · rw [records_append_self, List.getElem?_append] at hr
      split at hr
      · exact h.places i r hr
      · next hlast =>
        rw [List.getElem?_singleton] at hr
        split at hr
        · next hi =>
          obtain rfl := Option.some.inj hr
          exact ⟨rfl, h.head_eq.trans (by omega)⟩
        · exact nomatch hr
  · have hlog := b.log_append_of_ne other key payload now hname
    refine ⟨?_, fun i r hr => h.places i r ?_⟩
    · rw [hlog, h.head_eq, records, records, hlog]
    · rwa [records, hlog] at hr

theorem offset_lt_of_mem_take (h : b.Whole topic) {r : Record}
    (hr : r ∈ (b.records topic).take k) : r.offset < k := by
  obtain ⟨i, hi, rfl⟩ := List.mem_take_iff_getElem.mp hr
  rw [(h.places i _ (List.getElem?_eq_getElem (by omega))).2]
  omega

theorem le_offset_of_mem_drop (h : b.Whole topic) {r : Record}
    (hr : r ∈ (b.records topic).drop k) : k ≤ r.offset := by
  obtain ⟨i, hi, rfl⟩ := List.mem_drop_iff_getElem.mp hr
  rw [(h.places (k + i) _ (List.getElem?_eq_getElem (by omega))).2]
  omega

/-- Behind a record the next one has its place, as long as offsets fit 64 bits. -/
theorem behind_eq (h : b.Whole topic) {r : Record} (hr : (b.records topic)[k]? = some r)
    (hroom : (b.records topic).length ≤ 2 ^ 63 - 1) : behind r.offset = (k + 1 : Nat) := by
  have hk : k < (b.records topic).length := (List.getElem?_eq_some_iff.mp hr).1
  rw [behind, (h.places k r hr).2]
  omega

/-- The records below an offset are as many of the first ones. -/
theorem filter_lt (h : b.Whole topic) (k : Nat) :
    (b.records topic).filter (·.offset < (k : Int)) = (b.records topic).take k := by
  conv_lhs => rw [← List.take_append_drop k (b.records topic), List.filter_append]
  rw [List.filter_eq_self.mpr fun r hr => decide_eq_true (h.offset_lt_of_mem_take hr),
    List.filter_eq_nil_iff.mpr fun r hr => ?_, List.append_nil]
  simpa using h.le_offset_of_mem_drop hr

/-- The records from an offset on are the others. -/
theorem filter_ge (h : b.Whole topic) (k : Nat) :
    (b.records topic).filter ((k : Int) ≤ ·.offset) = (b.records topic).drop k := by
  conv_lhs => rw [← List.take_append_drop k (b.records topic), List.filter_append]
  rw [List.filter_eq_nil_iff.mpr fun r hr => ?_, List.nil_append,
    List.filter_eq_self.mpr fun r hr => decide_eq_true (h.le_offset_of_mem_drop hr)]
  simpa using h.offset_lt_of_mem_take hr

end Whole
end Bus

/-- A topic that was never pruned is whole, whatever it took and whoever read it. -/
theorem Journal.Sound.whole {j : Journal} (h : j.Sound) {topic : String}
    (hpruned : topic ∉ j.pruned) : j.bus.Whole topic where
  head_eq := by
    rw [h.head_eq, Bus.records, List.length_map, h.entries_eq topic hpruned, length_unpruned]
  places i r hr := by
    rw [Bus.records, h.entries_eq topic hpruned, List.getElem?_map, Option.map_eq_some_iff] at hr
    obtain ⟨e, he, rfl⟩ := hr
    obtain ⟨hi, rfl⟩ := List.getElem?_eq_some_iff.mp he
    exact ⟨by simp [unpruned, Message.entry], offset_unpruned hi⟩

/-! ## Records one after the other -/

namespace Consumer

variable {c : Consumer} {r : Record} {w₀ w w' : World} {calls history : List Answered} {k : Nat}

/-- All that became a dead letter since `w₀` is a report on each unreadable record among the first
`k`, in their order, and as many errors were counted. -/
def Reported (c : Consumer) (w₀ w : World) (k : Nat) : Prop :=
  ∃ reports, w.bus.records Topic.deadLetter.name =
      w₀.bus.records Topic.deadLetter.name ++ reports ∧
    List.Forall₂ (fun r report => r.IsReportedBy report.payload)
      (((w.bus.records c.subscription.topic).take k).filter Record.isUnreadable) reports ∧
    w.unreadable c.ledger = w₀.unreadable c.ledger + reports.length

/-- What the consumer does not notice: its topic may grow, but no record of it is dropped, nothing
becomes a dead letter, and nobody commits for the group or counts unreadable records. -/
structure Spares (c : Consumer) (s s' : Account) : Prop where
  whole : s'.world.bus.Whole c.subscription.topic
  grows : s.world.bus.records c.subscription.topic <+:
    s'.world.bus.records c.subscription.topic
  letters_eq : s'.world.bus.records Topic.deadLetter.name =
    s.world.bus.records Topic.deadLetter.name
  cursor_eq : s'.world.bus.cursor c.subscription = s.world.bus.cursor c.subscription
  unreadable_eq : s'.world.unreadable c.ledger = s.world.unreadable c.ledger
  history : s.history ⊆ s'.history

/-- A consumer that began in `w₀` stands before a record of its topic, or at the end of it. -/
structure Stands (c : Consumer) (w₀ : World) (s : Account) (k : Nat) : Prop where
  whole : s.world.bus.Whole c.subscription.topic
  cursor : s.world.bus.cursor c.subscription = k
  le : k ≤ (s.world.bus.records c.subscription.topic).length
  reported : (∀ x ∈ s.history, x.garbles = false) → c.Reported w₀ s.world k

/-- The topic may have grown. -/
theorem Reported.frame (h : c.Reported w₀ w k)
    (hk : k ≤ (w.bus.records c.subscription.topic).length)
    (hgrows : w.bus.records c.subscription.topic <+: w'.bus.records c.subscription.topic)
    (hletters : w'.bus.records Topic.deadLetter.name = w.bus.records Topic.deadLetter.name)
    (hcount : w'.unreadable c.ledger = w.unreadable c.ledger) : c.Reported w₀ w' k := by
  obtain ⟨reports, hrecords, hreports, hcounted⟩ := h
  obtain ⟨more, hmore⟩ := hgrows
  refine ⟨reports, hletters.trans hrecords, ?_, hcount.trans hcounted⟩
  rwa [← hmore, List.take_append_of_le_length hk]

theorem Stands.frame {s s' : Account} (h : c.Stands w₀ s k) (hspares : c.Spares s s') :
    c.Stands w₀ s' k where
  whole := hspares.whole
  cursor := hspares.cursor_eq.trans h.cursor
  le := h.le.trans hspares.grows.length_le
  reported hread := (h.reported fun x hx => hread x (hspares.history hx)).frame h.le hspares.grows
    hspares.letters_eq hspares.unreadable_eq

/-- A record that can be read needs no report. -/
theorem Reported.pass (h : c.Reported w₀ w k)
    (hr : (w.bus.records c.subscription.topic)[k]? = some r) (hread : r.isUnreadable = false) :
    c.Reported w₀ w (k + 1) := by
  obtain ⟨reports, hrecords, hreports, hcounted⟩ := h
  refine ⟨reports, hrecords, ?_, hcounted⟩
  rw [List.take_add_one, hr, Option.toList_some, List.filter_append,
    List.filter_singleton, hread]
  simpa using hreports

/-- One more is reported. The topic may be the one of the dead letters itself. -/
theorem Reported.report {key : Option String} {now : Instant} (h : c.Reported w₀ w k)
    (hr : (w.bus.records c.subscription.topic)[k]? = some r) (hunreadable : r.isUnreadable = true)
    (hreport : r.IsReportedBy (reportOn r now))
    (hbus : w'.bus = w.bus.append Topic.deadLetter.name key (reportOn r now) now)
    (hcount : w'.unreadable c.ledger = w.unreadable c.ledger + 1) :
    c.Reported w₀ w' (k + 1) := by
  obtain ⟨reports, hrecords, hreports, hcounted⟩ := h
  have hk : k + 1 ≤ (w.bus.records c.subscription.topic).length :=
    (List.getElem?_eq_some_iff.mp hr).1
  obtain ⟨more, hmore⟩ := w.bus.records_prefix_append c.subscription.topic
    Topic.deadLetter.name key (reportOn r now) now
  refine ⟨reports ++ [⟨Topic.deadLetter.name, 0, (w.bus.log Topic.deadLetter.name).head, key,
    reportOn r now⟩], ?_, ?_, ?_⟩
  · rw [hbus, Bus.records_append_self, hrecords, List.append_assoc]
  · rw [hbus, ← hmore, List.take_append_of_le_length hk, List.take_add_one, hr,
      Option.toList_some, List.filter_append, List.filter_singleton, hunreadable]
    exact List.rel_append hreports (.cons hreport .nil)
  · rw [hcount, hcounted, List.length_append]
    rfl

/-- What is settled and not to be committed was not reported. -/
theorem Settles.spares {close : Close (Except DeliveryError Bool)}
    (h : c.Settles r w close w' calls) (hclose : close ≠ .returned (.ok true))
    (hwhole : w.bus.Whole c.subscription.topic) :
    c.Spares ⟨w, history⟩ ⟨w', calls ++ history⟩ := by
  have hhistory {more : List Answered} : history ⊆ more ++ history :=
    List.subset_append_right _ _
  cases h with
  | passes hbus hcount =>
      refine ⟨?_, ?_, ?_, ?_, hcount, hhistory⟩ <;> dsimp only <;> rw [hbus]
      exact hwhole
  | reports => exact absurd rfl hclose
  | refused hbus hcount =>
      refine ⟨?_, ?_, ?_, ?_, hcount, hhistory⟩ <;> dsimp only <;> rw [hbus]
      · exact ⟨hwhole.head_eq, hwhole.places⟩
      · exact List.prefix_refl _
      · rfl
      · rfl

/-- The cursor moves behind the record that it was at. -/
private theorem stands_committing {s : Account} (hwhole : s.world.bus.Whole c.subscription.topic)
    (hcursor : s.world.bus.cursor c.subscription = k)
    (hbehind : Bus.behind r.offset = (k + 1 : Nat))
    (hle : k + 1 ≤ (s.world.bus.records c.subscription.topic).length)
    (hreported : (∀ x ∈ s.history, x.garbles = false) → c.Reported w₀ s.world (k + 1)) :
    c.Stands w₀ (c.committing r s) (k + 1) where
  whole := ⟨hwhole.head_eq, hwhole.places⟩
  cursor := by
    rw [committing, Bus.cursor_commit_self, hcursor, hbehind]
    omega
  le := hle
  reported hread :=
    (hreported fun x hx => hread x (List.mem_cons_of_mem _ hx)).frame hle (List.prefix_refl _) rfl
      (by cases c.ledger <;> rfl)

/-- What is settled and committed is reported if it cannot be read. -/
theorem Stands.commit (h : c.Stands w₀ ⟨w, history⟩ k)
    (hr : (w.bus.records c.subscription.topic)[k]? = some r)
    (hroom : (w.bus.records c.subscription.topic).length ≤ 2 ^ 63 - 1)
    (hsettles : c.Settles r w (.returned (.ok true)) w' calls) :
    c.Stands w₀ (c.committing r ⟨w', calls ++ history⟩) (k + 1) := by
  have hbehind := h.whole.behind_eq hr hroom
  have hk : k + 1 ≤ (w.bus.records c.subscription.topic).length :=
    (List.getElem?_eq_some_iff.mp hr).1
  cases hsettles with
  | passes hbus hcount hcalls hread =>
      refine stands_committing ?_ ?_ hbehind ?_ fun hnone => ?_
      · exact hbus ▸ h.whole
      · exact hbus ▸ h.cursor
      · exact hbus ▸ hk
      · have hbefore := h.reported fun x hx => hnone x (List.mem_append_right _ hx)
        refine (hbefore.pass hr (hread rfl)).frame hk ?_ ?_ hcount <;> rw [hbus]
  | @reports w' calls now id hbus hcount hcalls hunreadable =>
      have hgrows := w.bus.records_prefix_append c.subscription.topic Topic.deadLetter.name
        (some id.text) (reportOn r now) now
      obtain ⟨hpartition, hoffset⟩ := h.whole.places k r hr
      refine stands_committing ?_ ?_ hbehind ?_ fun hnone => ?_
      · exact hbus ▸ h.whole.append _ _ _ _
      · exact hbus ▸ h.cursor
      · exact hk.trans (hbus ▸ hgrows.length_le)
      · have hbefore := h.reported fun x hx => hnone x (List.mem_append_right _ hx)
        refine hbefore.report hr (hunreadable.resolve_right ?_) ?_ hbus hcount
        · rintro ⟨x, hx, hgarbles⟩
          have hread := hnone x (List.mem_append_left history (List.mem_append_right _ hx))
          exact nomatch hread.symm.trans hgarbles
        · exact Record.isReportedBy_encode hpartition (by omega) (by omega) now

/-! ## Batches -/

theorem Settles.grows {close : Close (Except DeliveryError Bool)}
    (h : c.Settles r w close w' calls) (topic : String) :
    w.bus.records topic <+: w'.bus.records topic := by
  cases h with
  | passes hbus => rw [hbus]
  | refused hbus =>
      rw [hbus]
      exact List.prefix_refl _
  | reports hbus =>
      rw [hbus]
      exact w.bus.records_prefix_append topic _ _ _ _

theorem Course.grows {rs : List Record} {n : Nat} {close : Close (Except DeliveryError Nat)}
    (h : c.Course rs n w close w' calls) (topic : String) :
    w.bus.records topic <+: w'.bus.records topic := by
  induction h with
  | done => exact List.prefix_refl _
  | commits h _ ih => exact (h.grows topic).trans ih
  | stops h => exact h.grows topic

private theorem not_delivers_publish {topic : String} {key : Option String} {payload : Bytes} :
    ¬ (Call.publish topic key payload).Delivers := fun h => h.elim id id

/-- Only a report is published for a record, and if it is refused the record is not settled. -/
theorem Settles.refuses {close : Close (Except DeliveryError Bool)} {topic : String}
    {key : Option String} {payload : Bytes} {error : DeliveryError}
    (h : c.Settles r w close w' calls)
    (hmem : (⟨.publish topic key payload, .error error⟩ : Answered) ∈ calls) :
    close = .returned (.error error) ∧ ∃ now, payload = reportOn r now := by
  cases h with
  | passes _ _ hcalls => exact absurd (hcalls _ hmem) not_delivers_publish
  | reports _ _ hcalls =>
      rcases List.mem_append.mp hmem with hmem | hmem
      · simp [reporting] at hmem
      · exact absurd (hcalls _ hmem) not_delivers_publish
  | refused _ _ hcalls =>
      simp only [List.mem_cons, Answered.mk.injEq, reduceCtorEq, false_and, false_or] at hmem
      rcases hmem with ⟨hcall, hanswer⟩ | hmem
      · obtain ⟨-, -, rfl⟩ := Call.publish.inj hcall
        cases hcall
        cases hanswer
        exact ⟨rfl, _, rfl⟩
      · exact absurd (hcalls _ hmem) not_delivers_publish

/-- A report that was refused ended the batch, and the cursor is at the record that it was on. -/
def Refuses (c : Consumer) (close : Close (Except DeliveryError Nat)) (w : World)
    (calls : List Answered) : Prop :=
  ∀ topic key payload error, (⟨.publish topic key payload, .error error⟩ : Answered) ∈ calls →
    close = .returned (.error error) ∧ ∃ r ∈ w.bus.records c.subscription.topic,
      r.offset = w.bus.cursor c.subscription ∧ r.IsReportedBy payload

/-- The record in hand is the one at the cursor, and the others come behind it. -/
private theorem hand_of_prefix {rest records : List Record} (h : r :: rest <+: records.drop k) :
    records[k]? = some r ∧ rest <+: records.drop (k + 1) := by
  obtain ⟨more, hmore⟩ := h
  constructor
  · have hfirst := congrArg (·[0]?) hmore
    rw [List.cons_append] at hfirst
    simpa using hfirst.symm
  · refine ⟨more, ?_⟩
    rw [← List.tail_drop, ← hmore, List.cons_append, List.tail_cons]

/-- A batch that goes through the records from the cursor on. -/
theorem Stands.course {rs : List Record} {n : Nat} {close : Close (Except DeliveryError Nat)}
    (h : c.Stands w₀ ⟨w, history⟩ k) (hcourse : c.Course rs n w close w' calls)
    (hrs : rs <+: (w.bus.records c.subscription.topic).drop k)
    (hroom : (w'.bus.records c.subscription.topic).length ≤ 2 ^ 63 - 1) :
    (∃ k', c.Stands w₀ ⟨w', calls ++ history⟩ k') ∧ c.Refuses close w' calls := by
  have hlength := (hcourse.grows c.subscription.topic).length_le.trans hroom
  induction hcourse generalizing history k with
  | done => exact ⟨⟨k, h⟩, fun _ _ _ _ hmem => absurd hmem List.not_mem_nil⟩
  | @commits r rest n w w' w'' close calls more hsettles hrest ih =>
      obtain ⟨hr, hrest'⟩ := hand_of_prefix hrs
      have hgrows := hsettles.grows c.subscription.topic
      obtain ⟨⟨k', hstands⟩, hrefuses⟩ := ih (h.commit hr hlength hsettles)
        (hrest'.trans (hgrows.drop _)) hroom
        ((hrest.grows c.subscription.topic).length_le.trans hroom)
      refine ⟨⟨k', ?_⟩, fun topic key payload error hmem => ?_⟩
      · rw [List.append_assoc]
        exact hstands
      · rcases List.mem_append.mp hmem with hmem | hmem
        · exact hrefuses topic key payload error hmem
        · rcases List.mem_cons.mp hmem with hmem | hmem
          · cases hmem
          · exact nomatch (hsettles.refuses hmem).1
  | @stops r rest n w close w' calls hsettles hclose =>
      obtain ⟨hr, -⟩ := hand_of_prefix hrs
      have hstopped := h.frame (hsettles.spares hclose h.whole)
      obtain ⟨hpartition, hoffset⟩ := h.whole.places k r hr
      have hk : k < (w.bus.records c.subscription.topic).length :=
        (List.getElem?_eq_some_iff.mp hr).1
      refine ⟨⟨k, hstopped⟩, fun topic key payload error hmem => ?_⟩
      obtain ⟨rfl, now, rfl⟩ := hsettles.refuses hmem
      refine ⟨rfl, r, ?_, hoffset.trans hstopped.cursor.symm, ?_⟩
      · exact (hsettles.grows _).subset (List.mem_of_getElem? hr)
      · exact Record.isReportedBy_encode hpartition (by omega) (by omega) now

theorem Delivers.grows_batch (h : c.Delivers) (s : Account) (topic : String) :
    s.world.bus.records topic <+: (c.batch.run.perform s).2.world.bus.records topic := by
  obtain ⟨close, w', calls, hperform, more, hcourse, -⟩ := h.runsAs_batch s.world s.history
  rw [show c.batch.run.perform s = _ from hperform]
  exact hcourse.grows topic

/-- What is polled is what comes from the cursor on. -/
theorem Stands.poll_prefix {s : Account} (h : c.Stands w₀ s k) (max : Nat) :
    s.world.bus.poll c.subscription max <+:
      (s.world.bus.records c.subscription.topic).drop k := by
  rw [Bus.poll, h.cursor, ← h.whole.filter_ge k]
  exact List.take_prefix _ _

theorem Stands.batch {s s' : Account} {close : Close (Except DeliveryError Nat)}
    (h : c.Stands w₀ s k) (hdelivers : c.Delivers) (hbatch : c.batch.run.perform s = (close, s'))
    (hroom : (s'.world.bus.records c.subscription.topic).length ≤ 2 ^ 63 - 1) :
    (∃ k', c.Stands w₀ s' k') ∧ c.Refuses close s'.world (s.since s') := by
  obtain ⟨close', w', calls, hperform, more, hcourse, rfl⟩ :=
    hdelivers.runsAs_batch s.world s.history
  obtain ⟨rfl, rfl⟩ := Prod.mk.inj (hbatch.symm.trans hperform)
  have hpolled : c.Stands w₀ ⟨s.world, ⟨.poll c.subscription c.batchSize,
      .ok (s.world.bus.poll c.subscription c.batchSize)⟩ :: s.history⟩ k :=
    h.frame ⟨h.whole, List.prefix_refl _, rfl, rfl, rfl, List.subset_cons_self _ _⟩
  obtain ⟨hstands, hrefuses⟩ := hpolled.course hcourse (h.poll_prefix _) hroom
  refine ⟨?_, fun topic key payload error hmem => ?_⟩
  · rw [List.append_assoc]
    exact hstands
  · rw [Account.since_of_append rfl, List.mem_reverse] at hmem
    rcases List.mem_append.mp hmem with hmem | hmem
    · exact hrefuses topic key payload error hmem
    · cases List.mem_singleton.mp hmem

/-! ## Runs -/

/-- A run of batches one after the other, however each of them ends, with anything in between that
spares the consumer. -/
inductive Runs (c : Consumer) (s : Account) : Account → Prop
  | start : Runs c s s
  | batch {s'} (h : Runs c s s') : Runs c s (c.batch.run.perform s').2
  | between {s' s''} (h : Runs c s s') (hspares : c.Spares s' s'') : Runs c s s''

variable {s s' : Account}

/-- Setting the clock, making publications be refused and injecting errors. -/
theorem spares_obey {command : Command} (hwhole : s.world.bus.Whole c.subscription.topic)
    (hcommand : ∀ op, command ≠ .run op) : c.Spares s (s.obey command) := by
  cases command with
  | run op => exact absurd rfl (hcommand op)
  | _ =>
      refine ⟨⟨hwhole.head_eq, hwhole.places⟩, List.prefix_refl _, rfl, rfl, ?_, List.Subset.refl _⟩
      cases c.ledger <;> rfl

/-- A record may arrive. -/
theorem spares_arrival (hwhole : s.world.bus.Whole c.subscription.topic) {topic : String}
    (htopic : topic ≠ Topic.deadLetter.name) (key : Option String) (payload : Bytes) :
    c.Spares s { s with
      world := { s.world with bus := s.world.bus.append topic key payload s.world.now } } where
  whole := hwhole.append topic key payload s.world.now
  grows := s.world.bus.records_prefix_append _ topic key payload s.world.now
  letters_eq := by
    rw [Bus.records, Bus.log_append_of_ne _ _ _ _ _ htopic.symm, Bus.records]
  cursor_eq := rfl
  unreadable_eq := by cases c.ledger <;> rfl
  history := List.Subset.refl _

theorem Runs.stands (hdelivers : c.Delivers) (hwhole : w.bus.Whole c.subscription.topic)
    (hcursor : w.bus.cursor c.subscription = 0) (hruns : c.Runs (.opened w) s)
    (hroom : (s.world.bus.records c.subscription.topic).length ≤ 2 ^ 63 - 1) :
    ∃ k, c.Stands w s k := by
  induction hruns with
  | start =>
      exact ⟨0, hwhole, hcursor, Nat.zero_le _, fun _ => ⟨[], (List.append_nil _).symm, .nil, rfl⟩⟩
  | @batch s' h ih =>
      have hgrows := hdelivers.grows_batch s' c.subscription.topic
      obtain ⟨k, hstands⟩ := ih (hgrows.length_le.trans hroom)
      exact (hstands.batch hdelivers rfl hroom).1
  | between h hspares ih =>
      obtain ⟨k, hstands⟩ := ih (hspares.grows.length_le.trans hroom)
      exact ⟨k, hstands.frame hspares⟩

/-- Unreadable records are reported exactly once. A consumer that delivers begins at the start of a
topic of any records and runs any number of batches, with publications refused or not. All that
becomes a dead letter then are reports, one on each unreadable record that the group is done with,
in the order of the records, and as many errors are counted; each report is read back with the place
of its record, and with all of its payload if that is text. A batch whose report is refused fails
with that, and leaves the record to be polled. This takes that no channel claims to be given what it
cannot read, and that offsets fit 64 bits. -/
theorem Runs.reports_once (hdelivers : c.Delivers) (hwhole : w.bus.Whole c.subscription.topic)
    (hcursor : w.bus.cursor c.subscription = 0) (hruns : c.Runs (.opened w) s)
    (hroom : (s.world.bus.records c.subscription.topic).length ≤ 2 ^ 63 - 1)
    (hread : ∀ x ∈ s.history, x.garbles = false) :
    (∃ reports, s.world.bus.records Topic.deadLetter.name =
        w.bus.records Topic.deadLetter.name ++ reports ∧
      List.Forall₂ (fun r report => r.IsReportedBy report.payload)
        ((s.world.bus.below c.subscription).filter Record.isUnreadable) reports ∧
      s.world.unreadable c.ledger = w.unreadable c.ledger + reports.length) ∧
    ∀ before close, c.Runs (.opened w) before → c.batch.run.perform before = (close, s) →
      c.Refuses close s.world (before.since s) := by
  constructor
  · obtain ⟨k, hstands⟩ := hruns.stands hdelivers hwhole hcursor hroom
    rw [Bus.below, hstands.cursor, hstands.whole.filter_lt]
    exact hstands.reported hread
  · intro before close hbefore hbatch
    have hgrows := hdelivers.grows_batch before c.subscription.topic
    rw [hbatch] at hgrows
    obtain ⟨k, hstands⟩ := hbefore.stands hdelivers hwhole hcursor (hgrows.length_le.trans hroom)
    exact (hstands.batch hdelivers hbatch hroom).2

end Consumer

namespace Sample

/-- The consumer of what is to be sent. -/
private def sender : Consumer := (pipeline 5).consumer .loops .send

/-- A batch in the littered world, with one report refused. -/
private def hindered : Account :=
  (sender.batch.run.perform
    ((Account.opened littered).obey (.refusePublishes Topic.deadLetter.name 1))).2

/-- Another record arrives, which is no text, and there is another batch. -/
private def tidied : Account :=
  (sender.batch.run.perform { hindered with
    world := { hindered.world with
      bus := hindered.world.bus.append Topic.send.name none [0xff] hindered.world.now } }).2

end Sample

/-- Of two records that cannot be read, the first is reported at the second try. -/
theorem Consumer.Runs.reports_once_tidied :
    Sample.sender.Runs (.opened Sample.littered) Sample.tidied ∧
      Sample.hindered.world.bus.cursor Sample.sender.subscription = 0 ∧
      ((Sample.tidied.world.bus.below Sample.sender.subscription).filter
        Record.isUnreadable).map (·.payload) = [[0x7b], [0xff]] ∧
      Sample.tidied.world.unreadable .loops = 2 ∧
      List.Forall₂ (fun r report => r.IsReportedBy report.payload)
        ((Sample.tidied.world.bus.below Sample.sender.subscription).filter Record.isUnreadable)
        (Sample.tidied.world.bus.records Topic.deadLetter.name) := by
  have hdelivers : Sample.sender.Delivers := ⟨_, Or.inl rfl⟩
  have hwhole : Sample.littered.bus.Whole Sample.sender.subscription.topic :=
    (Bus.whole_of_nil rfl).append Topic.send.name none [0x7b] _
  have hrefusal : Sample.sender.Spares (.opened Sample.littered)
      ((Account.opened Sample.littered).obey (.refusePublishes Topic.deadLetter.name 1)) :=
    spares_obey hwhole (by simp)
  have hhindered : Sample.sender.Runs (.opened Sample.littered) Sample.hindered :=
    .batch (.between .start hrefusal)
  obtain ⟨k, hstands⟩ := hhindered.stands hdelivers hwhole rfl (by decide +kernel)
  have htidied : Sample.sender.Runs (.opened Sample.littered) Sample.tidied :=
    .batch (.between hhindered (spares_arrival hstands.whole (by decide) none [0xff]))
  have hread : Sample.tidied.history.all (fun x => !x.garbles) = true := by decide +kernel
  obtain ⟨⟨reports, hrecords, hreports, -⟩, -⟩ :=
    htidied.reports_once hdelivers hwhole rfl (by decide +kernel) (by simpa using hread)
  refine ⟨htidied, by decide +kernel, by decide +kernel, by decide +kernel, ?_⟩
  rw [hrecords]
  exact hreports

end Courier
