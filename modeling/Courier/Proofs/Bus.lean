import Courier.Proofs.Runs.Tables
import Mathlib.Data.List.Perm.Subperm

/-!
What the bus keeps for the groups that read it. Groups, topics and moments are arbitrary here, and
so is the order in which messages are published, records polled and committed, and topics pruned.
Beside the bus a journal tells which messages it took: without pruning, a topic would hold just
these, each with the next offset. What it does hold is a part of them, in their order, and all that
a group may still read, if the group was there before the topic was first pruned.
-/

namespace Courier

/-- What can be done to a bus. -/
inductive Act where
  | publish (topic : String) (key : Option String) (payload : Bytes) (now : Instant)
  | refuseNext (topic : String) (count : Nat)
  | poll (s : Subscription) (max : Nat)
  | commit (s : Subscription) (r : Record)
  | prune (topic : String) (cutoff : Instant)

/-- A message that a topic took. -/
structure Message where
  topic : String
  key : Option String
  payload : Bytes
  takenAt : Instant

/-- The record of a message that was the next one at an offset. -/
def Message.entry (m : Message) (offset : Nat) : LogEntry :=
  ⟨⟨m.topic, 0, offset, m.key, m.payload⟩, m.takenAt⟩

/-- A bus and what became of it: the messages that it took, the records that were polled, each with
the topic that was asked, the groups that have committed, and the topics that were pruned. -/
structure Journal where
  bus : Bus := {}
  taken : List Message := []
  shown : List (String × Record) := []
  committed : List Subscription := []
  pruned : List String := []

namespace Journal

def messages (j : Journal) (topic : String) : List Message := j.taken.filter (·.topic = topic)

/-- The log of a topic as it would be if nothing had been pruned. -/
def unpruned (j : Journal) (topic : String) : List LogEntry :=
  (j.messages topic).zipIdx.map fun (m, offset) => m.entry offset

def perform (j : Journal) : Act → Journal
  | .publish topic key payload now =>
    match j.bus.publish topic key payload now with
    | (.ok (), bus) => { j with bus, taken := j.taken ++ [⟨topic, key, payload, now⟩] }
    | (.error _, bus) => { j with bus }
  | .refuseNext topic count => { j with bus := j.bus.refuseNext topic count }
  | .poll s max => { j with shown := j.shown ++ (j.bus.poll s max).map (s.topic, ·) }
  | .commit s r => { j with bus := j.bus.commit s r.offset, committed := s :: j.committed }
  | .prune topic cutoff =>
    { j with bus := (j.bus.prune topic cutoff).2, pruned := topic :: j.pruned }

def after (j : Journal) (acts : List Act) : Journal := acts.foldl perform j

/-- A group commits a record only if a poll of its topic has shown it. -/
def Permits (j : Journal) : Act → Prop
  | .commit s r => (s.topic, r) ∈ j.shown
  | _ => True

def PermitsAll (j : Journal) : List Act → Prop
  | [] => True
  | act :: acts => j.Permits act ∧ (j.perform act).PermitsAll acts

instance (j : Journal) (act : Act) : Decidable (j.Permits act) := by
  unfold Permits
  split <;> infer_instance

instance decidablePermitsAll (j : Journal) : (acts : List Act) → Decidable (j.PermitsAll acts)
  | [] => isTrue trivial
  | act :: acts => @instDecidableAnd _ _ _ (decidablePermitsAll (j.perform act) acts)

variable {j : Journal} {act : Act} {acts later : List Act} {topic : String} {s : Subscription}

theorem after_append (j : Journal) (acts later : List Act) :
    j.after (acts ++ later) = (j.after acts).after later :=
  List.foldl_append

theorem permitsAll_append :
    j.PermitsAll (acts ++ later) ↔ j.PermitsAll acts ∧ (j.after acts).PermitsAll later := by
  induction acts generalizing j with
  | nil => exact (iff_of_eq (true_and _)).symm
  | cons act acts ih =>
      simp only [List.cons_append, PermitsAll, ih, and_assoc]
      rfl

/-! ## The log without pruning -/

/-- The records of messages at the offsets from one on. -/
private theorem filter_entries (ms : List Message) (start : Nat) (c : Int) :
    ((ms.zipIdx start).map fun (m, offset) => m.entry offset).filter (c ≤ ·.record.offset) =
      ((ms.zipIdx start).map fun (m, offset) => m.entry offset).drop (c - start).toNat := by
  induction ms generalizing start with
  | nil => simp
  | cons m ms ih =>
      rw [List.zipIdx_cons, List.map_cons, List.filter_cons, ih]
      have hoffset : (m.entry start).record.offset = start := rfl
      by_cases hle : c ≤ start
      · rw [if_pos (by simpa [hoffset] using hle), show (c - start).toNat = 0 by omega,
          show (c - (start + 1 : Nat)).toNat = 0 by omega, List.drop_zero, List.drop_zero]
      · rw [if_neg (by simpa [hoffset] using hle),
          show (c - start).toNat = (c - (start + 1 : Nat)).toNat + 1 by omega,
          List.drop_succ_cons]

/-- From an offset on, the records are those behind as many as come before it. -/
theorem filter_unpruned (j : Journal) (topic : String) (c : Int) :
    (j.unpruned topic).filter (c ≤ ·.record.offset) = (j.unpruned topic).drop c.toNat := by
  have h := filter_entries (j.messages topic) 0 c
  rwa [Int.natCast_zero, Int.sub_zero] at h

theorem length_unpruned (j : Journal) (topic : String) :
    (j.unpruned topic).length = (j.messages topic).length := by
  simp [unpruned]

theorem offset_unpruned {i : Nat} (h : i < (j.unpruned topic).length) :
    ((j.unpruned topic)[i]).record.offset = i := by
  simp [unpruned, Message.entry]

theorem pairwise_unpruned (j : Journal) (topic : String) :
    (j.unpruned topic).Pairwise (·.record.offset < ·.record.offset) := by
  rw [List.pairwise_iff_getElem]
  intro i k hi hk hlt
  rw [offset_unpruned, offset_unpruned]
  exact Int.ofNat_lt.mpr hlt

theorem offset_of_mem_unpruned {e : LogEntry} (h : e ∈ j.unpruned topic) :
    0 ≤ e.record.offset ∧ e.record.offset < (j.messages topic).length := by
  obtain ⟨i, hi, rfl⟩ := List.mem_iff_getElem.mp h
  rw [offset_unpruned]
  rw [length_unpruned] at hi
  exact ⟨Int.natCast_nonneg i, Int.ofNat_lt.mpr hi⟩

/-- An offset stands for one message. -/
theorem eq_of_mem_unpruned {e e' : LogEntry} (he : e ∈ j.unpruned topic)
    (he' : e' ∈ j.unpruned topic) (h : e.record.offset = e'.record.offset) : e = e' := by
  obtain ⟨i, hi, rfl⟩ := List.mem_iff_getElem.mp he
  obtain ⟨k, hk, rfl⟩ := List.mem_iff_getElem.mp he'
  rw [offset_unpruned, offset_unpruned] at h
  obtain rfl := Int.ofNat_inj.mp h
  rfl

/-! ## One act -/

section Taken

variable (j : Journal) (m : Message)

/-- A journal in which one more message was taken. -/
def take : Journal :=
  { j with
    bus := j.bus.append m.topic m.key m.payload m.takenAt
    taken := j.taken ++ [m] }

theorem messages_take_self : (j.take m).messages m.topic = j.messages m.topic ++ [m] := by
  simp [messages, take]

theorem messages_take_of_ne (h : topic ≠ m.topic) :
    (j.take m).messages topic = j.messages topic := by
  simp [messages, take, h.symm]

theorem unpruned_take_self :
    (j.take m).unpruned m.topic =
      j.unpruned m.topic ++ [m.entry (j.messages m.topic).length] := by
  simp [unpruned, messages_take_self, List.zipIdx_append]

theorem unpruned_take_of_ne (h : topic ≠ m.topic) :
    (j.take m).unpruned topic = j.unpruned topic := by
  rw [unpruned, messages_take_of_ne j m h, unpruned]

theorem unpruned_prefix_take (topic : String) : j.unpruned topic <+: (j.take m).unpruned topic := by
  by_cases h : topic = m.topic
  · rw [h, unpruned_take_self]
    exact List.prefix_append _ _
  · exact ⟨[], by rw [List.append_nil, unpruned_take_of_ne j m h]⟩

end Taken

/-- A message is taken or refused. -/
theorem perform_publish (j : Journal) (topic : String) (key : Option String) (payload : Bytes)
    (now : Instant) :
    j.perform (.publish topic key payload now) = j.take ⟨topic, key, payload, now⟩ ∨
      ∃ refusals, j.perform (.publish topic key payload now) =
        { j with bus := { j.bus with refusals } } := by
  unfold perform Bus.publish
  dsimp only
  cases hleft : (j.bus.refusals.lookup topic).getD 0 with
  | zero => exact Or.inl rfl
  | succ left => exact Or.inr ⟨_, rfl⟩

theorem unpruned_prefix_perform (j : Journal) (act : Act) (topic : String) :
    j.unpruned topic <+: (j.perform act).unpruned topic := by
  cases act with
  | publish name key payload now =>
      rcases j.perform_publish name key payload now with h | ⟨refusals, h⟩
      · rw [h]
        exact j.unpruned_prefix_take _ topic
      · rw [h]
        exact List.prefix_refl _
  | refuseNext | poll | commit | prune => exact List.prefix_refl _

theorem cursor_le_perform (j : Journal) (act : Act) (s : Subscription) :
    j.bus.cursor s ≤ (j.perform act).bus.cursor s := by
  cases act with
  | publish topic key payload now =>
      rcases j.perform_publish topic key payload now with h | ⟨refusals, h⟩
      · rw [h]
        exact Int.le_refl _
      · rw [h]
        exact Int.le_refl _
  | refuseNext | poll => exact Int.le_refl _
  | commit other r =>
      rw [perform]
      by_cases hs : s = other
      · rw [hs, Bus.cursor_commit_self]
        exact Int.le_max_left _ _
      · exact Int.le_of_eq (Bus.cursor_commit_of_ne hs j.bus r.offset).symm
  | prune topic cutoff =>
      exact Int.le_of_eq (by rw [perform, Bus.cursor, Bus.cursor, Bus.cursors_prune])

/-! ## What stays true of the bus -/

/-- What a journal says of its bus. Nothing is missing from a topic that was never pruned. -/
structure Sound (j : Journal) : Prop where
  head_eq : ∀ topic, (j.bus.log topic).head = (j.messages topic).length
  entries_sublist : ∀ topic, (j.bus.log topic).entries.Sublist (j.unpruned topic)
  entries_eq : ∀ topic, topic ∉ j.pruned → (j.bus.log topic).entries = j.unpruned topic
  shown_lt : ∀ topic r, (topic, r) ∈ j.shown → r.offset < (j.bus.log topic).head
  cursor_nonneg : ∀ s, 0 ≤ j.bus.cursor s
  cursor_le : ∀ s, j.bus.cursor s ≤ (j.bus.log s.topic).head
  cursor_mem : ∀ s ∈ j.committed, (s, j.bus.cursor s) ∈ j.bus.cursors

theorem sound_empty : Sound {} where
  head_eq _ := rfl
  entries_sublist _ := .refl _
  entries_eq _ _ := rfl
  shown_lt _ _ h := absurd h List.not_mem_nil
  cursor_nonneg _ := Int.le_refl 0
  cursor_le _ := Int.le_refl 0
  cursor_mem _ h := absurd h List.not_mem_nil

namespace Sound

theorem head_le_take (m : Message) (topic : String) :
    (j.bus.log topic).head ≤ ((j.take m).bus.log topic).head := by
  by_cases hname : topic = m.topic
  · rw [hname, take, Bus.head_append_self]
    omega
  · exact Int.le_of_eq (by rw [take, Bus.log_append_of_ne _ _ _ _ _ hname])

/-- The record that is appended is the next one of the log without pruning. -/
theorem entry_take (h : j.Sound) (m : Message) :
    ((j.take m).bus.log m.topic).entries =
      (j.bus.log m.topic).entries ++ [m.entry (j.messages m.topic).length] := by
  rw [take, Bus.log_append_self, h.head_eq, Message.entry]

theorem take (h : j.Sound) (m : Message) : (j.take m).Sound where
  head_eq topic := by
    by_cases hname : topic = m.topic
    · rw [hname, messages_take_self, Journal.take, Bus.head_append_self, h.head_eq,
        List.length_append]
      rfl
    · rw [messages_take_of_ne j m hname, Journal.take, Bus.log_append_of_ne _ _ _ _ _ hname,
        h.head_eq]
  entries_sublist topic := by
    by_cases hname : topic = m.topic
    · rw [hname, h.entry_take, unpruned_take_self]
      exact (h.entries_sublist m.topic).append_right _
    · rw [unpruned_take_of_ne j m hname, Journal.take, Bus.log_append_of_ne _ _ _ _ _ hname]
      exact h.entries_sublist topic
  entries_eq topic hpruned := by
    by_cases hname : topic = m.topic
    · rw [hname, h.entry_take, unpruned_take_self, h.entries_eq m.topic (hname ▸ hpruned)]
    · rw [unpruned_take_of_ne j m hname, Journal.take, Bus.log_append_of_ne _ _ _ _ _ hname]
      exact h.entries_eq topic hpruned
  shown_lt topic r hr := Int.lt_of_lt_of_le (h.shown_lt topic r hr) (head_le_take m topic)
  cursor_nonneg := h.cursor_nonneg
  cursor_le s := Int.le_trans (h.cursor_le s) (head_le_take m s.topic)
  cursor_mem := h.cursor_mem

/-- What a poll shows is below the head of the topic. -/
theorem poll (h : j.Sound) (s : Subscription) (max : Nat) : (j.perform (.poll s max)).Sound where
  head_eq := h.head_eq
  entries_sublist := h.entries_sublist
  entries_eq := h.entries_eq
  shown_lt topic r hr := by
    rcases List.mem_append.mp hr with hr | hr
    · exact h.shown_lt topic r hr
    · obtain ⟨r', hpolled, heq⟩ := List.mem_map.mp hr
      obtain ⟨rfl, rfl⟩ := Prod.mk.inj heq
      obtain ⟨e, he, rfl⟩ := List.mem_map.mp (List.mem_filter.mp (List.mem_of_mem_take hpolled)).1
      have hmem := (h.entries_sublist s.topic).subset he
      exact h.head_eq s.topic ▸ (offset_of_mem_unpruned hmem).2
  cursor_nonneg := h.cursor_nonneg
  cursor_le := h.cursor_le
  cursor_mem := h.cursor_mem

theorem commit (h : j.Sound) {r : Record} (hr : (s.topic, r) ∈ j.shown) :
    (j.perform (.commit s r)).Sound where
  head_eq := h.head_eq
  entries_sublist := h.entries_sublist
  entries_eq := h.entries_eq
  shown_lt := h.shown_lt
  cursor_nonneg other := Int.le_trans (h.cursor_nonneg other) (cursor_le_perform j _ other)
  cursor_le other := by
    by_cases hs : other = s
    · subst hs
      have hlt := h.shown_lt other.topic r hr
      have hle := h.cursor_le other
      simp only [perform, Bus.cursor_commit_self, Bus.behind]
      change _ ≤ (j.bus.log other.topic).head
      omega
    · rw [perform, Bus.cursor_commit_of_ne hs]
      exact h.cursor_le other
  cursor_mem other hother := by
    by_cases hs : other = s
    · subst hs
      rw [perform, Bus.cursor_commit_self]
      exact Bus.mem_cursors_of_lookup (Bus.lookup_set_self _ _ _)
    · have hmem := h.cursor_mem other ((List.mem_cons.mp hother).resolve_left hs)
      rw [perform, Bus.cursor_commit_of_ne hs]
      exact Bus.mem_set_of_ne hs hmem

theorem prune (h : j.Sound) (topic : String) (cutoff : Instant) :
    (j.perform (.prune topic cutoff)).Sound where
  head_eq other := (Bus.head_prune j.bus topic other).trans (h.head_eq other)
  entries_sublist other :=
    (Bus.entries_prune_sublist j.bus topic other).trans (h.entries_sublist other)
  entries_eq other hother := by
    obtain ⟨hne, hpruned⟩ := not_or.mp (mt List.mem_cons.mpr hother)
    rw [perform, Bus.log_prune_of_ne hne]
    exact h.entries_eq other hpruned
  shown_lt other r hr := by
    rw [perform, Bus.head_prune]
    exact h.shown_lt other r hr
  cursor_nonneg := by
    intro s
    rw [perform, Bus.cursor, Bus.cursors_prune]
    exact h.cursor_nonneg s
  cursor_le := by
    intro s
    rw [perform, Bus.cursor, Bus.cursors_prune, Bus.head_prune]
    exact h.cursor_le s
  cursor_mem := by
    intro s hs
    rw [perform, Bus.cursor, Bus.cursors_prune]
    exact h.cursor_mem s hs

theorem perform (h : j.Sound) (hact : j.Permits act) : (j.perform act).Sound := by
  cases act with
  | publish topic key payload now =>
      rcases j.perform_publish topic key payload now with heq | ⟨refusals, heq⟩
      · exact heq ▸ h.take _
      · -- what the bus refuses is not looked at
        exact heq ▸ { h with }
  | refuseNext topic count => exact { h with }
  | poll s max => exact h.poll s max
  | commit s r => exact h.commit hact
  | prune topic cutoff => exact h.prune topic cutoff

end Sound

/-- The group has committed, and of what the topic took all is kept from the cursor of the group
on. -/
structure Retains (j : Journal) (s : Subscription) : Prop where
  committed : s ∈ j.committed
  kept : ∀ e ∈ j.unpruned s.topic, j.bus.cursor s ≤ e.record.offset →
    e ∈ (j.bus.log s.topic).entries

namespace Retains

/-- A group that commits before its topic is first pruned. -/
theorem of_unpruned (h : j.Sound) (hs : s ∈ j.committed) (hpruned : s.topic ∉ j.pruned) :
    j.Retains s :=
  ⟨hs, fun _ he _ => h.entries_eq s.topic hpruned ▸ he⟩

theorem take (h : j.Sound) (hr : j.Retains s) (m : Message) : (j.take m).Retains s where
  committed := hr.committed
  kept e he hcursor := by
    by_cases hname : s.topic = m.topic
    · rw [hname, h.entry_take]
      rw [hname, unpruned_take_self] at he
      refine List.mem_append.mpr ((List.mem_append.mp he).imp_left fun he => ?_)
      exact hname ▸ hr.kept e (hname ▸ he) hcursor
    · rw [Journal.take, Bus.log_append_of_ne _ _ _ _ _ hname]
      rw [unpruned_take_of_ne j m hname] at he
      exact hr.kept e he hcursor

/-- What is pruned is below all cursors. -/
theorem prune (h : j.Sound) (hr : j.Retains s) (topic : String) (cutoff : Instant) :
    (j.perform (.prune topic cutoff)).Retains s where
  committed := hr.committed
  kept e he hcursor := by
    rw [perform, Bus.cursor, Bus.cursors_prune] at hcursor
    have hkept := hr.kept e he hcursor
    by_cases hname : s.topic = topic
    · subst hname
      have hlow := Bus.lowWater_le_of_mem (h.cursor_mem s hr.committed)
      rw [perform, Bus.log_prune_self]
      exact List.mem_filter.mpr ⟨hkept, by simpa using Or.inl (Int.le_trans hlow hcursor)⟩
    · rw [perform, Bus.log_prune_of_ne hname]
      exact hkept

theorem perform (h : j.Sound) (hr : j.Retains s) (act : Act) : (j.perform act).Retains s := by
  cases act with
  | publish topic key payload now =>
      rcases j.perform_publish topic key payload now with heq | ⟨refusals, heq⟩
      · exact heq ▸ hr.take h _
      · exact heq ▸ { hr with }
  | refuseNext topic count => exact { hr with }
  | poll other max => exact { hr with }
  | commit other r =>
      refine ⟨List.mem_cons_of_mem _ hr.committed, fun e he hcursor => ?_⟩
      exact hr.kept e he (Int.le_trans (cursor_le_perform j (.commit other r) s) hcursor)
  | prune topic cutoff => exact hr.prune h topic cutoff

/-- From its cursor on the group misses nothing that the topic took. -/
theorem filter_entries (h : j.Sound) (hr : j.Retains s) :
    (j.bus.log s.topic).entries.filter (j.bus.cursor s ≤ ·.record.offset) =
      (j.unpruned s.topic).drop (j.bus.cursor s).toNat := by
  rw [← filter_unpruned]
  refine ((h.entries_sublist s.topic).filter _).eq_of_length_le (List.Subperm.length_le ?_)
  have hnodup : (j.unpruned s.topic).Nodup := by
    refine (j.pairwise_unpruned s.topic).imp fun hlt => ?_
    rintro rfl
    exact Int.lt_irrefl _ hlt
  refine (hnodup.filter _).subperm fun e he => ?_
  obtain ⟨he, hcursor⟩ := List.mem_filter.mp he
  exact List.mem_filter.mpr ⟨hr.kept e he (of_decide_eq_true hcursor), hcursor⟩

theorem poll_eq (h : j.Sound) (hr : j.Retains s) (max : Nat) :
    j.bus.poll s max =
      (((j.unpruned s.topic).drop (j.bus.cursor s).toNat).take max).map LogEntry.record := by
  rw [Bus.poll, List.filter_map, ← hr.filter_entries h, List.map_take]
  rfl

end Retains

/-! ## A whole sequence -/

theorem Sound.after (h : j.Sound) (hpermits : j.PermitsAll acts) : (j.after acts).Sound := by
  induction acts generalizing j with
  | nil => exact h
  | cons act acts ih => exact ih (h.perform hpermits.1) hpermits.2

theorem Retains.after (h : j.Sound) (hr : j.Retains s) (hpermits : j.PermitsAll acts) :
    (j.after acts).Retains s := by
  induction acts generalizing j with
  | nil => exact hr
  | cons act acts ih => exact ih (h.perform hpermits.1) (hr.perform h act) hpermits.2

theorem cursor_le_after (j : Journal) (acts : List Act) (s : Subscription) :
    j.bus.cursor s ≤ (j.after acts).bus.cursor s := by
  induction acts generalizing j with
  | nil => exact Int.le_refl _
  | cons act acts ih => exact Int.le_trans (j.cursor_le_perform act s) (ih (j.perform act))

theorem unpruned_prefix_after (j : Journal) (acts : List Act) (topic : String) :
    j.unpruned topic <+: (j.after acts).unpruned topic := by
  induction acts generalizing j with
  | nil => exact List.prefix_refl _
  | cons act acts ih => exact (j.unpruned_prefix_perform act topic).trans (ih (j.perform act))

/-- The bus loses, doubles and disorders nothing. A topic holds records of messages that it took,
in their order and at offsets below its head, which counts them; an offset once given stands for
the same record ever after. Cursors do not go back and do not pass the head. A group that committed
before its topic was first pruned finds all messages that the topic took from its cursor on, and
polls as many of the first of them as it asks for, or as there are. -/
theorem after_faithful (acts later : List Act) (hpermits : PermitsAll {} (acts ++ later)) :
    let before := after {} acts
    let j := after {} (acts ++ later)
    (∀ topic,
      (j.bus.log topic).entries.Pairwise (·.record.offset < ·.record.offset) ∧
      (j.bus.log topic).entries.Sublist (j.unpruned topic) ∧
      (j.bus.log topic).head = (j.messages topic).length ∧
      (∀ e ∈ (j.bus.log topic).entries,
        0 ≤ e.record.offset ∧ e.record.offset < (j.bus.log topic).head) ∧
      ∀ e ∈ (before.bus.log topic).entries, ∀ e' ∈ (j.bus.log topic).entries,
        e.record.offset = e'.record.offset → e = e') ∧
    (∀ s, before.bus.cursor s ≤ j.bus.cursor s ∧
      j.bus.cursor s ≤ (j.bus.log s.topic).head) ∧
    ∀ s ∈ before.committed, s.topic ∉ before.pruned →
      (j.bus.log s.topic).entries.filter (j.bus.cursor s ≤ ·.record.offset) =
          (j.unpruned s.topic).drop (j.bus.cursor s).toNat ∧
      ∀ max, j.bus.poll s max =
          (((j.unpruned s.topic).drop (j.bus.cursor s).toNat).take max).map LogEntry.record ∧
        (j.bus.poll s max).length =
          min max ((j.bus.log s.topic).head - j.bus.cursor s).toNat := by
  intro before j
  obtain ⟨hacts, hlater⟩ := permitsAll_append.mp hpermits
  have hj : j = before.after later := after_append {} acts later
  have hbefore : before.Sound := sound_empty.after hacts
  have hsound : j.Sound := hj ▸ hbefore.after hlater
  refine ⟨fun topic => ?_, fun s => ?_, fun s hs hpruned => ?_⟩
  · have hsublist := hsound.entries_sublist topic
    refine ⟨(j.pairwise_unpruned topic).sublist hsublist, hsublist, hsound.head_eq topic,
      fun e he => ?_, fun e he e' he' heq => ?_⟩
    · exact hsound.head_eq topic ▸ offset_of_mem_unpruned (hsublist.subset he)
    · have hprefix := hj ▸ before.unpruned_prefix_after later topic
      have hmem := hprefix.subset ((hbefore.entries_sublist topic).subset he)
      exact eq_of_mem_unpruned hmem (hsublist.subset he') heq
  · exact ⟨hj ▸ before.cursor_le_after later s, hsound.cursor_le s⟩
  · have hretains : j.Retains s :=
      hj ▸ (Retains.of_unpruned hbefore hs hpruned).after hbefore hlater
    refine ⟨hretains.filter_entries hsound, fun max => ⟨hretains.poll_eq hsound max, ?_⟩⟩
    have hcursor := hsound.cursor_nonneg s
    rw [hretains.poll_eq hsound, List.length_map, List.length_take, List.length_drop,
      length_unpruned, hsound.head_eq]
    omega

private def reader : Subscription := ⟨"readers", "news"⟩

/-- Three messages, the first stamped by a clock that was then put back, and a group that is done
with two of them. -/
private def reading : List Act :=
  [.publish "news" none [1] .last, .publish "news" (some "key") [2] .epoch,
    .refuseNext "news" 1, .publish "news" none [9] .epoch, .publish "news" none [3] .epoch,
    .poll reader 2, .commit reader ⟨"news", 0, 1, some "key", [2]⟩]

/-- A pruning that drops the second message only, and a group that comes after it. -/
private def clearing : List Act :=
  [.prune "news" .last, .poll ⟨"others", "news"⟩ 1,
    .commit ⟨"others", "news"⟩ ⟨"news", 0, 0, none, [1]⟩]

theorem after_faithful_hole :
    PermitsAll {} (reading ++ clearing) ∧
      ((after {} (reading ++ clearing)).bus.log "news").entries.map (·.record.offset) = [0, 2] ∧
      (after {} (reading ++ clearing)).bus.poll reader 5 = [⟨"news", 0, 2, none, [3]⟩] := by
  have hpermits : PermitsAll {} (reading ++ clearing) := by decide +kernel
  obtain ⟨-, -, hearly⟩ := after_faithful reading clearing hpermits
  obtain ⟨-, hpolls⟩ := hearly reader (by decide +kernel) (by decide +kernel)
  refine ⟨hpermits, by decide +kernel, (hpolls 5).1.trans ?_⟩
  decide +kernel

end Journal
end Courier
