import Courier.Proofs.Draining.Surroundings
import Courier.Proofs.Runs.Soundness

/-!
How much work is left. A record still to be passed costs more than what handling it can add, an
event still to be published costs more than the record that it becomes, and a row costs as much as
the attempts it has left. Refusals still to come are work too. So whatever a pipeline does lowers
the sum, and no cycle can go on forever.
-/

namespace Courier

/-! ## Costs -/

/-- What it costs to pass a record: one step for a dead letter, which is only noted. -/
def recordCost (topic : String) : Nat := if topic = Topic.deadLetter.name then 1 else 3

/-- A pending event costs one step more than the record that is published for it. -/
def OutboxEvent.cost (e : OutboxEvent) : Nat :=
  if e.status = .pending then recordCost e.topic + 1 else 0

/-- A row costs two steps for each failure that it can still have without being given up. -/
def Backoff.cost (b : Backoff) (n : Notification) : Nat :=
  2 * ((b.policyFor n.medium).maxAttempts.toNat - n.retryCount.toNat)

namespace Bus

/-- The records of a topic that its group has not committed. -/
def unread (b : Bus) (topic : Topic) : List Record :=
  (b.records topic.name).filter (b.cursor topic.subscription ≤ ·.offset)

def unreadCost (b : Bus) (topic : Topic) : Nat := recordCost topic.name * (b.unread topic).length

def cost (b : Bus) : Nat :=
  b.unreadCost .send + b.unreadCost .retry + b.unreadCost .deadLetter +
    (b.refusals.map Prod.snd).sum

end Bus

/-- The work in rows and events, by a policy of trying again. -/
def Store.cost (store : Store) (backoff : Backoff) : Nat :=
  (store.notifications.map backoff.cost).sum + (store.outbox.map OutboxEvent.cost).sum

/-- How much work a pipeline can still find in a world. -/
def Pipeline.workLeft (p : Pipeline) (w : World) : Nat := w.store.cost p.backoff + w.bus.cost

theorem recordCost_pos (topic : String) : 0 < recordCost topic := by
  unfold recordCost
  split <;> decide

/-! ## Rows and events -/

namespace Store

variable {rows : List Notification} {n x : Notification} {events events' : List OutboxEvent}

/-- A sum over the rows changes by what the row that is replaced contributes. -/
theorem sum_putInto (f : Notification → Nat) (hnodup : (rows.map (·.id)).Nodup) (hx : x ∈ rows)
    (hid : n.id = x.id) :
    ((putInto n rows).map f).sum + f x = (rows.map f).sum + f n := by
  obtain ⟨others, hbefore, hafter⟩ := exists_perm_putInto hnodup hx hid
  rw [(hbefore.map f).sum_eq, (hafter.map f).sum_eq, List.map_cons, List.map_cons, List.sum_cons,
    List.sum_cons]
  omega

/-- A sum over the events changes by what the event that is changed contributes. -/
theorem sum_changeEvent (f : OutboxEvent → Nat) {change : OutboxEvent → OutboxEvent}
    {e : OutboxEvent} (hnodup : (events.map (·.id)).Nodup) (he : e ∈ events)
    (h : changeEvent e.id change events = some events') :
    (events'.map f).sum + f e = (events.map f).sum + f (change e) := by
  induction events generalizing events' with
  | nil => exact absurd he List.not_mem_nil
  | cons e₁ events ih =>
      have hsame : e₁.id = e.id → e₁ = e :=
        List.inj_on_of_nodup_map hnodup List.mem_cons_self he
      rw [changeEvent] at h
      split at h
      · next hid =>
        obtain rfl := Option.some.inj h
        obtain rfl := hsame hid
        simp only [List.map_cons, List.sum_cons]
        omega
      · next hid =>
        obtain ⟨rest, hrest, rfl⟩ := Option.map_eq_some_iff.mp h
        have hmem := (List.mem_cons.mp he).resolve_left fun heq => hid (heq ▸ rfl)
        have hsum := ih (List.nodup_cons.mp hnodup).2 hmem hrest
        simp only [List.map_cons, List.sum_cons]
        omega

end Store

/-- An attempt that is repeated counts one failure more, and has one less left. -/
theorem Backoff.cost_of_retry {b : Backoff} {n m : Notification} {now next : Instant}
    {jitter : Duration} (hmedium : m.medium = n.medium)
    (hcount : m.retryCount = countUp n.retryCount)
    (h : b.decide n.medium (countUp n.retryCount) now jitter = .ok (.retry next)) :
    b.cost m + 2 = b.cost n := by
  have hlt : (countUp n.retryCount).toNat < (b.policyFor n.medium).maxAttempts.toNat := by
    unfold decide at h
    by_cases hmax : (b.policyFor n.medium).maxAttempts ≤ countUp n.retryCount
    · rw [if_pos hmax] at h
      cases Except.ok.inj h
    · rwa [UInt32.not_le, UInt32.lt_iff_toNat_lt] at hmax
  have hbound := (b.policyFor n.medium).maxAttempts.toNat_lt
  have hnext := toNat_countUp n.retryCount
  unfold cost
  rw [hmedium, hcount]
  omega

/-- Counting failures adds no work. -/
theorem Backoff.cost_le {b : Backoff} {n m : Notification} (hmedium : m.medium = n.medium)
    (hcount : n.retryCount ≤ m.retryCount) : b.cost m ≤ b.cost n := by
  have hle := UInt32.le_iff_toNat_le.mp hcount
  unfold cost
  rw [hmedium]
  omega

/-! ## The bus -/

namespace Bus

variable {b : Bus} {topic : Topic} {name : String} {key : Option String} {payload : Bytes}
  {now : Instant}

theorem sum_set {refusals : List (String × Nat)} {left : Nat}
    (h : refusals.lookup name = some (left + 1)) :
    ((set name left refusals).map Prod.snd).sum + 1 = (refusals.map Prod.snd).sum := by
  induction refusals with
  | nil => cases h
  | cons entry refusals ih =>
      obtain ⟨other, count⟩ := entry
      rw [set]
      split
      · next heq =>
        subst heq
        simp only [List.lookup_cons, beq_self_eq_true, Option.some.injEq] at h
        simp only [List.map_cons, List.sum_cons]
        omega
      · next hne =>
        have hkey : (name == other) = false := by simpa using Ne.symm hne
        simp only [List.lookup_cons, hkey] at h
        have hsum := ih h
        simp only [List.map_cons, List.sum_cons]
        omega

/-- A record that is appended is unread only on its own topic. -/
theorem unread_append (b : Bus) (topic : Topic) (name : String) (key : Option String)
    (payload : Bytes) (now : Instant) :
    (b.append name key payload now).unread topic =
      b.unread topic ++ if topic.name = name then
        [⟨name, 0, (b.log name).head, key, payload⟩].filter (b.cursor topic.subscription ≤ ·.offset)
      else [] := by
  have hcursor : (b.append name key payload now).cursor = b.cursor := rfl
  unfold unread
  rw [hcursor]
  split
  · next heq =>
    subst heq
    rw [records_append_self, List.filter_append]
  · next hne => simp only [records, log_append_of_ne _ _ _ _ _ hne, List.append_nil]

theorem unread_append_le (b : Bus) (topic : Topic) (name : String) (key : Option String)
    (payload : Bytes) (now : Instant) :
    ((b.append name key payload now).unread topic).length ≤
      (b.unread topic).length + if topic.name = name then 1 else 0 := by
  rw [unread_append, List.length_append]
  split
  · exact Nat.add_le_add_left (List.length_filter_le _ _) _
  · exact Nat.le_refl _

/-- One more record costs what it costs to pass it. -/
theorem cost_append_le (b : Bus) (name : String) (key : Option String) (payload : Bytes)
    (now : Instant) : (b.append name key payload now).cost ≤ b.cost + recordCost name := by
  have hsend := b.unread_append_le .send name key payload now
  have hretry := b.unread_append_le .retry name key payload now
  have hdead := b.unread_append_le .deadLetter name key payload now
  have hrefusals : (b.append name key payload now).refusals = b.refusals := rfl
  simp only [cost, unreadCost, hrefusals]
  by_cases hname : ∃ topic : Topic, topic.name = name
  · obtain ⟨topic, rfl⟩ := hname
    cases topic <;> simp [Topic.name, recordCost] at hsend hretry hdead ⊢ <;> omega
  · have hne (topic : Topic) : topic.name ≠ name := fun heq => hname ⟨topic, heq⟩
    simp only [hne, if_false, Nat.add_zero] at hsend hretry hdead
    have hmono (topic : Topic) {length length' : Nat} (h : length' ≤ length) :
        recordCost topic.name * length' ≤ recordCost topic.name * length :=
      Nat.mul_le_mul_left _ h
    have h₁ := hmono .send hsend
    have h₂ := hmono .retry hretry
    have h₃ := hmono .deadLetter hdead
    omega

/-- Publishing either uses up a refusal or appends a record. -/
theorem publish_cost (b : Bus) (name : String) (key : Option String) (payload : Bytes)
    (now : Instant) :
    (∃ message, (b.publish name key payload now).1 = .error message) ∧
        (b.publish name key payload now).2.cost + 1 = b.cost ∧
        (∀ other, (b.publish name key payload now).2.log other = b.log other) ∨
      (b.publish name key payload now) = (.ok (), b.append name key payload now) := by
  unfold publish
  split
  · next left hleft =>
    have hlookup : b.refusals.lookup name = some (left + 1) := by
      cases hcount : b.refusals.lookup name with
      | none =>
          rw [hcount] at hleft
          cases hleft
      | some count =>
          rw [hcount, Option.getD_some] at hleft
          rw [hleft]
    have hsum := sum_set hlookup
    have hunread (topic : Topic) :
        unreadCost { b with refusals := set name left b.refusals } topic = b.unreadCost topic := rfl
    refine Or.inl ⟨⟨_, rfl⟩, ?_, fun _ => rfl⟩
    simp only [cost, hunread]
    omega
  · exact Or.inr rfl

theorem head_append_le (b : Bus) (name other : String) (key : Option String) (payload : Bytes)
    (now : Instant) :
    ((b.append name key payload now).log other).head ≤ (b.log other).head + 1 := by
  by_cases hname : other = name
  · subst hname
    exact (head_append_self b other key payload now).le
  · rw [log_append_of_ne _ _ _ _ _ hname]
    omega

theorem unread_commit_self (b : Bus) (topic : Topic) (offset : Int) :
    (b.commit topic.subscription offset).unread topic =
      (b.unread topic).filter (behind offset ≤ ·.offset) := by
  have hrecords : (b.commit topic.subscription offset).records topic.name =
      b.records topic.name := rfl
  unfold unread
  rw [hrecords, cursor_commit_self, List.filter_filter]
  refine List.filter_congr fun r _ => ?_
  rw [← Bool.decide_and, decide_eq_decide, max_le_iff, and_comm]

/-- Committing the first unread record of a topic leaves the others unread. -/
theorem unread_commit {r : Record} {rest : List Record} (hunread : b.unread topic = r :: rest)
    (hordered : (b.unread topic).Pairwise (·.offset < ·.offset))
    (hlast : r.offset < 0x7fff_ffff_ffff_ffff) :
    (b.commit topic.subscription r.offset).unread topic = rest := by
  have hbehind : behind r.offset = r.offset + 1 := by
    unfold behind
    omega
  rw [unread_commit_self, hbehind, hunread, List.filter_cons_of_neg (by simp)]
  rw [hunread, List.pairwise_cons] at hordered
  exact List.filter_eq_self.mpr fun r' hr' => decide_eq_true (hordered.1 r' hr')

theorem unread_commit_of_ne {other : Topic} (h : other ≠ topic) (offset : Int) :
    (b.commit topic.subscription offset).unread other = b.unread other := by
  have hsub : other.subscription ≠ topic.subscription := fun heq =>
    h (Topic.name_inj (congrArg Subscription.topic heq))
  unfold unread
  rw [cursor_commit_of_ne hsub]
  rfl

/-- Pruning drops nothing that is unread, if no group of the topic is further behind. -/
theorem unread_prune (hlow : b.lowWater topic.name ≤ b.cursor topic.subscription)
    (cutoff : Instant) : (b.prune name cutoff).2.unread topic = b.unread topic := by
  have hcursor : (b.prune name cutoff).2.cursor = b.cursor := by
    funext s
    rw [cursor, cursors_prune, cursor]
  unfold unread records
  rw [hcursor]
  by_cases htopic : topic.name = name
  · subst htopic
    rw [log_prune_self, List.filter_map, List.filter_map, List.filter_filter]
    refine congrArg (List.map LogEntry.record) (List.filter_congr fun e _ => ?_)
    rw [Function.comp_apply, Bool.and_eq_left_iff_imp]
    intro hunread
    exact Bool.or_eq_true_iff.mpr (Or.inl (decide_eq_true (hlow.trans (of_decide_eq_true hunread))))
  · rw [log_prune_of_ne htopic]

theorem cost_commit {r : Record} {rest : List Record} (hunread : b.unread topic = r :: rest)
    (hordered : (b.unread topic).Pairwise (·.offset < ·.offset))
    (hlast : r.offset < 0x7fff_ffff_ffff_ffff) :
    (b.commit topic.subscription r.offset).cost + recordCost topic.name = b.cost := by
  have hrefusals : (b.commit topic.subscription r.offset).refusals = b.refusals := rfl
  have hown : (b.commit topic.subscription r.offset).unreadCost topic + recordCost topic.name =
      b.unreadCost topic := by
    unfold unreadCost
    rw [unread_commit hunread hordered hlast, hunread, List.length_cons, Nat.mul_succ]
  have hothers (other : Topic) (h : other ≠ topic) :
      (b.commit topic.subscription r.offset).unreadCost other = b.unreadCost other := by
    unfold unreadCost
    rw [unread_commit_of_ne h]
  unfold cost
  rw [hrefusals]
  cases topic with
  | send =>
      rw [hothers .retry (by decide), hothers .deadLetter (by decide)]
      omega
  | retry =>
      rw [hothers .send (by decide), hothers .deadLetter (by decide)]
      omega
  | deadLetter =>
      rw [hothers .send (by decide), hothers .retry (by decide)]
      omega

end Bus

/-! ## Work that is done -/

/-- So much work was done on the way from one world to another. Each step draws at most one
identifier and appends at most one record to a topic. -/
structure Pipeline.Works (p : Pipeline) (steps : Nat) (w w' : World) : Prop where
  work : p.workLeft w' + steps ≤ p.workLeft w
  serial : w'.serial ≤ w.serial + steps
  heads : ∀ topic, (w'.bus.log topic).head ≤ (w.bus.log topic).head + steps

namespace Pipeline.Works

variable {p : Pipeline} {steps more : Nat} {w w' w'' : World}

theorem refl (w : World) : p.Works 0 w w :=
  ⟨Nat.le_refl _, Nat.le_refl _, fun _ => by simp⟩

theorem trans (h : p.Works steps w w') (h' : p.Works more w' w'') :
    p.Works (steps + more) w w'' where
  work := by
    have hfirst := h.work
    have hsecond := h'.work
    omega
  serial := by
    have hfirst := h.serial
    have hsecond := h'.serial
    omega
  heads := by
    intro topic
    have hfirst := h.heads topic
    have hsecond := h'.heads topic
    push_cast
    omega

end Pipeline.Works
end Courier
