import Courier.Proofs.Store.Calls
import Courier.Publication

/-!
Promises of the store. A program may share the store with others, who make any calls between its
own; what is known of rows and promises lasts through them. So whoever publishes what is due finds
every notification that is promised.
-/

namespace Courier

/-! ## Programs amid others -/

namespace World

variable {w w' : World}

/-- All that a call of a program does to the store is what some call to the store does. -/
theorem store_of_answer {c : Call} {a : c.Answer} (h : w.answer c = (.done a, w')) :
    ∃ calls, w'.store = w.store.after calls := by
  have hsame (h : w'.store = w.store) : ∃ calls, w'.store = w.store.after calls := ⟨[], h⟩
  have hone (call : StoreCall) (h : w'.store = (w.store.perform call).2) :
      ∃ calls, w'.store = w.store.after calls := ⟨[call], h⟩
  obtain rfl := congrArg Prod.snd h
  cases c with
  | save n => exact hone (.save n) rfl
  | saveWithOutbox n topic =>
      exact hone (.saveWithOutbox n topic (w.ids.draw w.serial) w.now) rfl
  | dueEvents now limit => exact hone (.dueEvents now limit) rfl
  | markPublished id => exact hone (.markPublished id w.now) rfl
  | markFailed id error next => exact hone (.markFailed id error next w.now) rfl
  | deletePublished cutoff => exact hone (.deletePublished cutoff) rfl
  | send place n =>
      obtain ⟨channels, journal, millis, hsend⟩ := sendAndWait_eq w place n
      have hstore : (w.sendAndWait place n).2.store = w.store := by rw [hsend]
      exact hsame hstore
  | tally ledger what =>
      cases ledger with
      | pipeline | loops => exact hsame rfl
  | _ => exact hsame rfl

end World

namespace Prog

/-- A program can end so that uses a store together with others: before each of its calls they
make any calls of their own. What the rest of the world answers is left open. -/
inductive EndsAmid {α : Type} : Store → Prog α → α → Store → Prop
  | done {s a} : EndsAmid s (.done a) a s
  | asks {s w w' c next answer a s'} (calls : List StoreCall)
      (hstore : World.store w = s.after calls) (hanswer : w.answer c = (.done answer, w'))
      (h : EndsAmid w'.store (next answer) a s') : EndsAmid s (.ask c next) a s'

variable {α β : Type} {s s' : Store} {p : Prog α} {a : α}

/-- A program that runs alone is one whom the others leave alone. -/
theorem endsAmid_of_run {w w' : World} (h : p.run w = (.done a, w')) :
    p.EndsAmid w.store a w'.store := by
  induction p generalizing w with
  | done b =>
      obtain ⟨hdone, rfl⟩ := Prod.mk.inj h
      exact Outcome.done.inj hdone ▸ .done
  | crash text => exact nomatch (Prod.mk.inj h).1
  | ask c next ih =>
      rw [run] at h
      rcases hanswer : w.answer c with ⟨answer | _ | _, w₁⟩ <;> rw [hanswer] at h
      · exact .asks [] rfl hanswer (ih answer h)
      · exact nomatch (Prod.mk.inj h).1
      · exact nomatch (Prod.mk.inj h).1

namespace EndsAmid

/-- Whatever happens to the store meanwhile happens by calls. -/
theorem exists_calls (h : p.EndsAmid s a s') : ∃ calls, s' = s.after calls := by
  induction h with
  | done => exact ⟨[], rfl⟩
  | asks calls hstore hanswer _ ih =>
      obtain ⟨own, hown⟩ := World.store_of_answer hanswer
      obtain ⟨later, rfl⟩ := ih
      exact ⟨calls ++ own ++ later, by rw [hown, hstore, Store.after_append, Store.after_append]⟩

theorem holds (h : p.EndsAmid s a s') {id : Uuid} (hid : s.Holds id) : s'.Holds id := by
  obtain ⟨calls, rfl⟩ := h.exists_calls
  exact Store.holds_after hid calls

/-- A program that ends has come to the end of its first part. -/
theorem of_bind {f : α → Prog β} {b : β} (h : (p.bind f).EndsAmid s b s') :
    ∃ a s₁, p.EndsAmid s a s₁ ∧ (f a).EndsAmid s₁ b s' := by
  induction p generalizing s with
  | done a => exact ⟨a, s, .done, h⟩
  | crash text => exact nomatch h
  | ask c next ih =>
      cases h with
      | asks calls hstore hanswer hrest =>
          obtain ⟨a, s₁, hfirst, hsecond⟩ := ih _ hrest
          exact ⟨a, s₁, .asks calls hstore hanswer hfirst, hsecond⟩

end EndsAmid
end Prog

namespace Job

variable {α β : Type} {s : Store} {Q : α → Store → Prop}

/-- If the job succeeds, its value and the store are as told; if it fails, then not because a
promise is broken. -/
def Finds (s : Store) (job : Job α) (Q : α → Store → Prop) : Prop :=
  ∀ r s', job.run.EndsAmid s r s' →
    (∀ a, r = .ok a → Q a s') ∧ ∀ message, r ≠ .error (.integrity message)

theorem finds_pure {a : α} (h : Q a s) : (pure a : Job α).Finds s Q := by
  intro r s' hends
  cases hends
  exact ⟨fun _ heq => Except.ok.inj heq ▸ h, nofun⟩

theorem finds_bind {job : Job β} {f : β → Job α} {R : β → Store → Prop} (hjob : job.Finds s R)
    (hf : ∀ b s', R b s' → (f b).Finds s' Q) : (job >>= f).Finds s Q := by
  intro r s' hends
  obtain ⟨result, s₁, hfirst, hrest⟩ := Prog.EndsAmid.of_bind hends
  obtain ⟨hok, herror⟩ := hjob result s₁ hfirst
  cases result with
  | ok b => exact hf b s₁ (hok b rfl) r s' hrest
  | error error =>
      cases hrest
      refine ⟨nofun, fun message heq => herror message ?_⟩
      rw [Except.error.inj heq]

/-- What is known of rows stays known. -/
theorem finds_call {c : Call} {Q : c.Answer → Store → Prop} (h : ∀ a calls, Q a (s.after calls)) :
    (Job.call c).Finds s Q := by
  intro r s' hends
  obtain ⟨a, s₁, hcall, hdone⟩ := Prog.EndsAmid.of_bind (p := Prog.call c) hends
  obtain ⟨calls, rfl⟩ := hcall.exists_calls
  cases hdone
  exact ⟨fun _ heq => Except.ok.inj heq ▸ h a calls, nofun⟩

/-- No error of the store is a broken promise. -/
theorem finds_store {p : Prog (Except StoreError α)}
    (h : ∀ a s', p.EndsAmid s (.ok a) s' → Q a s') : (Job.store p).Finds s Q := by
  intro r s' hends
  obtain ⟨result, s₁, hp, hdone⟩ := Prog.EndsAmid.of_bind hends
  cases hdone
  cases result with
  | ok a => exact ⟨fun _ heq => Except.ok.inj heq ▸ h a s' hp, nofun⟩
  | error error => exact ⟨nofun, nofun⟩

theorem finds_outcome {job : Job β} {Q : Except DeliveryError β → Store → Prop}
    (h : ∀ r calls, Q r (s.after calls)) : job.outcome.Finds s Q := by
  intro r s' hends
  obtain ⟨result, s₁, hp, hdone⟩ := Prog.EndsAmid.of_bind hends
  obtain ⟨calls, rfl⟩ := hp.exists_calls
  cases hdone
  exact ⟨fun a heq => Except.ok.inj heq ▸ h result calls, nofun⟩

theorem finds_orCrash {r : Except Instant.Overflow α} (h : ∀ a, Q a s) :
    (Job.orCrash r).Finds s Q := by
  cases r with
  | ok a => exact finds_pure (h a)
  | error overflow =>
      intro r s' hends
      exact nomatch hends

end Job

/-! ## Publishing what is due -/

namespace Publication

variable {s : Store} (p : Publication)

/-- A promised notification is found. -/
theorem finds_findById {id : Uuid} (hid : s.Holds id) :
    (Job.store (.call (.findById id))).Finds s fun found _ => found ≠ none := by
  refine Job.finds_store fun found s' hends => ?_
  cases hends with
  | asks calls hstore hanswer hrest =>
      cases hrest
      obtain ⟨hfound, -⟩ := Prod.mk.inj hanswer
      have hfound := Except.ok.inj (Outcome.done.inj hfound)
      obtain ⟨n, hn, hnid⟩ := Store.holds_after hid calls
      rw [← hfound, hstore]
      exact fun hnone => Store.find?_none hnone n hn hnid

/-- What is due is promised. -/
theorem finds_dueEvents (hs : s.Refers) (now : Instant) (limit : Nat) :
    (Job.store (.call (.dueEvents now limit))).Finds s fun due s' =>
      ∀ e ∈ due, s'.Holds e.notificationId := by
  refine Job.finds_store fun due s' hends => ?_
  cases hends with
  | @asks _ w _ _ _ _ _ _ calls hstore hanswer hrest =>
      cases hrest
      obtain ⟨hdue, rfl⟩ := Prod.mk.inj hanswer
      have hrefers : w.store.Refers := hstore ▸ hs.after calls
      rcases Store.dueEvents_cases (Prod.ext (Outcome.done.inj hdue) rfl) with
        ⟨⟨error, herror⟩, -⟩ | ⟨found, hok, hsame, hmem, -⟩
      · exact nomatch herror
      · obtain rfl := Except.ok.inj hok
        intro e he
        have hholds := hrefers e (hmem e he).1
        rwa [← hsame] at hholds

theorem finds_publishEvent {e : OutboxEvent} (he : s.Holds e.notificationId) (now : Instant) :
    (p.publishEvent now e).Finds s fun _ _ => True := by
  refine Job.finds_bind (finds_findById he) fun found s₁ hfound => ?_
  cases found with
  | none => exact absurd rfl hfound
  | some n =>
      have houtcome : (publishNotification e.topic n).outcome.Finds s₁ fun _ _ => True :=
        Job.finds_outcome fun _ _ => trivial
      refine Job.finds_bind houtcome fun outcome s₂ _ => ?_
      cases outcome with
      | ok a =>
          have hmark : (Job.store (.call (.markPublished e.id))).Finds s₂ fun _ _ => True :=
            Job.finds_store fun _ _ _ => trivial
          exact Job.finds_bind hmark fun _ s₃ _ => Job.finds_call fun _ _ => trivial
      | error error =>
          have hnext : (Job.orCrash (now.plus p.postponement)).Finds s₂ fun _ _ => True :=
            Job.finds_orCrash fun _ => trivial
          refine Job.finds_bind hnext fun next s₃ _ => ?_
          have hfail : (Job.store (.call (.markFailed e.id error.message next))).Finds s₃
              fun _ _ => True := Job.finds_store fun _ _ _ => trivial
          exact Job.finds_bind hfail fun _ s₄ _ => Job.finds_call fun _ _ => trivial

/-- Others only add rows, so what is still to be published stays promised. -/
theorem finds_publishAll {due : List OutboxEvent} (hdue : ∀ e ∈ due, s.Holds e.notificationId)
    (now : Instant) : (due.forM (p.publishEvent now)).Finds s fun _ _ => True := by
  induction due generalizing s with
  | nil => exact Job.finds_pure trivial
  | cons e due ih =>
      rw [List.forall_mem_cons] at hdue
      have hevent : (p.publishEvent now e).Finds s fun _ s' =>
          ∀ e ∈ due, s'.Holds e.notificationId := by
        intro r s' hends
        refine ⟨fun _ _ e' he' => hends.holds (hdue.2 e' he'), ?_⟩
        exact (p.finds_publishEvent hdue.1 now r s' hends).2
      exact Job.finds_bind hevent fun _ s₁ hrest => ih hrest

theorem finds_publishDue (hs : s.Refers) (limit : Nat) :
    (p.publishDue limit).Finds s fun _ _ => True := by
  have hnow : (Job.call .now).Finds s fun _ s' => s'.Refers :=
    Job.finds_call fun _ calls => hs.after calls
  refine Job.finds_bind hnow fun now s₁ hs₁ => ?_
  refine Job.finds_bind (finds_dueEvents hs₁ now limit) fun due s₂ hdue => ?_
  exact Job.finds_bind (p.finds_publishAll hdue now) fun _ s₃ _ => Job.finds_pure trivial

end Publication

/-! ## The store as its callers see it -/

/-- Whatever calls a store has had that started empty, its tables agree. Between two moments an
event only moves on: what is published stays published, no attempt is forgotten, and an event goes
only where it is deleted after it was published. A call that fails changes neither table. So whoever
publishes what is due never finds a promise broken, alone or while others use the store. -/
theorem Store.after_coherent (before later : List StoreCall)
    (hfresh : (StoreCall.drawn (before ++ later)).Nodup) :
    let earlier := ({} : Store).after before
    let s := earlier.after later
    s.Coherent ∧
      (∀ e ∈ earlier.outbox, ∀ e' ∈ s.outbox, e'.id = e.id → e.Follows e') ∧
      (∀ e ∈ earlier.outbox, (∃ e' ∈ s.outbox, e'.id = e.id) ∨ earlier.Deletes later e) ∧
      (∀ call error, (s.perform call).1 = .error error →
        (s.perform call).2.notifications = s.notifications ∧
          (s.perform call).2.outbox = s.outbox) ∧
      (∀ (p : Publication) limit r s', (p.publishDue limit).run.EndsAmid s r s' →
        ∀ message, r ≠ .error (.integrity message)) ∧
      ∀ (p : Publication) limit w, w.store = s →
        ∀ message, ((p.publishDue limit).run.run w).1 ≠ .done (.error (.integrity message)) := by
  intro earlier s
  have hall : ({} : Store).Fresh (before ++ later) := hfresh
  have hcoherent : s.Coherent := by
    have hafter := Store.coherent_empty.after hall
    rwa [Store.after_append] at hafter
  have hfinds (p : Publication) (limit : Nat) := p.finds_publishDue hcoherent.refers limit
  refine ⟨hcoherent, ?_, ?_, ?_, ?_, ?_⟩
  · intro e he e' he' hid
    exact hall.follows he he' hid
  · intro e he
    refine (Store.forth_after he later).imp_left ?_
    rintro ⟨e', he', hfollows⟩
    exact ⟨e', he', hfollows.id⟩
  · intro call error herror
    rcases hperform : s.perform call with ⟨r, s'⟩
    rcases Store.perform_cases hperform with ⟨-, hsame⟩ | ⟨rfl, -⟩
    · exact hsame
    · rw [hperform] at herror
      exact nomatch herror
  · intro p limit r s' hends
    exact (hfinds p limit r s' hends).2
  · intro p limit w hw message hrun
    rcases hpair : (p.publishDue limit).run.run w with ⟨outcome, w'⟩
    rw [hpair] at hrun
    obtain rfl := hrun
    have hends := Prog.endsAmid_of_run hpair
    exact (hfinds p limit _ _ (hw ▸ hends)).2 message rfl

private def wanted (key : String) (id : Nat) : Notification :=
  .ofRequest ⟨.email, "ada@example.com", "shop", "hello", key⟩ (.ofSerial id) .epoch

/-- A key is refused, becomes free when the row that had it is given another, and is taken. -/
private def saving : List StoreCall :=
  [.saveWithOutbox (wanted "order" 1) "sends" (.ofSerial 10) .epoch,
    .saveWithOutbox (wanted "order" 2) "sends" (.ofSerial 11) .epoch,
    .markPublished (.ofSerial 10) .epoch, .failWrite "down", .save (wanted "refund" 1),
    .save (wanted "refund" 1), .saveWithOutbox (wanted "order" 2) "sends" (.ofSerial 12) .epoch]

/-- An event is marked once more after it was published, and one fails before old ones go. -/
private def clearing : List StoreCall :=
  [.markFailed (.ofSerial 10) "late" .epoch .epoch, .failOutbox "down",
    .markFailed (.ofSerial 12) "lost" .epoch .epoch,
    .markFailed (.ofSerial 12) "unreachable" .epoch .epoch, .deletePublished .last]

theorem Store.after_coherent_clearing :
    (StoreCall.drawn (saving ++ clearing)).Nodup ∧
      ((({} : Store).after saving).outbox.map fun e => (e.id, e.status)) =
        [(.ofSerial 10, .published), (.ofSerial 12, .pending)] ∧
      (((({} : Store).after saving).after clearing).outbox.map fun e => (e.id, e.attempts)) =
        [(.ofSerial 12, 1)] ∧
      ((({} : Store).after saving).after clearing).Coherent ∧
      ∀ e ∈ (({} : Store).after saving).outbox, e.id = .ofSerial 10 →
        (({} : Store).after saving).Deletes clearing e := by
  have hfresh : (StoreCall.drawn (saving ++ clearing)).Nodup := by decide
  have hleft : (((({} : Store).after saving).after clearing).outbox.map fun e =>
      (e.id, e.attempts)) = [(.ofSerial 12, 1)] := by decide +kernel
  obtain ⟨hcoherent, -, hgone, -⟩ := Store.after_coherent saving clearing hfresh
  refine ⟨hfresh, by decide +kernel, hleft, hcoherent, ?_⟩
  intro e he hid
  refine (hgone e he).resolve_left ?_
  rintro ⟨e', he', hsame⟩
  have hmem := List.mem_map_of_mem (f := fun e : OutboxEvent => (e.id, e.attempts)) he'
  rw [hleft, List.mem_singleton] at hmem
  have hother : (.ofSerial 12 : Uuid) = .ofSerial 10 :=
    (congrArg Prod.fst hmem).symm.trans (hsame.trans hid)
  exact absurd hother (by decide)

end Courier
