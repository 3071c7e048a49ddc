import Courier.Proofs.Runs.Orderly

/-!
A dead letter stays one, unless someone asks for it to be sent again. This holds as long as no
event is published twice: publication takes the notification as it is now, and delivery skips only
what is sent or knows fewer failures than the store. So an event that could not be marked, or that
a second cycle had fetched as well, sends the dead letter once more, and it is delivered like any
other. That cycles do not overlap and that marking succeeds is enough, and both are needed.
-/

namespace Courier

/-! ## Orderly runs -/

namespace Books.Orderly

variable {b b' : Books} {stands : Nat → Stand} {i : Nat} {s : Stand} {c : Call} {a : c.Answer}

/-- No delivery has a dead letter in hand. -/
private theorem not_attempts (h : b.Orderly False stands) (hb : b.Consistent stands)
    {n m : Notification} (hn : n ∈ b.rows) (hdead : n.status = .deadLettered)
    (hi : (stands i).Attempts m) : m.id ≠ n.id := by
  intro hid
  obtain ⟨topic, offset, -, hlive, hm, -⟩ := h.live_attempt hb hi
  obtain rfl := Store.eq_of_id_eq hb.books.rows_nodup hm hn hid
  exact (h.buried m hn hdead _ hlive).1

/-- Whatever is called, a dead letter stays as it is and goes to no channel. -/
theorem keeps_buried (h : b.Orderly False stands) (hb : b.Consistent stands)
    (hleads : ∀ a, ∃ s, Moves (stands i) c a s) (heffect : b.Effect c a b') {n : Notification}
    (hn : n ∈ b.rows) (hdead : n.status = .deadLettered) :
    n ∈ b'.rows ∧ ∀ place m, c = .send place m → m.id ≠ n.id := by
  have hother {y : Notification} (hne : y.id ≠ n.id) : n ∈ Store.putInto y b.rows :=
    (Store.mem_putInto hb.books.rows_nodup).mpr (Or.inr ⟨hn, Ne.symm hne⟩)
  have hattempts {m : Notification} (hi : (stands i).Attempts m) : m.id ≠ n.id :=
    h.not_attempts hb hn hdead hi
  refine ⟨?_, ?_⟩
  · obtain ⟨s, hmove⟩ := hleads a
    cases heffect with
    | @saves y =>
        apply hother
        generalize hi : stands i = s₀ at hmove
        cases hmove with
        | passes hc => exact hc.elim
        | fails hc => exact nomatch hc.choose_spec
        | @records origin m now => exact hattempts (m := m) (by rw [hi]; exact rfl)
    | @promises y topic now =>
        apply hother
        generalize hi : stands i = s₀ at hmove
        cases hmove with
        | passes hc => exact hc.elim
        | fails hc => exact nomatch hc.choose_spec
        | promises =>
            intro hid
            have hunknown := h.stands i
            rw [hi] at hunknown
            exact hunknown ⟨n, hn, hid.symm⟩
        | @reschedules origin m => exact hattempts (m := m) (by rw [hi]; exact rfl)
        | @buries origin m => exact hattempts (m := m) (by rw [hi]; exact rfl)
    | _ => exact hn
  · rintro place m rfl
    obtain ⟨s, hmove⟩ := hleads (.ok ())
    generalize hi : stands i = s₀ at hmove
    cases hmove with
    | passes hc => exact hc.elim
    | fails hc => exact nomatch hc.choose_spec
    | delivers => exact hattempts (by rw [hi]; exact rfl)

end Books.Orderly

namespace System

variable {rules : Rules} {s s' : System}

/-- What is done, as it counts for a dead letter: its row stays, and no channel is called for it. -/
def Spares (s s' : System) (n : Notification) : Prop :=
  n ∈ s'.world.store.notifications ∧ ∃ later, s'.history = later ++ s.history ∧
    ∀ answered ∈ later, ∀ place m, answered.call = .send place m → m.id ≠ n.id

private theorem Step.serial_le (h : Step rules s s') : s.world.serial ≤ s'.world.serial := by
  cases h with
  | call _ hanswers => exact hanswers.effect.serial_le
  | surroundings hbooks => exact (congrArg Books.serial hbooks).ge
  | _ => exact Nat.le_refl _

/-- In orderly runs without reprocessing, dead letters are left alone. -/
theorem Steps.spares {w : World} (hblank : w.IsBlank)
    (hsteps : Steps (.orderly False) (.idle w) s) (hmore : Steps (.orderly False) s s')
    (hserial : s'.world.serial ≤ Books.serialLimit) {n : Notification}
    (hn : n ∈ s.world.store.notifications) (hdead : n.status = .deadLettered) :
    s.Spares s' n := by
  induction hmore with
  | refl => exact ⟨hn, [], rfl, List.forall_mem_nil _⟩
  | @tail mid last hmid hstep ih =>
      have hbefore := hstep.serial_le.trans hserial
      obtain ⟨hrow, later, hhistory, hlater⟩ := ih hbefore
      cases hstep with
      | @call i op c next a w' hthread hanswers hrules =>
          have hsofar : Steps (.orderly False) (.idle w) mid := hsteps.trans hmid
          obtain ⟨stands, hstands, hconsistent, horderly⟩ :=
            hsofar.retains (Rules.preserves_orderly False) (fun _ hruns => hruns.1) hblank
              (hblank.orderly False) hbefore
          have hi := hstands i
          rw [hthread] at hi
          obtain ⟨hkept, hsend⟩ := horderly.keeps_buried hconsistent
            (fun a => (hi.1 a).imp fun _ h => h.1) hanswers.effect hrow hdead
          refine ⟨hkept, ⟨c, a⟩ :: later, congrArg _ hhistory, ?_⟩
          intro answered hanswered place m hcall
          rcases List.mem_cons.mp hanswered with rfl | hanswered
          · exact hsend place m hcall
          · exact hlater answered hanswered place m hcall
      | @surroundings w' hbooks =>
          refine ⟨?_, later, hhistory, hlater⟩
          change n ∈ w'.books.rows
          rw [hbooks]
          exact hrow
      | _ => exact ⟨hrow, later, hhistory, hlater⟩

end System

/-! ## What order is needed -/

/-- The pipeline by itself, without reprocessing. One thread takes batches of each topic; cycles
of the outbox may `overlap` or not, and publishing may `forget` to mark an event or not. -/
def Rules.automatic (overlap forget : Prop) : Rules where
  runs op := op.task ≠ .delivery ∧ op.task ≠ .reprocessing
  single
    | .outbox => ¬ overlap
    | .batch _ => True
    | _ => False
  abandons task := task ≠ .outbox
  answers c a := Answered.forgets ⟨c, a⟩ = true → forget

/-- In all runs by the rules dead letters are left alone, as long as identifiers last. -/
def Rules.Buries (rules : Rules) : Prop :=
  ∀ {w : World} {s s' : System}, w.IsBlank → System.Steps rules (.idle w) s →
    System.Steps rules s s' → s'.world.serial ≤ Books.serialLimit →
    ∀ n ∈ s.world.store.notifications, n.status = .deadLettered → s.Spares s' n

namespace System

private theorem Step.orderly {overlap forget : Prop} {s s' : System} (hoverlap : ¬ overlap)
    (hforget : ¬ forget) (h : Step (.automatic overlap forget) s s') :
    Step (.orderly False) s s' := by
  cases h with
  | @start i op hfree hruns hsingle =>
      refine .start hfree ⟨hruns.1, fun heq => hruns.2 heq⟩ fun hexclusive => hsingle ?_
      cases op with
      | publishDue p limit => exact hoverlap
      | batch p ledger topic => exact trivial
      | _ => exact hexclusive.elim
  | call hthread hanswers hrules =>
      refine .call hthread hanswers ?_
      exact Bool.eq_false_iff.mpr fun hforgets => hforget (hrules hforgets)
  | finish hthread hended => exact .finish hthread hended
  | abandon hthread hrules => exact .abandon hthread hrules
  | surroundings hbooks => exact .surroundings hbooks

end System

namespace Sample

private def publish : Operation := .publishDue (pipeline 1).publication 100

private def sendBatch : Operation := .batch (pipeline 1) .loops .send

/-- A notification was taken in. The channel will fail the first attempt to deliver it, after which
the pipeline gives it up. -/
private def accepted : System :=
  (System.idle (world [.done (.error (.network "down"))])).perform 0 (.submit request) 10

/-- One cycle has fetched the event of the notification, and a second one publishes it. -/
private def overtaken : System :=
  ((accepted.launch 1 publish).serveAll (List.replicate 2 1)).perform 0 publish 20

/-- The event was published, but it cannot be marked since the outbox is out of order now. -/
private def unmarked : System :=
  let s := (accepted.launch 0 publish).serveAll (List.replicate 5 0)
  { s with world := { s.world with store := { s.world.store with outboxError := some "down" } } }

/-- That cycle has ended, and the next one has fetched the event again. -/
private def forgotten : System :=
  (((unmarked.serveAll (List.replicate 5 0)).retire 0).launch 1 publish).serveAll
    (List.replicate 2 1)

/-- What happens when the event has been published and still is in hand: the notification is given
up, published again by the event in hand, and delivered. -/
private def buried (s : System) : System := s.perform 0 sendBatch 30

private def republished (s : System) : System :=
  ((buried s).serveAll (List.replicate 20 1)).retire 1

private def revived (s : System) : System := (republished s).perform 0 sendBatch 30

/-- Every operation comes to its end on the way. -/
private def Revives (s : System) : Prop :=
  (∀ t ∈ ((s.launch 0 sendBatch).serveAll (List.replicate 30 0)).threads 0, t.rest.Ended) ∧
  (∃ n ∈ (buried s).world.store.notifications, n.status = .deadLettered) ∧
  (∀ t ∈ ((buried s).serveAll (List.replicate 20 1)).threads 1, t.rest.Ended) ∧
  (∀ t ∈ (((republished s).launch 0 sendBatch).serveAll (List.replicate 30 0)).threads 0,
    t.rest.Ended) ∧
  (∀ n ∈ (revived s).world.store.notifications, n.status = .sent) ∧
  (revived s).world.serial ≤ Books.serialLimit

private instance (s : System) : Decidable (Revives s) := inferInstanceAs (Decidable (_ ∧ _))

variable {overlap forget : Prop}

private theorem no_tasks {s : System} (h : s.tasks = fun _ => none) (task : Task) (j : Nat) :
    s.tasks j ≠ some task := by
  rw [h]
  exact nofun

private theorem remembers {s : System} (h : s.history.all (fun x => !x.forgets) = true) :
    ∀ x ∈ s.history, (Rules.automatic overlap forget).answers x.call x.answer := by
  intro x hx hforgets
  have hnot := List.all_eq_true.mp h x hx
  rw [hforgets] at hnot
  exact nomatch hnot

private theorem tasks_accepted : accepted.tasks = fun _ => none := System.tasks_perform _ 0 _ _ rfl

private theorem steps_accepted :
    System.Steps (.automatic overlap forget) (.idle (world [.done (.error (.network "down"))]))
      accepted :=
  System.steps_perform _ 0 rfl ⟨nofun, nofun⟩ nofun (remembers (by decide +kernel))
    (by decide +kernel)

private theorem step_publish {s : System} (i : Nat) (h : s.tasks = fun _ => none) :
    System.Step (.automatic overlap forget) s (s.launch i publish) :=
  s.step_launch i (by rw [h]) ⟨nofun, nofun⟩ fun _ => no_tasks h _

private theorem tasks_overtaken :
    overtaken.tasks = Function.update (fun _ => none) 1 (some .outbox) := by
  have hfetched : ((accepted.launch 1 publish).serveAll (List.replicate 2 1)).tasks =
      Function.update (fun _ => none) 1 (some .outbox) := by
    rw [System.tasks_serveAll, System.tasks_launch, tasks_accepted]
    rfl
  exact (System.tasks_perform _ 0 _ _ (by rw [hfetched]; rfl)).trans hfetched

private theorem steps_overtaken :
    System.Steps (.automatic True forget) accepted overtaken := by
  have hfetch : System.Steps (.automatic True forget) (accepted.launch 1 publish)
      ((accepted.launch 1 publish).serveAll (List.replicate 2 1)) :=
    System.steps_serveAll _ _ (remembers (by decide +kernel))
  have hpublish : System.Steps (.automatic True forget)
      ((accepted.launch 1 publish).serveAll (List.replicate 2 1)) overtaken := by
    refine System.steps_perform _ 0 ?_ ⟨nofun, nofun⟩ (fun hsingle => absurd trivial hsingle)
      (remembers (by decide +kernel)) (by decide +kernel)
    rw [System.tasks_serveAll, System.tasks_launch, tasks_accepted]
    rfl
  exact .head (step_publish 1 tasks_accepted) (hfetch.trans hpublish)

private theorem tasks_unmarked :
    ((unmarked.serveAll (List.replicate 5 0)).retire 0).tasks = fun _ => none := by
  rw [System.tasks_retire, System.tasks_serveAll]
  change Function.update ((accepted.launch 0 publish).serveAll _).tasks 0 none = _
  rw [System.tasks_serveAll, System.tasks_launch, Function.update_idem, tasks_accepted]
  exact Function.update_eq_self 0 _

private theorem tasks_forgotten :
    forgotten.tasks = Function.update (fun _ => none) 1 (some .outbox) := by
  rw [forgotten, System.tasks_serveAll, System.tasks_launch, tasks_unmarked]
  rfl

private theorem steps_forgotten : System.Steps (.automatic overlap True) accepted forgotten := by
  have hserve (s : System) (order : List Nat) :
      System.Steps (.automatic overlap True) s (s.serveAll order) :=
    s.steps_serveAll order fun _ _ _ => trivial
  have hfault : System.Step (.automatic overlap True)
      ((accepted.launch 0 publish).serveAll (List.replicate 5 0)) unmarked := .surroundings rfl
  have hretire : System.Steps (.automatic overlap True) (unmarked.serveAll (List.replicate 5 0))
      ((unmarked.serveAll (List.replicate 5 0)).retire 0) :=
    System.steps_retire _ 0 (by decide +kernel)
  have hfetch : System.Steps (.automatic overlap True)
      ((unmarked.serveAll (List.replicate 5 0)).retire 0) forgotten :=
    .head (step_publish 1 tasks_unmarked) (hserve _ _)
  exact .head (step_publish 0 tasks_accepted) ((hserve _ _).trans
    (.head hfault ((hserve _ _).trans (hretire.trans hfetch))))

/-- A cycle that still has an event in hand which has been published has a dead letter delivered. -/
private theorem steps_revived {rules : Rules} {s : System}
    (hsteps : System.Steps rules (.idle (world [.done (.error (.network "down"))])) s)
    (htasks : s.tasks = Function.update (fun _ => none) 1 (some .outbox))
    (hruns : rules.runs sendBatch)
    (hanswers : ∀ x ∈ (revived s).history, rules.answers x.call x.answer)
    (hgoes : Revives s) :
    System.Steps rules (.idle (world [.done (.error (.network "down"))])) (buried s) ∧
      System.Steps rules (buried s) (revived s) := by
  obtain ⟨hbatched, -, hcycled, hbatched', -⟩ := hgoes
  have hburied : (buried s).tasks = Function.update (fun _ => none) 1 (some .outbox) :=
    (System.tasks_perform _ 0 _ _ (by rw [htasks]; rfl)).trans htasks
  have hquiet : (republished s).tasks = fun _ => none := by
    rw [republished, System.tasks_retire, System.tasks_serveAll, hburied, Function.update_idem]
    exact Function.update_eq_self 1 _
  have hrepublished : ∀ x ∈ (republished s).history, rules.answers x.call x.answer :=
    fun x hx => hanswers x (System.history_perform _ 0 _ _ hx)
  have hbury : System.Steps rules s (buried s) := by
    refine System.steps_perform _ 0 (by rw [htasks]; rfl) hruns (fun _ j => ?_)
      (fun x hx => hrepublished x (System.history_serveAll _ _ hx)) hbatched
    rw [htasks, Function.update_apply]
    split <;> exact nofun
  have hpublish : System.Steps rules (buried s) (republished s) :=
    (System.steps_serveAll _ _ hrepublished).trans (System.steps_retire _ 1 hcycled)
  have hrevive : System.Steps rules (republished s) (revived s) :=
    System.steps_perform _ 0 (by rw [hquiet]) hruns (fun _ => no_tasks hquiet _) hanswers hbatched'
  exact ⟨hsteps.trans hbury, hpublish.trans hrevive⟩

private theorem revives_overtaken : Revives overtaken := by decide +kernel

private theorem revives_forgotten : Revives forgotten := by decide +kernel

private theorem revived_overtaken :
    System.Steps (.automatic True forget) (.idle (world [.done (.error (.network "down"))]))
        (buried overtaken) ∧
      System.Steps (.automatic True forget) (buried overtaken) (revived overtaken) :=
  steps_revived (steps_accepted.trans steps_overtaken) tasks_overtaken ⟨nofun, nofun⟩
    (remembers (by decide +kernel)) revives_overtaken

private theorem revived_forgotten :
    System.Steps (.automatic overlap True) (.idle (world [.done (.error (.network "down"))]))
        (buried forgotten) ∧
      System.Steps (.automatic overlap True) (buried forgotten) (revived forgotten) :=
  steps_revived (steps_accepted.trans steps_forgotten) tasks_forgotten ⟨nofun, nofun⟩
    (fun _ _ _ => trivial) revives_forgotten

private theorem Revives.not_buries {rules : Rules} {s : System} (h : Revives s)
    (hsteps : System.Steps rules (.idle (world [.done (.error (.network "down"))])) (buried s) ∧
      System.Steps rules (buried s) (revived s)) : ¬ rules.Buries := by
  intro hburies
  obtain ⟨-, ⟨n, hn, hdead⟩, -, -, hsent, hserial⟩ := h
  obtain ⟨hkept, -⟩ := hburies (isBlank_world _) hsteps.1 hsteps.2 hserial n hn hdead
  rw [hsent n hkept] at hdead
  exact nomatch hdead

end Sample

/-- The pipeline by itself leaves dead letters alone exactly if cycles of the outbox do not overlap
and what was published is always marked. -/
theorem Rules.automatic_buries_iff (overlap forget : Prop) :
    (automatic overlap forget).Buries ↔ ¬ overlap ∧ ¬ forget := by
  constructor
  · intro h
    refine ⟨fun hoverlap => ?_, fun hforget => ?_⟩
    · rw [eq_true hoverlap] at h
      exact Sample.revives_overtaken.not_buries Sample.revived_overtaken h
    · rw [eq_true hforget] at h
      exact Sample.revives_forgotten.not_buries Sample.revived_forgotten h
  · rintro ⟨hoverlap, hforget⟩ w s s' hblank hsteps hmore hserial n hn hdead
    have horderly {s s' : System} (h : System.Steps (automatic overlap forget) s s') :
        System.Steps (.orderly False) s s' :=
      Relation.ReflTransGen.mono (fun _ _ hstep => hstep.orderly hoverlap hforget) _ _ h
    exact (horderly hsteps).spares hblank (horderly hmore) hserial hn hdead

/-- If just a mark is missing, a dead letter is published again by the next cycle and sent. -/
theorem Rules.dead_letter_sent :
    ∃ w s s', w.IsBlank ∧ System.Steps (.automatic False True) (.idle w) s ∧
      System.Steps (.automatic False True) s s' ∧
      (∃ n ∈ s.world.store.notifications, n.status = .deadLettered) ∧
      ∀ n ∈ s'.world.store.notifications, n.status = .sent := by
  obtain ⟨-, hdead, -, -, hsent, -⟩ := Sample.revives_forgotten
  exact ⟨_, _, _, Sample.isBlank_world _, Sample.revived_forgotten.1, Sample.revived_forgotten.2,
    hdead, hsent⟩

end Courier
