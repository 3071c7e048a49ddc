import Courier.Proofs.Runs.Consistency

/-!
What becomes of a notification that was sent while other deliveries of it are under way. A delivery
that looks it up from then on is skipped. But one that has looked before, and whose channel fails,
records the failure over the success, since a write does not look at what it replaces. So a
notification stays sent exactly if no delivery under way has come that far.
-/

namespace Courier

/-! ## Calls of a delivery -/

namespace Prog

variable {α β : Type} {P : Call → Prop}

/-- Whatever it is answered, a program makes only calls with the property. -/
def Asks (P : Call → Prop) : Prog α → Prop
  | .done _ | .crash _ => True
  | .ask c next => P c ∧ ∀ a, (next a).Asks P

theorem asks_bind {p : Prog α} {f : α → Prog β} (hp : p.Asks P) (hf : ∀ a, (f a).Asks P) :
    (p.bind f).Asks P := by
  induction p with
  | done a => exact hf a
  | crash text => exact trivial
  | ask c next ih => exact ⟨hp.1, fun a => ih a (hp.2 a)⟩

theorem asks_mono {R : Call → Prop} {p : Prog α} (hp : p.Asks P) (h : ∀ c, P c → R c) :
    p.Asks R := by
  induction p with
  | done a | crash text => exact trivial
  | ask c next ih => exact ⟨h c hp.1, fun a => ih a (hp.2 a)⟩

theorem asks_of_forall (p : Prog α) (h : ∀ c, P c) : p.Asks P := by
  induction p with
  | done a | crash text => exact trivial
  | ask c next ih => exact ⟨h c, ih⟩

end Prog

namespace Call

/-- The calls of the store that a delivery makes. -/
def OfStore : Call → Prop
  | .findById _ | .save _ | .saveWithOutbox _ _ => True
  | _ => False

/-- The calls that a delivery makes. -/
def Delivers (c : Call) : Prop :=
  c.OfStore ∨ match c with
    | .now | .jitter _ | .send _ _ | .tally _ _ => True
    | _ => False

/-- The calls by which the end of an attempt is recorded. -/
def Records : Call → Prop
  | .now | .jitter _ | .tally _ _ | .save _ | .saveWithOutbox _ _ => True
  | _ => False

theorem Records.delivers {c : Call} (h : c.Records) : c.Delivers := by
  cases c with
  | save _ | saveWithOutbox _ _ => exact Or.inl trivial
  | now | jitter _ | tally _ _ => exact Or.inr trivial
  | _ => exact h.elim

end Call

namespace Job

variable {α β : Type} {P : Call → Prop}

theorem asks_bind {job : Job α} {f : α → Job β} (hjob : job.run.Asks P)
    (hf : ∀ a, (f a).run.Asks P) : (job >>= f).run.Asks P := by
  refine Prog.asks_bind hjob fun result => ?_
  cases result with
  | ok a => exact hf a
  | error error => exact trivial

theorem asks_call {c : Call} (h : P c) : (Job.call c).run.Asks P := ⟨h, fun _ => trivial⟩

theorem asks_attempt {p : Prog (Except DeliveryError α)} (h : p.Asks P) :
    (Job.attempt p).run.Asks P := h

theorem asks_store {p : Prog (Except StoreError α)} (h : p.Asks P) :
    (Job.store p).run.Asks P :=
  Prog.asks_bind h fun _ => trivial

theorem asks_orCrash (r : Except Instant.Overflow α) : (Job.orCrash r).run.Asks P := by
  cases r <;> exact trivial

end Job

namespace Delivery

open Job

variable (d : Delivery) (n : Notification)

theorem asks_recordSent : (d.recordSent n).run.Asks Call.Records := by
  refine asks_bind (asks_call trivial) fun now => ?_
  refine asks_bind (asks_store ⟨trivial, fun _ => trivial⟩) fun _ => ?_
  exact asks_bind (asks_call trivial) fun _ => trivial

theorem asks_recordFailure (error : DeliveryError) :
    (d.recordFailure n error).run.Asks Call.Records := by
  refine asks_bind (asks_call trivial) fun now => ?_
  refine asks_bind (asks_call trivial) fun jitter => ?_
  refine asks_bind (asks_orCrash _) fun decision => ?_
  cases decision with
  | retry next =>
      refine asks_bind (asks_store ⟨trivial, fun _ => trivial⟩) fun _ => ?_
      exact asks_bind (asks_call trivial) fun _ => trivial
  | giveUp reason =>
      refine asks_bind (asks_store ⟨trivial, fun _ => trivial⟩) fun _ => ?_
      exact asks_bind (asks_call trivial) fun _ => trivial

private theorem asks_attempt : (d.attempt n).run.Asks Call.Delivers := by
  refine asks_bind trivial fun found => ?_
  refine asks_bind (asks_call (Or.inr trivial)) fun _ => ?_
  refine asks_bind ⟨Or.inr trivial, fun _ => trivial⟩ fun result => ?_
  rcases result with error | _
  · dsimp only
    split
    · exact Prog.asks_mono (d.asks_recordFailure n error) fun _ => Call.Records.delivers
    · exact trivial
  · exact Prog.asks_mono (d.asks_recordSent n) fun _ => Call.Records.delivers

theorem asks_deliver : (d.deliver n).run.Asks Call.Delivers := by
  refine asks_bind (asks_store ⟨Or.inl trivial, fun _ => trivial⟩) fun found => ?_
  cases found with
  | none => exact d.asks_attempt n
  | some stored =>
      dsimp only
      split
      · exact trivial
      · exact d.asks_attempt stored

end Delivery

/-! ## What may fail -/

namespace Prog

variable {α β : Type}

/-- The next that a program does with the store can be that it records a failure. -/
inductive MayFail : Prog α → Prop
  | records {n topic next} : MayFail (.ask (.saveWithOutbox n topic) next)
  | later {c next} {a : c.Answer} (hc : ¬ c.OfStore) (h : MayFail (next a)) :
      MayFail (.ask c next)

theorem mayFail_ask {c : Call} {next : c.Answer → Prog α} (hc : ¬ c.OfStore) :
    (ask c next).MayFail ↔ ∃ a, (next a).MayFail := by
  constructor
  · intro h
    cases h with
    | records => exact absurd trivial hc
    | later _ h => exact ⟨_, h⟩
  · rintro ⟨a, h⟩
    exact .later hc h

theorem mayFail_bind {p : Prog α} {f : α → Prog β} (hf : ∀ a, ¬ (f a).MayFail) :
    (p.bind f).MayFail ↔ p.MayFail := by
  constructor
  · intro h
    induction p with
    | done a => exact absurd h (hf a)
    | crash text => exact nomatch h
    | ask c next ih =>
        cases h with
        | records => exact .records
        | later hc h => exact .later hc (ih _ h)
  · intro h
    induction h with
    | records => exact .records
    | later hc _ ih => exact .later hc ih

end Prog

namespace Delivery

variable (d : Delivery) (n : Notification)

private theorem not_mayFail_recordSent : ¬ (d.recordSent n).run.MayFail := by
  change ¬ (Prog.ask .now fun now => .ask (.save _) _).MayFail
  rw [Prog.mayFail_ask id]
  rintro ⟨now, h⟩
  cases h with
  | later hc => exact hc trivial

private theorem mayFail_recordFailure (error : DeliveryError) :
    (d.recordFailure n error).run.MayFail ↔ ∃ now jitter decision,
      d.backoff.decide n.medium (countUp n.retryCount) now jitter = .ok decision := by
  change (Prog.ask .now fun now => .ask (.jitter _) fun jitter => _).MayFail ↔ _
  rw [Prog.mayFail_ask id]
  refine exists_congr fun now => ?_
  rw [Prog.mayFail_ask id]
  refine exists_congr fun jitter => ?_
  change (Job.orCrash (d.backoff.decide n.medium _ now jitter) >>= _).run.MayFail ↔ _
  cases hdecide : d.backoff.decide n.medium (countUp n.retryCount) now jitter with
  | error overflow => exact iff_of_false (fun h => nomatch h) fun h => nomatch h.choose_spec
  | ok decision =>
      refine iff_of_true ?_ ⟨decision, rfl⟩
      cases decision <;> exact .records

/-- What is left of a delivery once it has looked the notification up may fail, as long as there is
a channel and some moment at which it can be decided what follows. -/
theorem mayFail_attempt :
    ((d.attempt n).run.bind fun _ => .done ()).MayFail ↔
      (∃ channel, d.registry.find n.medium = .ok channel) ∧ ∃ now jitter decision,
        d.backoff.decide n.medium (countUp n.retryCount) now jitter = .ok decision := by
  refine (Prog.mayFail_bind fun _ => ?_).trans ?_
  · exact fun h => nomatch h
  unfold attempt
  cases hfind : d.registry.find n.medium with
  | error error => exact iff_of_false (fun h => nomatch h) fun h => nomatch h.1.choose_spec
  | ok channel =>
      rw [← d.mayFail_recordFailure n (.network "")]
      refine Iff.trans ?_ (and_iff_right ⟨channel, rfl⟩).symm
      change (Prog.ask (.tally _ _) fun _ => .ask (.send channel.1 n) fun result => _).MayFail ↔ _
      rw [Prog.mayFail_ask id, exists_const, Prog.mayFail_ask id]
      constructor
      · rintro ⟨result, h⟩
        rcases result with error | _
        · change (if error.isDeliveryFailure then _ else _ : Job DeliveryOutcome).run.MayFail at h
          by_cases hfailure : error.isDeliveryFailure = true
          · rw [if_pos hfailure] at h
            exact (d.mayFail_recordFailure n _).mpr ((d.mayFail_recordFailure n error).mp h)
          · rw [if_neg hfailure] at h
            exact nomatch h
        · exact absurd h (d.not_mayFail_recordSent n)
      · intro h
        exact ⟨.error (.network ""), h⟩

end Delivery

/-! ## Stands of a delivery -/

namespace Notification

variable {n m : Notification} {rows : List Notification}

/-- What messages and rows say of one notification may differ, but not in these. -/
def Same (n m : Notification) : Prop := m.id = n.id ∧ m.idempotencyKey = n.idempotencyKey

/-- A table in which no other notification has the identifier or the key, and where no failure is on
record of the notification once it is sent. -/
structure KeptIn (n : Notification) (rows : List Notification) : Prop where
  nodup : (rows.map (·.id)).Nodup
  same : ∀ m ∈ rows, m.id = n.id ↔ m.idempotencyKey = n.idempotencyKey
  clean : ∀ m ∈ rows, m.id = n.id → m.status = .sent → m.isClean = true

/-- The table has the notification as sent, without a failure on record. -/
def SentIn (n : Notification) (rows : List Notification) : Prop :=
  ∃ m ∈ rows, m.id = n.id ∧ m.status = .sent ∧ m.isClean = true

namespace KeptIn

theorem putInto (h : n.KeptIn rows) (hm : n.Same m)
    (hclean : m.status = .sent → m.isClean = true) : n.KeptIn (Store.putInto m rows) where
  nodup := Store.nodup_putInto m h.nodup
  same := by
    intro x hx
    rcases (Store.mem_putInto h.nodup).mp hx with rfl | ⟨hx, -⟩
    · exact iff_of_true hm.1 hm.2
    · exact h.same x hx
  clean := by
    intro x hx hid hsent
    rcases (Store.mem_putInto h.nodup).mp hx with rfl | ⟨hx, -⟩
    · exact hclean hsent
    · exact h.clean x hx hid hsent

/-- What is put in the place of the notification decides whether it is sent. -/
theorem sent_of_putInto (h : n.KeptIn rows) (hm : n.Same m)
    (hsent : n.SentIn (Store.putInto m rows)) : m.status = .sent := by
  obtain ⟨x, hx, hid, hstatus, -⟩ := hsent
  rcases (Store.mem_putInto h.nodup).mp hx with rfl | ⟨-, hne⟩
  · exact hstatus
  · exact absurd (hid.trans hm.1.symm) hne

/-- Nothing stands in the way of a write about the notification. -/
theorem not_keyTaken {s : Store} (h : n.KeptIn s.notifications) (hm : n.Same m) :
    s.keyTaken m = false := by
  refine List.any_eq_false.mpr fun x hx htaken => ?_
  obtain ⟨hkey, hid⟩ := Bool.and_eq_true_iff.mp htaken
  have hsame := (h.same x hx).mpr ((eq_of_beq hkey).trans hm.2)
  exact absurd (hsame.trans hm.1.symm) (bne_iff_ne.mp hid)

end KeptIn
end Notification

namespace Stand

/-- Where deliveries of a notification stand that were asked for. -/
def Delivers (n : Notification) : Stand → Prop
  | .over => True
  | .handling origin m | .attempting origin m | .delivered origin m | .rejected origin m =>
    origin = .request ∧ n.Same m
  | _ => False

/-- Where the store is asked again before a failure is recorded. -/
def Harmless : Stand → Prop
  | .over | .handling _ _ | .delivered _ _ => True
  | _ => False

theorem not_mayFail_of_leads {α : Type} {p : Prog α} {s : Stand} {Q : α → Stand → Prop}
    (hleads : p.Leads s Q) (hs : s.Harmless) : ¬ p.MayFail := by
  intro hfails
  induction hfails generalizing s with
  | @records n topic next =>
      obtain ⟨s', hmove, -⟩ := hleads (.ok (.pending n.id n.id topic .epoch))
      cases hmove with
      | passes hc => exact hc
      | fails hc => exact nomatch hc.choose_spec
      | promises | reschedules | buries => exact hs
  | @later c next a hc _ ih =>
      obtain ⟨s', hmove, hnext⟩ := hleads a
      apply ih hnext
      cases hmove with
      | passes => exact hs
      | fails => exact trivial
      | skips | begins | trusts | records => exact absurd trivial hc
      | _ => exact hs.elim

/-- What a move of a delivery makes of the table and of the stand. -/
theorem Delivers.move {n : Notification} {s s' : Stand} {b b' : Books} {c : Call} {a : c.Answer}
    (hs : s.Delivers n) (hb : n.KeptIn b.rows) (hmove : Moves s c a s')
    (heffect : b.Effect c a b') : n.KeptIn b'.rows ∧ s'.Delivers n := by
  cases hmove with
  | passes hc =>
      obtain ⟨serial, -, rfl⟩ := heffect.of_idle (Or.inl hc)
      exact ⟨hb, hs⟩
  | fails hc =>
      obtain ⟨serial, -, rfl⟩ := heffect.of_idle (Or.inr (Or.inl hc))
      exact ⟨hb, trivial⟩
  | skips =>
      obtain ⟨rfl, -⟩ := hs
      obtain ⟨-, rfl⟩ := heffect.of_findById
      exact ⟨hb, trivial⟩
  | begins =>
      obtain ⟨rfl, hsame⟩ := hs
      obtain ⟨hfound, rfl⟩ := heffect.of_findById
      obtain ⟨hstored, hid⟩ := Store.find?_some hfound.symm
      have hid := hid.trans hsame.1
      exact ⟨hb, rfl, hid, (hb.same _ hstored).mp hid⟩
  | trusts =>
      obtain ⟨-, rfl⟩ := heffect.of_findById
      exact ⟨hb, hs⟩
  | delivers | rejects =>
      obtain ⟨serial, -, rfl⟩ := heffect.of_idle (Or.inr (Or.inr ⟨_, _, rfl⟩))
      exact ⟨hb, hs⟩
  | garbles =>
      obtain ⟨rfl, -⟩ := hs
      obtain ⟨serial, -, rfl⟩ := heffect.of_idle (Or.inr (Or.inr ⟨_, _, rfl⟩))
      exact ⟨hb, trivial⟩
  | records =>
      obtain ⟨rfl, hsame⟩ := hs
      obtain rfl := heffect.of_save
      exact ⟨hb.putInto hsame fun _ => rfl, trivial⟩
  | reschedules | buries =>
      obtain ⟨rfl, hsame⟩ := hs
      obtain ⟨-, rfl⟩ := heffect.of_saveWithOutbox
      exact ⟨hb.putInto hsame nofun, trivial⟩
  | _ => exact hs.elim

/-- As long as no failure can be recorded, the notification stays sent. -/
theorem Delivers.stays_sent {α : Type} {n : Notification} {s s' : Stand} {b b' : Books} {c : Call}
    {a : c.Answer} {next : c.Answer → Prog α} {Q : α → Stand → Prop} (hs : s.Delivers n)
    (hb : n.KeptIn b.rows) (hsent : n.SentIn b.rows) (hc : c.Delivers)
    (hfails : ¬ (Prog.ask c next).MayFail) (hmove : Moves s c a s')
    (hnext : (next a).Leads s' Q) (heffect : b.Effect c a b') :
    n.SentIn b'.rows ∧ ¬ (next a).MayFail := by
  have hlater (hother : ¬ c.OfStore) : ¬ (next a).MayFail := fun h => hfails (.later hother h)
  cases hmove with
  | passes hpasses =>
      obtain ⟨serial, -, rfl⟩ := heffect.of_idle (Or.inl hpasses)
      refine ⟨hsent, hlater fun hstore => ?_⟩
      cases c with
      | findById | save | saveWithOutbox => exact hpasses
      | _ => exact hstore
  | fails hc =>
      obtain ⟨serial, -, rfl⟩ := heffect.of_idle (Or.inr (Or.inl hc))
      exact ⟨hsent, not_mayFail_of_leads hnext trivial⟩
  | skips =>
      obtain ⟨rfl, -⟩ := hs
      obtain ⟨-, rfl⟩ := heffect.of_findById
      exact ⟨hsent, not_mayFail_of_leads hnext trivial⟩
  | begins houtdates =>
      obtain ⟨hfound, -⟩ := heffect.of_findById
      obtain ⟨hstored, hid⟩ := Store.find?_some hfound.symm
      obtain ⟨m, hm, hm', hstatus, -⟩ := hsent
      obtain rfl := Store.eq_of_id_eq hb.nodup hm hstored (hm'.trans (hid.trans hs.2.1).symm)
      exact absurd (Or.inl hstatus) houtdates
  | trusts =>
      obtain ⟨hfound, -⟩ := heffect.of_findById
      obtain ⟨m, hm, hm', -⟩ := hsent
      exact absurd (hm'.trans hs.2.1.symm) (Store.find?_none hfound.symm m hm)
  | delivers | rejects | garbles =>
      obtain ⟨serial, -, rfl⟩ := heffect.of_idle (Or.inr (Or.inr ⟨_, _, rfl⟩))
      exact ⟨hsent, hlater id⟩
  | records =>
      obtain ⟨rfl, hsame⟩ := hs
      obtain rfl := heffect.of_save
      exact ⟨⟨_, Store.mem_putInto_self _ _, hsame.1, rfl, rfl⟩,
        not_mayFail_of_leads hnext trivial⟩
  | reschedules | buries => exact absurd .records hfails
  | _ => exact hs.elim

end Stand

/-! ## Deliveries at the same time -/

/-- Any number of deliveries of a notification, each of which may be abandoned half way. -/
def Rules.deliveries (n : Notification) : Rules where
  runs op := ∃ d m, op = .deliver d m ∧ n.Same m
  single _ := False
  abandons _ := True
  answers _ _ := True

theorem Rules.keeps_deliveries (n : Notification) :
    (deliveries n).Keeps fun b _ stands => n.KeptIn b.rows ∧ ∀ i, (stands i).Delivers n where
  starts := by
    rintro b history stands i op ⟨hb, hstands⟩ - ⟨d, m, rfl, hsame⟩ -
    exact ⟨hb, Stand.forall_update hstands ⟨rfl, hsame⟩⟩
  moves := by
    rintro b b' history stands i c a s ⟨hb, hstands⟩ hmove heffect -
    obtain ⟨hb', hs⟩ := (hstands i).move hb hmove heffect
    exact ⟨hb', Stand.forall_update hstands hs⟩
  leaves := by
    rintro b history stands i ⟨hb, hstands⟩ -
    exact ⟨hb, Stand.forall_update hstands trivial⟩

namespace System

variable {rules : Rules} {n : Notification} {s s' : System}

def Asks (s : System) (P : Call → Prop) : Prop := ∀ i, ∀ t ∈ s.threads i, t.rest.Asks P

/-- Some thread may record a failure before it looks into the store again. -/
def MayFail (s : System) : Prop := ∃ i, ∃ t ∈ s.threads i, t.rest.MayFail

private theorem forall_thread_update {Q : Thread → Prop} {threads : Nat → Option Thread} {i : Nat}
    {thread : Option Thread} (h : ∀ j, ∀ t ∈ threads j, Q t) (hi : ∀ t ∈ thread, Q t) :
    ∀ j, ∀ t ∈ Function.update threads i thread j, Q t := by
  intro j
  by_cases hj : j = i
  · rwa [hj, Function.update_self]
  · rw [Function.update_of_ne hj]
    exact h j

theorem Step.asks {P : Call → Prop} (hruns : ∀ op, rules.runs op → op.program.Asks P)
    (hstep : Step rules s s') (h : s.Asks P) : s'.Asks P := by
  cases hstep with
  | @start i op _ hop =>
      refine forall_thread_update h fun t ht => ?_
      obtain rfl := Option.some.inj ht
      exact hruns op hop
  | call hthread =>
      refine forall_thread_update h fun t ht => ?_
      obtain rfl := Option.some.inj ht
      exact (h _ _ hthread).2 _
  | finish | abandon =>
      exact forall_thread_update h fun t ht => absurd ht (Option.not_mem_none t)
  | surroundings => exact h

/-- Where the threads of a run of deliveries are. -/
private theorem Steps.deliveries {w : World} (hw : n.KeptIn w.store.notifications)
    (hsteps : Steps (.deliveries n) (.idle w) s) :
    (∃ stands : Nat → Stand, (∀ i, StandsAt (s.threads i) (stands i)) ∧
      n.KeptIn s.world.store.notifications ∧ ∀ i, (stands i).Delivers n) ∧
      s.Asks Call.Delivers := by
  refine ⟨hsteps.has (Rules.keeps_deliveries n)
    ⟨fun _ => .over, fun _ => rfl, hw, fun _ => trivial⟩, ?_⟩
  have hruns (op : Operation) (hop : (Rules.deliveries n).runs op) :
      op.program.Asks Call.Delivers := by
    obtain ⟨d, m, rfl, -⟩ := hop
    exact Prog.asks_bind (d.asks_deliver m) fun _ => trivial
  induction hsteps with
  | refl => exact fun i t ht => absurd ht (Option.not_mem_none t)
  | tail _ hstep ih => exact hstep.asks hruns ih

/-- If no thread may fail, the next step leaves the notification sent, and none may fail then. -/
private theorem Step.stays_sent {w : World} (hw : n.KeptIn w.store.notifications)
    (hsteps : Steps (.deliveries n) (.idle w) s) (hstep : Step (.deliveries n) s s')
    (hsent : n.SentIn s.world.store.notifications) (hfails : ¬ s.MayFail) :
    n.SentIn s'.world.store.notifications ∧ ¬ s'.MayFail := by
  have hall : ∀ i, ∀ t ∈ s.threads i, ¬ t.rest.MayFail :=
    fun i t ht h => hfails ⟨i, t, ht, h⟩
  have hnone {threads : Nat → Option Thread} (h : ∀ i, ∀ t ∈ threads i, ¬ t.rest.MayFail)
      (w : World) (history : List Answered) : ¬ (⟨w, threads, history⟩ : System).MayFail := by
    rintro ⟨i, t, ht, hmay⟩
    exact h i t ht hmay
  cases hstep with
  | @start i op _ hop =>
      refine ⟨hsent, hnone (forall_thread_update hall fun t ht => ?_) _ _⟩
      obtain rfl := Option.some.inj ht
      obtain ⟨d, m, rfl, -⟩ := hop
      apply Stand.not_mayFail_of_leads (Operation.leads_program (.deliver d m))
      exact trivial
  | @call i op c next a w' hthread hanswers =>
      obtain ⟨⟨stands, hstands, hkept, hdelivers⟩, hasks⟩ := hsteps.deliveries hw
      have hi := hstands i
      rw [hthread] at hi
      obtain ⟨s', hmove, hnext⟩ := hi.1 a
      obtain ⟨hsent', hfails'⟩ := (hdelivers i).stays_sent hkept hsent (hasks i _ hthread).1
        (hall i _ hthread) hmove hnext hanswers.effect
      refine ⟨hsent', hnone (forall_thread_update hall fun t ht => ?_) _ _⟩
      obtain rfl := Option.some.inj ht
      exact hfails'
  | finish | abandon =>
      refine ⟨hsent, hnone (forall_thread_update hall fun t ht => ?_) _ _⟩
      exact absurd ht (Option.not_mem_none t)
  | @surroundings w' hbooks =>
      refine ⟨?_, hnone hall _ _⟩
      change n.SentIn w'.books.rows
      rw [hbooks]
      exact hsent

/-- A thread that may fail can be answered so that it does, and then the notification is not sent
any more. -/
private theorem Steps.overwrites {w : World} (hw : n.KeptIn w.store.notifications)
    {p : Prog Unit} (hfails : p.MayFail) {i : Nat} {op : Operation}
    (hsteps : Steps (.deliveries n) (.idle w) s) (hthread : s.threads i = some ⟨op, p⟩) :
    ∃ s', Steps (.deliveries n) s s' ∧ ¬ n.SentIn s'.world.store.notifications := by
  induction hfails generalizing s with
  | @records m topic next =>
      obtain ⟨⟨stands, hstands, hkept, hdelivers⟩, -⟩ := hsteps.deliveries hw
      have hi := hstands i
      rw [hthread] at hi
      have hwrites : n.Same m ∧ m.status ≠ .sent := by
        obtain ⟨s', hmove, -⟩ := hi.1 (.ok (.pending m.id m.id topic .epoch))
        have hs := hdelivers i
        generalize stands i = s₀ at hmove hs
        cases hmove with
        | passes hc => exact hc.elim
        | fails hc => exact nomatch hc.choose_spec
        | promises => exact hs.elim
        | reschedules | buries => exact ⟨hs.2, nofun⟩
      -- No fault is injected in the meantime, so the write succeeds.
      let calm : World := { s.world with store := { s.world.store with saveError := none } }
      have hcalm : Step (.deliveries n) s { s with world := calm } := .surroundings rfl
      have hwritten : calm.answer (.saveWithOutbox m topic) = _ :=
        congrArg (fun r => (Outcome.done (calm.takeId.2.withStore r).1,
          (calm.takeId.2.withStore r).2))
          (Store.saveWithOutbox_of_not_keyTaken rfl (hkept.not_keyTaken hwrites.1))
      refine ⟨_, .tail (.single hcalm) (.call hthread (.serves hwritten) trivial), ?_⟩
      exact fun hsent => hwrites.2 (hkept.sent_of_putInto hwrites.1 hsent)
  | @later c next a hc _ ih =>
      have hasks := ((hsteps.deliveries hw).2 i _ hthread).1
      have hanswers : ∃ w', s.world.Answers c a w' := by
        cases c with
        | now | jitter bound => exact ⟨_, .varies trivial⟩
        | send place m => exact ⟨_, .replies rfl⟩
        | tally ledger what => exact ⟨_, .serves rfl⟩
        | findById | save | saveWithOutbox => exact absurd trivial hc
        | _ => exact (hasks.elim hc id).elim
      obtain ⟨w', hanswers⟩ := hanswers
      have hstep : Step (.deliveries n) s _ := .call hthread hanswers trivial
      obtain ⟨s', hmore, hnot⟩ := ih (hsteps.tail hstep) (Function.update_self i _ _)
      exact ⟨s', .head hstep hmore, hnot⟩

/-- A notification that is stored as sent stays so, with no failure on record, exactly if no
delivery under way may record a failure before it looks into the store again. -/
theorem Steps.stays_sent_iff {w : World} (hw : n.KeptIn w.store.notifications)
    (hsteps : Steps (.deliveries n) (.idle w) s)
    (hsent : ∃ m ∈ s.world.store.notifications, m.id = n.id ∧ m.status = .sent) :
    (∀ s', Steps (.deliveries n) s s' → n.SentIn s'.world.store.notifications) ↔ ¬ s.MayFail := by
  constructor
  · rintro h ⟨i, ⟨op, p⟩, hthread, hfails⟩
    obtain ⟨s', hmore, hnot⟩ := hsteps.overwrites hw hfails hthread
    exact hnot (h s' hmore)
  · intro hfails s' hmore
    suffices h : n.SentIn s'.world.store.notifications ∧ ¬ s'.MayFail from h.1
    induction hmore with
    | refl =>
        obtain ⟨⟨-, -, hkept, -⟩, -⟩ := hsteps.deliveries hw
        obtain ⟨m, hm, hid, hstatus⟩ := hsent
        exact ⟨⟨m, hm, hid, hstatus, hkept.clean m hm hid hstatus⟩, hfails⟩
    | tail hmid hstep ih => exact Step.stays_sent hw (hsteps.trans hmid) hstep ih.1 ih.2

end System

namespace Sample

/-- A notification that was just taken in. -/
def taken : Notification := .ofRequest request (.ofSerial 0) .epoch

private def attempt : Operation := .deliver (pipeline 2).delivery taken

/-- A world that has taken it in, with a channel that gives these replies. -/
def holding (replies : List Reply) : World :=
  { world replies with store := { notifications := [taken] } }

private theorem keptIn_holding (replies : List Reply) :
    taken.KeptIn (holding replies).store.notifications where
  nodup := List.nodup_singleton _
  same := by
    intro m hm
    rw [List.mem_singleton.mp hm]
    exact iff_of_true rfl rfl
  clean := by
    intro m hm _ hsent
    rw [List.mem_singleton.mp hm] at hsent
    exact nomatch hsent

/-- Two deliveries have looked the notification up, and it was sent by one of them, while the
channel of the other has failed. -/
private def raced : System :=
  (((System.idle (holding [.done (.ok ()), .done (.error (.network "down"))])).launch 0
    attempt).launch 1 attempt).serveAll [0, 1, 0, 0, 1, 1, 0, 0]

private theorem serves (s : System) (order : List Nat) :
    System.Steps (.deliveries taken) s (s.serveAll order) :=
  s.steps_serveAll order fun _ _ => trivial

private theorem launches {s : System} {i : Nat} (hfree : s.tasks i = none) :
    System.Step (.deliveries taken) s (s.launch i attempt) :=
  s.step_launch i hfree ⟨_, _, rfl, rfl, rfl⟩ nofun

end Sample

open Sample in
/-- Once a delivery is over that was not disturbed, its notification stays sent. -/
theorem System.Steps.stays_sent_iff_alone :
    ∃ s : System, Steps (.deliveries taken) (.idle (holding [])) s ∧
      ∀ s', Steps (.deliveries taken) s s' → taken.SentIn s'.world.store.notifications := by
  let s := (System.idle (holding [])).perform 0 attempt 20
  have hsteps : Steps (.deliveries taken) (.idle (holding [])) s :=
    steps_perform _ 0 rfl ⟨_, _, rfl, rfl, rfl⟩ nofun (fun _ _ => trivial) (by decide +kernel)
  have hidle : s.tasks = fun _ => none := tasks_perform _ 0 _ _ rfl
  refine ⟨s, hsteps, (hsteps.stays_sent_iff (keptIn_holding []) (by decide +kernel)).mpr ?_⟩
  rintro ⟨i, t, hthread, -⟩
  have htask : s.tasks i = some t.op.task := congrArg _ (Option.mem_def.mp hthread)
  rw [hidle] at htask
  exact nomatch htask

open Sample in
/-- A delivery whose channel fails undoes what another one has recorded. -/
theorem System.Steps.sent_overwritten :
    ∃ w s s', taken.KeptIn w.store.notifications ∧ Steps (.deliveries taken) (.idle w) s ∧
      Steps (.deliveries taken) s s' ∧ taken.SentIn s.world.store.notifications ∧
      ∃ m ∈ s'.world.store.notifications, m.id = taken.id ∧ m.status = .failed := by
  have hlaunched : Steps (.deliveries taken)
      (.idle (holding [.done (.ok ()), .done (.error (.network "down"))])) raced :=
    .head (launches rfl) (.head (launches rfl) (serves _ _))
  refine ⟨_, raced, raced.serveAll [1, 1, 1], keptIn_holding _, hlaunched, serves _ _, ?_, ?_⟩
  · change ∃ m ∈ raced.world.store.notifications, _
    decide +kernel
  · decide +kernel

end Courier
