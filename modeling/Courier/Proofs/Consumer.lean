import Courier.Consumer
import Courier.Proofs.Runs.Hosts
import Courier.Proofs.Turns.Account

/-!
Batches of a consumer, whatever handles its records and whatever surrounds it. The surroundings
have a bus, but they answer as they like: polls, commits and publications may fail, and handlers
may keep a state of their own there. Main rule: a batch hands over the polled records in order,
each once, and the cursor of the group ends behind the last one that was committed, however the
batch ends.
-/

namespace Courier

/-! ## Surroundings -/

/-- A commit for a group. -/
def Call.Commits (sub : Subscription) : Call → Prop
  | .commit other _ => other = sub
  | _ => False

/-- Where the consumers of a group are served: only calls of channels go without an answer, a
successful poll shows what the bus has for the group, a successful commit moves its cursor as a
bus does, and nothing else moves it. -/
structure Host.Serves {σ : Type} (h : Host σ) (sub : Subscription) : Prop where
  answered : ∀ s c, ¬ c.IsSend → ∃ a s', h.answer s c = (.done a, s')
  polled : ∀ s max records s', h.answer s (.poll sub max) = (.done (.ok records), s') →
    records = (h.bus s).poll sub max
  committed : ∀ s offset s', h.answer s (.commit sub offset) = (.done (.ok ()), s') →
    (h.bus s').cursor sub = ((h.bus s).commit sub offset).cursor sub
  uncommitted : ∀ s offset error s',
    h.answer s (.commit sub offset) = (.done (.error error), s') →
      (h.bus s').cursor sub = (h.bus s).cursor sub
  unmoved : ∀ s c, ¬ c.Commits sub →
    (h.bus (h.answer s c).2).cursor sub = (h.bus s).cursor sub

namespace World

theorem serves_host (sub : Subscription) : host.Serves sub where
  answered w c hc := by
    cases c with
    | send place n => exact absurd trivial hc
    | _ => exact ⟨_, _, rfl⟩
  polled w max records w' hanswer := by
    obtain ⟨hrecords, -⟩ := Prod.mk.inj hanswer
    exact (Except.ok.inj (Outcome.done.inj hrecords)).symm
  committed w offset w' hanswer := by
    obtain ⟨-, rfl⟩ := Prod.mk.inj hanswer
    rfl
  uncommitted w offset error w' hanswer := by
    obtain ⟨hnone, -⟩ := Prod.mk.inj hanswer
    cases hnone
  unmoved w c hc := by
    change (w.answer c).2.bus.cursor sub = w.bus.cursor sub
    cases c with
    | send place n =>
        obtain ⟨channels, journal, millis, heq⟩ := w.sendAndWait_eq place n
        change (w.sendAndWait place n).2.bus.cursor sub = w.bus.cursor sub
        rw [heq]
    | tally ledger what => cases ledger <;> rfl
    | publish topic key payload =>
        change (w.bus.publish topic key payload w.now).2.cursor sub = w.bus.cursor sub
        unfold Bus.publish
        split <;> rfl
    | prune topic cutoff =>
        change (w.bus.prune topic cutoff).2.cursor sub = w.bus.cursor sub
        rw [Bus.cursor, Bus.cursors_prune, Bus.cursor]
    | commit other offset =>
        exact Bus.cursor_commit_of_ne (Ne.symm hc) _ _
    | _ => rfl

end World

/-! ## How a record is settled -/

/-- What ends a batch, with the record that did: one that is deferred, that cannot be handled now,
that cannot be reported or committed, or on which the handler broke off. -/
inductive Halt where
  | finished
  | deferred (r : Record)
  | failed (r : Record) (error : DeliveryError)
  | unreported (r : Record) (error : DeliveryError)
  | uncommitted (r : Record) (error : DeliveryError)
  | crashed (r : Record) (text : String)
  | stuck (r : Record)

namespace Halt

/-- The record that was not committed. -/
def record? : Halt → Option Record
  | finished => none
  | deferred r | failed r _ | unreported r _ | uncommitted r _ | crashed r _ | stuck r => some r

/-- What a batch returns that has committed so many records. -/
def outcome (committed : Nat) : Halt → Outcome (Except DeliveryError Nat)
  | finished | deferred _ => .done (.ok committed)
  | failed _ error => .done (if error.isFatal then .error error else .ok committed)
  | unreported _ error | uncommitted _ error => .done (.error error)
  | crashed _ text => .crashed text
  | stuck _ => .stuck

theorem eq_of_outcome_eq_ok {halt : Halt} {committed n : Nat}
    (h : halt.outcome committed = .done (.ok n)) : committed = n := by
  cases halt with
  | finished | deferred => exact Except.ok.inj (Outcome.done.inj h)
  | failed r error =>
      have hresult := Outcome.done.inj h
      split at hresult
      · cases hresult
      · exact Except.ok.inj hresult
  | unreported | uncommitted => exact nomatch Outcome.done.inj h
  | crashed | stuck => cases h

end Halt

namespace Host

variable {σ : Type}

/-- The report on a record that cannot be read: published and counted, or refused. -/
inductive Reports (h : Host σ) (c : Consumer) (r : Record) (s : σ) :
    Except DeliveryError Unit → σ → Prop
  | published {now id s₁ s₂ s₃ s'} (hnow : h.answer s .now = (.done now, s₁))
      (hid : h.answer s₁ .newId = (.done id, s₂))
      (hpublish : h.answer s₂ (.publish Topic.deadLetter.name (some id.text)
        (UnreadableReport.ofPayload r.topic r.partition r.offset r.payload now).encode) =
          (.done (.ok ()), s₃))
      (hcount : h.answer s₃ (.tally c.ledger .parseError) = (.done (), s')) :
      Reports h c r s (.ok ()) s'
  | refused {now id error s₁ s₂ s'} (hnow : h.answer s .now = (.done now, s₁))
      (hid : h.answer s₁ .newId = (.done id, s₂))
      (hpublish : h.answer s₂ (.publish Topic.deadLetter.name (some id.text)
        (UnreadableReport.ofPayload r.topic r.partition r.offset r.payload now).encode) =
          (.done (.error error), s')) :
      Reports h c r s (.error error) s'

/-- A record that is to be committed: handled, or unreadable and reported. -/
inductive Settled (h : Host σ) (c : Consumer) (r : Record) (s : σ) : σ → Prop
  | handled {s'} (hrun : h.run (c.handler.handle r).run s = (.done (.ok .commit), s')) :
      Settled h c r s s'
  | reported {message s₁ s'}
      (hrun : h.run (c.handler.handle r).run s = (.done (.error (.deserialization message)), s₁))
      (hreport : h.Reports c r s₁ (.ok ()) s') : Settled h c r s s'

/-- A record at which a batch ends. -/
inductive Halts (h : Host σ) (c : Consumer) (r : Record) (s : σ) : Halt → σ → Prop
  | defers {s'} (hrun : h.run (c.handler.handle r).run s = (.done (.ok .defer), s')) :
      Halts h c r s (.deferred r) s'
  | fails {error s'} (hrun : h.run (c.handler.handle r).run s = (.done (.error error), s'))
      (hreadable : ∀ message, error ≠ .deserialization message) :
      Halts h c r s (.failed r error) s'
  | goesUnreported {message error s₁ s'}
      (hrun : h.run (c.handler.handle r).run s = (.done (.error (.deserialization message)), s₁))
      (hreport : h.Reports c r s₁ (.error error) s') : Halts h c r s (.unreported r error) s'
  | goesUncommitted {error s₁ s'} (hsettled : h.Settled c r s s₁)
      (hcommit : h.answer s₁ (.commit c.subscription r.offset) = (.done (.error error), s')) :
      Halts h c r s (.uncommitted r error) s'
  | crashes {text s'} (hrun : h.run (c.handler.handle r).run s = (.crashed text, s')) :
      Halts h c r s (.crashed r text) s'
  | sticks {s'} (hrun : h.run (c.handler.handle r).run s = (.stuck, s')) :
      Halts h c r s (.stuck r) s'

/-- A passage through records: each is settled and committed, up to one at which it ends. -/
inductive Passage (h : Host σ) (c : Consumer) :
    List Record → σ → List Record → Halt → σ → Prop
  | finishes {s} : Passage h c [] s [] .finished s
  | commits {r rest s s₁ s₂ committed halt s'} (hsettled : h.Settled c r s s₁)
      (hcommit : h.answer s₁ (.commit c.subscription r.offset) = (.done (.ok ()), s₂))
      (hrest : Passage h c rest s₂ committed halt s') :
      Passage h c (r :: rest) s (r :: committed) halt s'
  | halts {r rest s halt s'} (hhalts : h.Halts c r s halt s') :
      Passage h c (r :: rest) s [] halt s'

variable {h : Host σ} {c : Consumer} {r : Record} {records committed : List Record} {halt : Halt}
  {s s' : σ}

theorem reports (hserves : h.Serves c.subscription) (r : Record) (s : σ) :
    ∃ result s', h.run (c.report r).run s = (.done result, s') ∧ h.Reports c r s result s' := by
  obtain ⟨now, s₁, hnow⟩ := hserves.answered s .now not_false
  obtain ⟨id, s₂, hid⟩ := hserves.answered s₁ .newId not_false
  obtain ⟨result, s₃, hpublish⟩ := hserves.answered s₂ (.publish Topic.deadLetter.name
    (some id.text)
    (UnreadableReport.ofPayload r.topic r.partition r.offset r.payload now).encode) not_false
  obtain ⟨⟨⟩, s', hcount⟩ := hserves.answered s₃ (.tally c.ledger .parseError) not_false
  cases result with
  | error error =>
      refine ⟨.error error, s₃, ?_, .refused hnow hid hpublish⟩
      refine (run_ask hnow).trans ((run_ask hid).trans ?_)
      exact run_ask hpublish
  | ok done =>
      refine ⟨.ok (), s', ?_, .published hnow hid hpublish hcount⟩
      refine (run_ask hnow).trans ((run_ask hid).trans ?_)
      refine (run_ask hpublish).trans ?_
      exact run_ask hcount

/-- A record is handed over once, and reported if it turns out to be unreadable. -/
theorem run_settle (h : Host σ) (c : Consumer) (r : Record) (s : σ) :
    h.run (c.settle r).run s = match h.run (c.handler.handle r).run s with
      | (.done (.ok .commit), s') => (.done (.ok true), s')
      | (.done (.ok .defer), s') => (.done (.ok false), s')
      | (.done (.error (.deserialization _)), s') => match h.run (c.report r).run s' with
        | (.done result, s'') => (.done (result.map fun _ => true), s'')
        | (.crashed text, s'') => (.crashed text, s'')
        | (.stuck, s'') => (.stuck, s'')
      | (.done (.error error), s') =>
        (.done (if error.isFatal then .error error else .ok false), s')
      | (.crashed text, s') => (.crashed text, s')
      | (.stuck, s') => (.stuck, s') := by
  refine (h.run_bind_job _ _ s).trans ?_
  rw [run_outcome]
  rcases h.run (c.handler.handle r).run s with ⟨(error | ⟨⟨⟩⟩) | _ | _, s'⟩
  · have hthrow (b : Bool) : h.run (if b then throw error else pure false : Job Bool).run s' =
        (.done (if b then .error error else .ok false), s') := by
      cases b <;> rfl
    cases error with
    | deserialization message =>
        refine (h.run_bind_job (c.report r) _ s').trans ?_
        dsimp only
        rcases h.run (c.report r).run s' with ⟨(_ | _) | _ | _, s''⟩ <;> rfl
    | _ => exact hthrow _
  · rfl
  · rfl
  · rfl
  · rfl

theorem run_settleAll_cons (h : Host σ) (c : Consumer) (r : Record) (rest : List Record) (n : Nat)
    (s : σ) :
    h.run (c.settleAll (r :: rest) n).run s = match h.run (c.settle r).run s with
      | (.done (.ok true), s') => match h.answer s' (.commit c.subscription r.offset) with
        | (.done (.ok _), s'') => h.run (c.settleAll rest (n + 1)).run s''
        | (.done (.error error), s'') => (.done (.error error), s'')
        | (.crashed text, s'') => (.crashed text, s'')
        | (.stuck, s'') => (.stuck, s'')
      | (.done (.ok false), s') => (.done (.ok n), s')
      | (.done (.error error), s') => (.done (.error error), s')
      | (.crashed text, s') => (.crashed text, s')
      | (.stuck, s') => (.stuck, s') := by
  refine (h.run_bind_job (c.settle r) _ s).trans ?_
  rcases h.run (c.settle r).run s with ⟨(error | _ | _) | _ | _, s'⟩
  · rfl
  · rfl
  · refine (h.run_bind_job (Job.attempt (.call (.commit c.subscription r.offset))) _ s').trans ?_
    rw [show h.run (Job.attempt (.call (.commit c.subscription r.offset))).run s' =
      h.answer s' (.commit c.subscription r.offset) from h.run_call _ s']
    dsimp only
    rcases h.answer s' (.commit c.subscription r.offset) with ⟨(_ | _) | _ | _, s''⟩ <;> rfl
  · rfl
  · rfl

/-- An error that leaves the record readable. -/
theorem run_settle_of_error {error : DeliveryError}
    (hrun : h.run (c.handler.handle r).run s = (.done (.error error), s'))
    (hreadable : ∀ message, error ≠ .deserialization message) :
    h.run (c.settle r).run s =
      (.done (if error.isFatal then .error error else .ok false), s') := by
  rw [run_settle, hrun]
  cases error with
  | deserialization message => exact absurd rfl (hreadable message)
  | _ => rfl

/-- A record is settled, or a batch ends at it. -/
theorem settled_or_halts (hserves : h.Serves c.subscription) (r : Record) (s : σ) :
    (∃ s', h.run (c.settle r).run s = (.done (.ok true), s') ∧ h.Settled c r s s') ∨
    ∃ halt s', h.Halts c r s halt s' ∧
      ∀ rest n, h.run (c.settleAll (r :: rest) n).run s = (halt.outcome n, s') := by
  have hsettle := h.run_settle c r s
  rcases hrun : h.run (c.handler.handle r).run s with ⟨(error | ⟨⟨⟩⟩) | _ | _, s₁⟩
  · by_cases hread : ∃ message, error = .deserialization message
    · obtain ⟨message, rfl⟩ := hread
      obtain ⟨result, s', hreport, hreports⟩ := reports hserves r s₁
      rw [hrun] at hsettle
      dsimp only at hsettle
      rw [hreport] at hsettle
      cases result with
      | ok done => exact Or.inl ⟨s', hsettle, .reported hrun hreports⟩
      | error error =>
          exact Or.inr ⟨_, s', .goesUnreported hrun hreports,
            fun rest n => by rw [run_settleAll_cons, hsettle]; rfl⟩
    · have hreadable : ∀ message, error ≠ .deserialization message :=
        fun message heq => hread ⟨message, heq⟩
      refine Or.inr ⟨_, s₁, .fails hrun hreadable, fun rest n => ?_⟩
      rw [run_settleAll_cons, run_settle_of_error hrun hreadable, Halt.outcome]
      cases error.isFatal <;> rfl
  · rw [hrun] at hsettle
    exact Or.inl ⟨s₁, hsettle, .handled hrun⟩
  · rw [hrun] at hsettle
    exact Or.inr ⟨_, s₁, .defers hrun, fun rest n => by rw [run_settleAll_cons, hsettle]; rfl⟩
  · rw [hrun] at hsettle
    exact Or.inr ⟨_, s₁, .crashes hrun, fun rest n => by rw [run_settleAll_cons, hsettle]; rfl⟩
  · rw [hrun] at hsettle
    exact Or.inr ⟨_, s₁, .sticks hrun, fun rest n => by rw [run_settleAll_cons, hsettle]; rfl⟩

/-! ## Batches -/

/-- So the records in hand are passed through, where `n` were committed before. -/
theorem passes (hserves : h.Serves c.subscription) (records : List Record) (n : Nat) (s : σ) :
    ∃ committed halt s', h.run (c.settleAll records n).run s =
        (halt.outcome (n + committed.length), s') ∧
      h.Passage c records s committed halt s' := by
  induction records generalizing n s with
  | nil => exact ⟨[], .finished, s, rfl, .finishes⟩
  | cons r rest ih =>
      rcases settled_or_halts hserves r s with ⟨s₁, hsettle, hsettled⟩ | ⟨halt, s', hhalts, hrun⟩
      · obtain ⟨result, s₂, hcommit⟩ :=
          hserves.answered s₁ (.commit c.subscription r.offset) not_false
        have hcons := h.run_settleAll_cons c r rest n s
        rw [hsettle] at hcons
        dsimp only at hcons
        rw [hcommit] at hcons
        cases result with
        | error error =>
            exact ⟨[], .uncommitted r error, s₂, hcons, .halts (.goesUncommitted hsettled hcommit)⟩
        | ok done =>
            obtain ⟨committed, halt, s', hrun, hpassage⟩ := ih (n + 1) s₂
            refine ⟨r :: committed, halt, s', ?_, .commits hsettled hcommit hpassage⟩
            rw [hcons, List.length_cons, ← Nat.add_assoc, Nat.add_right_comm]
            exact hrun
      · exact ⟨[], halt, s', hrun rest n, .halts hhalts⟩

/-- What was committed are the first records, and the next one is where the passage ends. -/
theorem Passage.exists_rest (hpassage : h.Passage c records s committed halt s') :
    ∃ rest, records = committed ++ rest ∧ rest.head? = halt.record? := by
  induction hpassage with
  | finishes => exact ⟨[], rfl, rfl⟩
  | commits _ _ _ ih =>
      obtain ⟨rest, rfl, hhead⟩ := ih
      exact ⟨rest, rfl, hhead⟩
  | halts hhalts => exact ⟨_, rfl, by cases hhalts <;> rfl⟩

/-- The cursor of the group in a state. -/
def cursor (h : Host σ) (c : Consumer) (s : σ) : Int := (h.bus s).cursor c.subscription

/-- A handler that leaves the cursor of the group alone. -/
def Spares (h : Host σ) (c : Consumer) : Prop :=
  ∀ r s, h.cursor c (h.run (c.handler.handle r).run s).2 = h.cursor c s

theorem cursor_of_answer {call : Call} {o : Outcome call.Answer}
    (hserves : h.Serves c.subscription) (hanswer : h.answer s call = (o, s'))
    (hcall : ¬ call.Commits c.subscription) : h.cursor c s' = h.cursor c s := by
  have hunmoved := hserves.unmoved s call hcall
  rwa [hanswer] at hunmoved

theorem cursor_of_handle {o : Outcome (Except DeliveryError Disposition)} (hspares : h.Spares c)
    (hrun : h.run (c.handler.handle r).run s = (o, s')) : h.cursor c s' = h.cursor c s := by
  have hspared := hspares r s
  rwa [hrun] at hspared

theorem Reports.cursor_eq {result : Except DeliveryError Unit} (hserves : h.Serves c.subscription)
    (hreports : h.Reports c r s result s') : h.cursor c s' = h.cursor c s := by
  cases hreports with
  | published hnow hid hpublish hcount =>
      calc h.cursor c s'
          = h.cursor c _ := cursor_of_answer hserves hcount not_false
        _ = h.cursor c _ := cursor_of_answer hserves hpublish not_false
        _ = h.cursor c _ := cursor_of_answer hserves hid not_false
        _ = h.cursor c s := cursor_of_answer hserves hnow not_false
  | refused hnow hid hpublish =>
      calc h.cursor c s'
          = h.cursor c _ := cursor_of_answer hserves hpublish not_false
        _ = h.cursor c _ := cursor_of_answer hserves hid not_false
        _ = h.cursor c s := cursor_of_answer hserves hnow not_false

theorem Settled.cursor_eq (hserves : h.Serves c.subscription) (hspares : h.Spares c)
    (hsettled : h.Settled c r s s') : h.cursor c s' = h.cursor c s := by
  cases hsettled with
  | handled hrun => exact cursor_of_handle hspares hrun
  | reported hrun hreports =>
      exact (hreports.cursor_eq hserves).trans (cursor_of_handle hspares hrun)

theorem Halts.cursor_eq (hserves : h.Serves c.subscription) (hspares : h.Spares c)
    (hhalts : h.Halts c r s halt s') : h.cursor c s' = h.cursor c s := by
  cases hhalts with
  | goesUnreported hrun hreports =>
      exact (hreports.cursor_eq hserves).trans (cursor_of_handle hspares hrun)
  | goesUncommitted hsettled hcommit =>
      exact (hserves.uncommitted _ _ _ _ hcommit).trans (hsettled.cursor_eq hserves hspares)
  | defers hrun | fails hrun | crashes hrun | sticks hrun => exact cursor_of_handle hspares hrun

/-- Each commit moves the cursor behind its record, and nothing else moves it. -/
theorem Passage.cursor_eq (hserves : h.Serves c.subscription) (hspares : h.Spares c)
    (hpassage : h.Passage c records s committed halt s')
    (hsorted : records.Pairwise (·.offset < ·.offset))
    (hbits : ∀ r ∈ records, r.offset ≤ 0x7fff_ffff_ffff_ffff)
    (hfrom : ∀ r ∈ records, h.cursor c s ≤ r.offset) :
    h.cursor c s' = (committed.getLast?.map (Bus.behind ·.offset)).getD (h.cursor c s) := by
  induction hpassage with
  | finishes => rfl
  | halts hhalts => exact hhalts.cursor_eq hserves hspares
  | @commits r rest s s₁ s₂ committed halt s' hsettled hcommit hrest ih =>
      obtain ⟨hfirst, hsorted⟩ := List.pairwise_cons.mp hsorted
      -- commits never move a cursor back, so it goes behind this record only if it is not there yet
      have hle := hfrom r List.mem_cons_self
      have hbit := hbits r List.mem_cons_self
      have hmoved : h.cursor c s₂ = Bus.behind r.offset := by
        have hcommitted := hserves.committed _ _ _ hcommit
        rw [Bus.cursor_commit_self] at hcommitted
        have hkept := hsettled.cursor_eq hserves hspares
        unfold cursor Bus.behind at *
        omega
      have hlast := ih hsorted (fun r' hr' => hbits r' (List.mem_cons_of_mem r hr'))
        fun r' hr' => by
          have hlt := hfirst r' hr'
          rw [hmoved, Bus.behind]
          omega
      rw [hlast, hmoved, List.getLast?_cons]
      cases committed.getLast? <;> rfl

/-- A batch in surroundings that serve its group, with a handler that leaves its cursor alone. If
the poll succeeds, the records behind the cursor are handed over in order, each once, up to the
first one that is deferred, that cannot be handled now, that is unreadable and cannot be reported,
or that cannot be committed. The cursor ends behind the last record before that one, and a batch
that returns a number returns how many these are. Errors are those of the poll, of a commit, of a
report, and the fatal ones of the handler. -/
theorem batch_commits_handled (hserves : h.Serves c.subscription) (hspares : h.Spares c) (s : σ)
    (hsorted : ((h.bus s).records c.subscription.topic).Pairwise (·.offset < ·.offset))
    (hbits : ∀ r ∈ (h.bus s).records c.subscription.topic, r.offset ≤ 0x7fff_ffff_ffff_ffff) :
    ∃ polled s₀, h.answer s (.poll c.subscription c.batchSize) = (.done polled, s₀) ∧
      match polled with
      | .error error =>
        h.run c.batch.run s = (.done (.error error), s₀) ∧ h.cursor c s₀ = h.cursor c s
      | .ok records =>
        records = (h.bus s).poll c.subscription c.batchSize ∧
        ∃ committed halt s', h.run c.batch.run s = (halt.outcome committed.length, s') ∧
          h.Passage c records s₀ committed halt s' ∧
          (∃ rest, records = committed ++ rest ∧ rest.head? = halt.record?) ∧
          h.cursor c s' = (committed.getLast?.map (Bus.behind ·.offset)).getD (h.cursor c s) := by
  obtain ⟨polled, s₀, hpoll⟩ :=
    hserves.answered s (.poll c.subscription c.batchSize) not_false
  have hcursor := cursor_of_answer hserves hpoll not_false
  have hbatch : h.run c.batch.run s = _ := run_ask hpoll
  refine ⟨polled, s₀, hpoll, ?_⟩
  cases polled with
  | error error => exact ⟨hbatch, hcursor⟩
  | ok records =>
      have hrecords := hserves.polled _ _ _ _ hpoll
      have hsub : records.Sublist ((h.bus s).records c.subscription.topic) := by
        rw [hrecords]
        exact (List.take_sublist _ _).trans List.filter_sublist
      have hfrom : ∀ r ∈ records, h.cursor c s₀ ≤ r.offset := by
        intro r hr
        rw [hrecords] at hr
        have hbehind := (List.mem_filter.mp (List.mem_of_mem_take hr)).2
        rw [hcursor]
        exact of_decide_eq_true hbehind
      obtain ⟨committed, halt, s', hrun, hpassage⟩ := passes hserves records 0 s₀
      refine ⟨hrecords, committed, halt, s', ?_, hpassage, hpassage.exists_rest, ?_⟩
      · rw [hbatch, ← Nat.zero_add committed.length]
        exact hrun
      · rw [← hcursor]
        exact hpassage.cursor_eq hserves hspares (hsorted.sublist hsub)
          (fun r hr => hbits r (hsub.subset hr)) hfrom

/-- A handler that goes by the keys of the records. -/
private def picky : Handler where
  name := "picky"
  handle r :=
    match r.key with
    | some "later" => return .defer
    | some "garbage" => throw (.deserialization "garbage")
    | some "fail" => throw (.storage "transient")
    | _ => return .commit

private def pickyConsumer : Consumer := ⟨⟨"group", "topic"⟩, picky, 100, .loops⟩

/-- A record is unreadable, and a later one cannot be handled for the moment. -/
private def mixed : List Record :=
  [⟨"topic", 0, 0, none, []⟩, ⟨"topic", 0, 1, some "garbage", []⟩, ⟨"topic", 0, 2, none, []⟩,
    ⟨"topic", 0, 3, some "fail", []⟩, ⟨"topic", 0, 4, none, []⟩]

private def mixedWorld : World :=
  { Sample.world [] with
    bus := { logs := [("topic", ⟨mixed.map fun r => ⟨r, .epoch⟩, 5⟩)] } }

/-- The unreadable record is reported and passed, and the batch ends before the failure. -/
theorem batch_commits_handled_mixed :
    World.host.Serves pickyConsumer.subscription ∧ World.host.Spares pickyConsumer ∧
      (mixedWorld.bus.records "topic").Pairwise (·.offset < ·.offset) ∧
      (∀ r ∈ mixedWorld.bus.records "topic", r.offset ≤ 0x7fff_ffff_ffff_ffff) ∧
      (World.host.run pickyConsumer.batch.run mixedWorld).1 = .done (.ok 3) ∧
      World.host.cursor pickyConsumer
        (World.host.run pickyConsumer.batch.run mixedWorld).2 = 3 := by
  have hserves := World.serves_host pickyConsumer.subscription
  have hspares : World.host.Spares pickyConsumer := by
    intro r w
    change World.host.cursor _ (World.host.run (picky.handle r).run w).2 = _
    unfold picky
    dsimp only
    split <;> rfl
  have hsorted : (mixedWorld.bus.records "topic").Pairwise (·.offset < ·.offset) := by decide
  have hbits : ∀ r ∈ mixedWorld.bus.records "topic", r.offset ≤ 0x7fff_ffff_ffff_ffff := by decide
  have houtcome : (World.host.run pickyConsumer.batch.run mixedWorld).1 = .done (.ok 3) := by
    rfl
  refine ⟨hserves, hspares, hsorted, hbits, houtcome, ?_⟩
  obtain ⟨polled, w₀, hpoll, hcases⟩ :=
    batch_commits_handled hserves hspares mixedWorld hsorted hbits
  obtain ⟨hpolled, rfl⟩ := Prod.mk.inj hpoll
  obtain rfl := Outcome.done.inj hpolled
  obtain ⟨-, committed, halt, w', hrun, -, ⟨rest, hparts, -⟩, hcursor⟩ := hcases
  rw [hrun] at houtcome ⊢
  have hfirst : committed = (mixedWorld.bus.poll ⟨"group", "topic"⟩ 100).take 3 := by
    rw [← Halt.eq_of_outcome_eq_ok houtcome]
    exact (List.take_left' rfl).symm.trans (congrArg _ hparts.symm)
  rw [hcursor, hfirst]
  rfl

end Host
end Courier
