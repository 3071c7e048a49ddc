import Courier.Json.Codec
import Mathlib.Tactic.SplitIfs

/-!
What codecs can yield, whatever text they are given. A whole number that is read lies within the
bounds of its codec. A record that is read is made of values each of which its field can yield, or
has for want of an entry. Nothing is said here of the texts, only of the values that come of them.
-/

namespace Courier.Json

variable {α β : Type}

/-! ## Readers -/

namespace Reader

/-- All that the reader gives has a property. -/
def Gives (r : Reader α) (P : α → Prop) : Prop := ∀ c a c', r c = .ok a c' → P a

variable {P : α → Prop} {Q : β → Prop} {r : Reader α} {f : α → Reader β}

theorem gives_any (r : Reader α) : r.Gives fun _ => True := fun _ _ _ _ => trivial

theorem gives_pure {a : α} (h : P a) : Gives (pure a) P := by
  intro c b c' heq
  obtain ⟨rfl, -⟩ : a = b ∧ c = c' := by simpa [pure, EStateM.pure] using heq
  exact h

theorem gives_bind (hr : r.Gives P) (hf : ∀ a, P a → (f a).Gives Q) : (r >>= f).Gives Q := by
  intro c b c' heq
  change EStateM.bind r f c = _ at heq
  unfold EStateM.bind at heq
  split at heq
  · next a c₁ hfirst => exact hf a (hr c a c₁ hfirst) c₁ b c' heq
  · exact nomatch heq

/-- Where the first of two readers does not matter. -/
theorem gives_behind (hf : ∀ a, (f a).Gives Q) : (r >>= f).Gives Q :=
  gives_bind (gives_any r) fun a _ => hf a

theorem gives_located (h : r.Gives P) : (located r).Gives P := by
  intro c a c' heq
  unfold located at heq
  split at heq
  · next a' c₁ hr =>
    obtain ⟨rfl, -⟩ : a' = a ∧ c₁ = c' := by simpa using heq
    exact h c a' c₁ hr
  · exact nomatch heq

theorem gives_closedBy {close : Reader Unit} (h : r.Gives P) : (closedBy r close).Gives P := by
  intro c a c' heq
  unfold closedBy at heq
  split at heq
  · next a' c₁ hr =>
    split at heq
    · next c₂ _ =>
      obtain ⟨rfl, -⟩ : a' = a ∧ c₂ = c' := by simpa using heq
      exact h c a' c₁ hr
    · exact nomatch heq
  · split at heq <;> exact nomatch heq

/-! Readers that fail give nothing. -/

theorem gives_failHere (cause : Cause) : (failHere cause).Gives P := fun _ _ _ heq => nomatch heq

theorem gives_failNext (cause : Cause) : (failNext cause).Gives P := fun _ _ _ heq => nomatch heq

theorem gives_failUnplaced (cause : Cause) : (failUnplaced cause).Gives P :=
  fun _ _ _ heq => nomatch heq

theorem gives_failType (expected : String) : (failType expected).Gives P := by
  refine gives_behind fun b => ?_
  cases b with
  | none => exact gives_failNext _
  | some b =>
      dsimp only
      split_ifs
      · exact gives_behind fun _ => gives_behind fun _ => gives_failHere _
      · exact gives_behind fun _ => gives_behind fun _ => gives_failHere _
      · exact gives_behind fun _ => gives_behind fun _ => gives_failHere _
      · exact gives_behind fun _ => gives_failHere _
      · exact gives_behind fun _ => gives_behind fun _ => gives_failHere _
      · exact gives_failHere _
      · exact gives_failHere _
      · exact gives_failNext _

theorem of_readAll {text : Bytes} {a : α} (h : r.Gives P) (hread : readAll r text = .ok a) :
    P a := by
  unfold readAll at hread
  split at hread
  · next b c' heq =>
    obtain rfl := Except.ok.inj hread
    exact gives_bind h (fun a ha => gives_behind fun _ => gives_pure ha) _ _ _ heq
  · exact nomatch hread

end Reader

open Reader

/-! ## Values -/

/-- Some text gives this value. -/
def Codec.Yields (codec : Codec α) (a : α) : Prop := ∃ c c', codec.read c = .ok a c'

theorem Codec.gives_yields (codec : Codec α) : codec.read.Gives codec.Yields :=
  fun c _ c' heq => ⟨c, c', heq⟩

theorem Codec.yields_of_decode {codec : Codec α} {text : Bytes} {a : α}
    (h : codec.decode text = .ok a) : codec.Yields a :=
  of_readAll codec.gives_yields h

theorem Codec.gives_token {P : α → Prop} {expected : String} {starts : UInt8 → Bool}
    {r : Reader α} (h : r.Gives P) : (token expected starts r).Gives P := by
  refine gives_behind fun b => ?_
  cases b with
  | none => exact gives_failNext _
  | some b =>
      refine gives_located ?_
      split
      · exact h
      · exact gives_failType _

/-- A whole number that is read lies within the bounds of its codec. -/
theorem Codec.exists_of_yields_integer {expected : String} {low high : Int} {ofInt : Int → α}
    {toInt : α → Int} {a : α} (h : (integer expected low high ofInt toInt).Yields a) :
    ∃ n, low ≤ n ∧ n ≤ high ∧ a = ofInt n := by
  obtain ⟨c, c', heq⟩ := h
  refine gives_token (P := fun a => ∃ n, low ≤ n ∧ n ≤ high ∧ a = ofInt n) ?_ c a c' heq
  refine gives_behind fun number => ?_
  cases number with
  | float x => exact gives_failUnplaced _
  | whole n =>
      dsimp only
      split
      · next hbounds => exact gives_pure ⟨n, hbounds.1, hbounds.2, rfl⟩
      · exact gives_failUnplaced _

/-- What is read from a string was found in some string. -/
theorem Codec.exists_of_yields_parsed {expected : String} {parse : String → Except String α}
    {text : α → String} {a : α} (h : (parsed expected parse text).Yields a) :
    ∃ s, parse s = .ok a := by
  obtain ⟨c, c', heq⟩ := h
  refine gives_token (P := fun a => ∃ s, parse s = .ok a) ?_ c a c' heq
  refine gives_behind fun _ => gives_behind fun s => ?_
  split
  · next hparse => exact gives_pure ⟨s, hparse⟩
  · exact gives_failUnplaced _

/-- A value that is there, where null is allowed too, is one of the codec. -/
theorem Codec.yields_of_yields_optional {codec : Codec α} {value : Option α}
    (h : codec.optional.Yields value) : ∀ a ∈ value, codec.Yields a := by
  obtain ⟨c, c', heq⟩ := h
  refine gives_behind (Q := fun value => ∀ a ∈ value, codec.Yields a) (fun b => ?_) c value c' heq
  split
  · exact gives_behind fun _ => gives_behind fun _ => gives_pure nofun
  · exact gives_bind codec.gives_yields fun a ha => gives_pure fun b hb => Option.some.inj hb ▸ ha

/-! ## Records -/

/-- A value that a field can come to have: one that its codec yields, or the one that stands for
an entry that is missing. -/
def Field.Yields (field : Field α) (a : α) : Prop :=
  field.codec.Yields a ∨ field.absent = some a ∨ field.cut = some a

theorem Field.yields_of_required {name : String} {codec : Codec α} {a : α}
    (h : (required name codec).Yields a) : codec.Yields a := by
  rcases h with hread | habsent | hcut
  · exact hread
  · exact nomatch habsent
  · exact nomatch hcut

theorem Field.yields_of_optional {name : String} {codec : Codec α} {value : Option α}
    (h : (optional name codec).Yields value) : ∀ a ∈ value, codec.Yields a := by
  rcases h with hread | habsent | hcut
  · exact Codec.yields_of_yields_optional hread
  · obtain rfl := Option.some.inj habsent
    exact nofun
  · obtain rfl := Option.some.inj hcut
    exact nofun

namespace Fields

/-- Each field can come to have its value. -/
def Yield : {τ σ : Type} → Fields τ σ → τ → Prop
  | _, _, .nil, _ => True
  | _, _, .cons field rest, (a, values) => field.Yields a ∧ rest.Yield values

/-- What was found so far was read by the codecs of the fields. -/
def Found : {τ σ : Type} → Fields τ σ → σ → Prop
  | _, _, .nil, _ => True
  | _, _, .cons field rest, (found, others) => (∀ a ∈ found, field.codec.Yields a) ∧
      rest.Found others

theorem found_unread {τ σ : Type} (fields : Fields τ σ) : fields.Found fields.unread := by
  induction fields with
  | nil => exact trivial
  | cons field rest ih => exact ⟨fun a ha => absurd ha (Option.not_mem_none a), ih⟩

theorem gives_readEntry {τ σ : Type} {fields : Fields τ σ} {name : String} {found : σ}
    {r : Reader σ} (hfound : fields.Found found) (h : fields.readEntry name found = some r) :
    r.Gives fields.Found := by
  induction fields with
  | nil => exact nomatch h
  | cons field rest ih =>
      obtain ⟨first, others⟩ := found
      obtain ⟨hfirst, hothers⟩ := hfound
      unfold readEntry at h
      split at h
      · obtain rfl := Option.some.inj h
        cases first with
        | some a => exact gives_failUnplaced _
        | none =>
            refine gives_behind fun _ => gives_bind field.codec.gives_yields fun a ha => ?_
            exact gives_pure ⟨fun b hb => Option.some.inj hb ▸ ha, hothers⟩
      · obtain ⟨r', hr', rfl⟩ := Option.map_eq_some_iff.mp h
        exact gives_bind (ih hothers hr') fun others hothers => gives_pure ⟨hfirst, hothers⟩

theorem gives_readEntries {τ σ : Type} {fields : Fields τ σ} {unknown : String → Reader Unit}
    {fuel : Nat} {isFirst : Bool} {found : σ} (hfound : fields.Found found) :
    (fields.readEntries unknown fuel isFirst found).Gives fields.Found := by
  induction fuel generalizing isFirst found with
  | zero => exact gives_pure hfound
  | succ fuel ih =>
      refine gives_behind fun key => ?_
      cases key with
      | none => exact gives_pure hfound
      | some name =>
          dsimp only
          split
          · next r hr => exact gives_bind (gives_readEntry hfound hr) fun _ hnext => ih hnext
          · exact gives_behind fun _ => ih hfound

theorem yield_of_complete {τ σ : Type} {fields : Fields τ σ} {found : σ} {values : τ}
    (hfound : fields.Found found) (h : fields.complete found = .ok values) :
    fields.Yield values := by
  induction fields with
  | nil => exact trivial
  | cons field rest ih =>
      obtain ⟨first, others⟩ := found
      obtain ⟨hfirst, hothers⟩ := hfound
      unfold complete at h
      split at h
      · next a ha =>
        cases hrest : rest.complete others with
        | error cause =>
            rw [hrest] at h
            exact nomatch h
        | ok values =>
            rw [hrest] at h
            obtain rfl := Except.ok.inj h
            refine ⟨?_, ih hothers hrest⟩
            rcases Option.or_eq_some_iff.mp ha with hread | ⟨-, habsent⟩
            · exact Or.inl (hfirst a hread)
            · exact Or.inr (Or.inl habsent)
      · exact nomatch h

theorem gives_readElements (expected : String) {τ σ : Type} (fields : Fields τ σ)
    (position : Nat) : (fields.readElements expected position).Gives fields.Yield := by
  induction fields generalizing position with
  | nil => exact gives_pure trivial
  | cons field rest ih =>
      refine gives_behind fun more => ?_
      split
      · refine gives_bind field.codec.gives_yields fun a ha => ?_
        exact gives_bind (ih (position + 1)) fun values hvalues =>
          gives_pure ⟨Or.inl ha, hvalues⟩
      · split
        · next a ha =>
          exact gives_bind (ih (position + 1)) fun values hvalues =>
            gives_pure ⟨Or.inr (Or.inr ha), hvalues⟩
        · exact gives_failUnplaced _

end Fields

/-- A record that is read is made of values that its fields can come to have, whether it was
written as an object or as a list. -/
theorem Codec.exists_of_yields_recordWith {τ σ : Type} {style : RecordStyle} {fields : Fields τ σ}
    {make : τ → Except String α} {view : α → τ} {a : α}
    (h : (recordWith style fields make view).Yields a) :
    ∃ values, fields.Yield values ∧ make values = .ok a := by
  obtain ⟨c, c', heq⟩ := h
  have hbuild {values : τ} (hvalues : fields.Yield values) :
      (recordWith.build make values).Gives fun a =>
        ∃ values, fields.Yield values ∧ make values = .ok a := by
    unfold recordWith.build
    split
    · next hmake => exact gives_pure ⟨values, hvalues, hmake⟩
    · exact gives_failUnplaced _
  refine gives_behind (Q := fun a => ∃ values, fields.Yield values ∧ make values = .ok a)
    (fun b => ?_) c a c' heq
  cases b with
  | none => exact gives_failNext _
  | some b =>
      refine gives_located ?_
      split_ifs
      · refine gives_behind fun _ => gives_closedBy ?_
        exact gives_bind (fields.gives_readElements _ 0) fun values => hbuild
      · refine gives_behind fun _ => gives_closedBy (gives_behind fun c => ?_)
        refine gives_bind (Fields.gives_readEntries fields.found_unread) fun found hfound => ?_
        split
        · next values hvalues => exact hbuild (Fields.yield_of_complete hfound hvalues)
        · exact gives_failUnplaced _
      · exact gives_failType _

theorem Codec.exists_of_yields_record {τ σ : Type} {name : String} {fields : Fields τ σ}
    {make : τ → α} {view : α → τ} {a : α} (h : (record name fields make view).Yields a) :
    ∃ values, fields.Yield values ∧ make values = a := by
  obtain ⟨values, hvalues, hmake⟩ := exists_of_yields_recordWith h
  exact ⟨values, hvalues, Except.ok.inj hmake⟩

end Courier.Json
