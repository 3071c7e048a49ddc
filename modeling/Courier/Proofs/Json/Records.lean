import Courier.Proofs.Json.Scalars

/-!
Records survive being written and read. What is written are the entries of the fields that are not
omitted, in order. Reading follows them: with the fields before it found, each entry is that of the
first field left, so in the end exactly the written fields are found, and the omitted ones get back
the values for which they were omitted.
-/

namespace Courier.Json

open Reader

namespace Fields

/-- The fields of a record each give their value back: as the codec of the field wrote it, or as
the value of an absent field if it was omitted. -/
def ReadBack : {τ σ : Type} → Fields τ σ → τ → Prop
  | _, _, .nil, _ => True
  | _, _, .cons field rest, (a, values) =>
    (if field.omitted a then field.absent = some a else field.codec.ReadsBack a) ∧
      rest.ReadBack values

/-- What is found of the values of a record once it is written. -/
def written : {τ σ : Type} → Fields τ σ → τ → σ
  | _, _, .nil, _ => ()
  | _, _, .cons field rest, (a, values) =>
    (if field.omitted a then none else some a, rest.written values)

theorem complete_written {τ σ : Type} (fields : Fields τ σ) (values : τ)
    (h : fields.ReadBack values) : fields.complete (fields.written values) = .ok values := by
  induction fields with
  | nil => rfl
  | cons field rest ih =>
      obtain ⟨a, values⟩ := values
      obtain ⟨hfield, hrest⟩ := h
      simp only [complete, written]
      by_cases homitted : field.omitted a
      · rw [if_pos homitted] at hfield
        simp only [if_pos homitted, Option.none_or, hfield, ih values hrest]
        rfl
      · simp only [if_neg homitted, Option.some_or, ih values hrest]
        rfl

/-- The values of two records are written alike, field by field. -/
def Alike : {τ σ : Type} → Fields τ σ → τ → τ → Prop
  | _, _, .nil, _, _ => True
  | _, _, .cons field rest, (a, values), (b, others) =>
    (field.omitted a = field.omitted b ∧ field.codec.write a = field.codec.write b) ∧
      rest.Alike values others

theorem Alike.entries_eq {τ σ : Type} {fields : Fields τ σ} {values others : τ}
    (h : fields.Alike values others) : fields.entries values = fields.entries others := by
  induction fields with
  | nil => rfl
  | cons field rest ih =>
      obtain ⟨a, values⟩ := values
      obtain ⟨b, others⟩ := others
      obtain ⟨⟨homitted, hwrite⟩, hrest⟩ := h
      simp only [entries, homitted, hwrite, ih hrest]

end Fields

/-! ## Entries -/

/-- The entries that are left of an object, with a comma in front unless they are its first. -/
def entriesText (isFirst : Bool) (entries : List (String × Bytes)) : Bytes :=
  if entries = [] then [] else (if isFirst then [] else [byte ',']) ++ joinEntries entries

private theorem joinEntries_cons (name : String) (value : Bytes)
    (entries : List (String × Bytes)) :
    joinEntries ((name, value) :: entries) =
      quote name ++ byte ':' :: (value ++ entriesText false entries) := by
  cases entries with
  | nil => simp [joinEntries, entriesText]
  | cons entry entries => rfl

private theorem length_le_joinEntries (entries : List (String × Bytes)) :
    entries.length ≤ (joinEntries entries).length := by
  induction entries with
  | nil => exact Nat.zero_le _
  | cons entry entries ih =>
      obtain ⟨name, value⟩ := entry
      rw [joinEntries_cons]
      simp only [List.length_cons, List.length_append, entriesText]
      split
      · next hnil =>
        subst hnil
        simp only [List.length_nil]
        omega
      · simp only [List.length_append]
        omega

private theorem closed_entriesText (entries : List (String × Bytes)) (rest : Bytes) :
    Closed (entriesText false entries ++ byte '\x7d' :: rest) := by
  by_cases hnil : entries = []
  · simp only [entriesText, if_pos hnil]
    exact Or.inr ⟨_, Or.inr rfl⟩
  · simp only [entriesText, if_neg hnil]
    exact Or.inr ⟨_, Or.inl rfl⟩

namespace Reader

theorem takes_nextKey_end (isFirst : Bool) (rest : Bytes) :
    (nextKey isFirst).Takes [] (byte '\x7d' :: rest) none := by
  apply takes_look (takes_peekToken (by decide) _)
  exact takes_pure _ _

private theorem takes_key (name : String) (rest : Bytes) :
    (nextKey.key (some (byte '"'))).Takes (quote name) rest (some name) := by
  apply takes_bind (t := [byte '"']) (takes_advance _ _)
  exact takes_last (takes_string name rest) (takes_pure _ _)

theorem takes_nextKey (isFirst : Bool) (name : String) (rest : Bytes) :
    (nextKey isFirst).Takes ((if isFirst then [] else [byte ',']) ++ quote name) rest
      (some name) := by
  cases isFirst with
  | true =>
      apply takes_look (takes_peekToken (by decide) _)
      exact takes_key name rest
  | false =>
      apply takes_look (takes_peekToken (by decide) _)
      apply takes_bind (t := [byte ',']) (takes_advance _ _)
      apply takes_look (takes_peekToken (by decide) _)
      exact takes_key name rest

end Reader

namespace Fields

/-- An entry for the first field, none of whose values is found yet. -/
private theorem readEntry_first {α τ σ : Type} (field : Field α) (rest : Fields τ σ) (others : σ) :
    (Fields.cons field rest).readEntry field.name (none, others) =
      some (do colon; return (some (← field.codec.read), others)) := by
  simp only [readEntry, if_pos]

/-- An entry for a later field leaves the first one alone. -/
private theorem readEntry_later {α τ σ : Type} (field : Field α) (rest : Fields τ σ)
    {name : String} (h : field.name ≠ name) (found : Option α) (others : σ) :
    (Fields.cons field rest).readEntry name (found, others) =
      (rest.readEntry name others).map fun r => (fun s => (found, s)) <$> r := by
  simp only [readEntry, if_neg h]
  rfl

/-- Reading goes through the entries of the last fields of a record. What is found of the others
stays as it is in `place`. -/
private theorem takes_readEntries_last {T S : Type} {whole : Fields T S}
    (unknown : String → Reader Unit) {τ σ : Type} (fields : Fields τ σ) :
    ∀ {values : τ} {place : σ → S} {fuel : Nat} (isFirst : Bool) (rest : Bytes),
      fields.names.Nodup → fields.ReadBack values →
      (∀ name ∈ fields.names, ∀ s, whole.readEntry name (place s) =
        (fields.readEntry name s).map fun r => place <$> r) →
      (fields.entries values).length < fuel →
      (whole.readEntries unknown fuel isFirst (place fields.unread)).Takes
        (entriesText isFirst (fields.entries values)) (byte '\x7d' :: rest)
        (place (fields.written values)) := by
  induction fields with
  | nil =>
      intro values place fuel isFirst rest hnodup hback hplace hfuel
      obtain ⟨fuel, rfl⟩ := Nat.exists_eq_succ_of_ne_zero (Nat.ne_of_gt hfuel)
      apply takes_look (takes_nextKey_end isFirst rest)
      exact takes_pure _ _
  | cons field others ih =>
      intro values place fuel isFirst rest hnodup hback hplace hfuel
      obtain ⟨a, values⟩ := values
      obtain ⟨hfield, hback⟩ := hback
      obtain ⟨hnew, hnodup⟩ := List.nodup_cons.mp hnodup
      have hlater (found) : ∀ name ∈ others.names, ∀ s, whole.readEntry name (place (found, s)) =
          (others.readEntry name s).map fun r => (fun s => place (found, s)) <$> r := by
        intro name hname s
        have hne : field.name ≠ name := fun h => hnew (h ▸ hname)
        rw [hplace name (List.mem_cons_of_mem _ hname), readEntry_later _ _ hne, Option.map_map]
        congr 1
        funext r
        simp only [Function.comp_apply, Functor.map_map]
      by_cases homitted : field.omitted a
      · simp only [entries, written, unread, if_pos homitted] at hfuel ⊢
        exact ih isFirst rest hnodup hback (hlater none) hfuel
      · simp only [entries, written, unread, if_neg homitted] at hfield hfuel ⊢
        obtain ⟨fuel, rfl⟩ := Nat.exists_eq_succ_of_ne_zero (Nat.ne_zero_of_lt hfuel)
        have htext : entriesText isFirst
            ((field.name, field.codec.write a) :: others.entries values) =
            ((if isFirst then [] else [byte ',']) ++ quote field.name) ++
              (([byte ':'] ++ field.codec.write a) ++
                entriesText false (others.entries values)) := by
          simp only [entriesText, if_neg (List.cons_ne_nil _ _), joinEntries_cons]
          simp
        have hentry := hplace field.name (List.mem_cons_self ..) (none, others.unread)
        rw [readEntry_first, Option.map_some] at hentry
        rw [htext]
        apply takes_bind (takes_nextKey isFirst field.name _)
        dsimp only
        rw [hentry]
        refine takes_bind (takes_map place (takes_bind (takes_colon _)
          (takes_last (hfield.takes _ (closed_entriesText _ _)) (takes_pure _ _)))) ?_
        exact ih false rest hnodup hback (hlater (some a)) (by simpa using hfuel)

theorem takes_readEntries {τ σ : Type} {fields : Fields τ σ} {unknown : String → Reader Unit}
    {values : τ} {fuel : Nat} (hnodup : fields.names.Nodup) (hback : fields.ReadBack values)
    (hfuel : (fields.entries values).length < fuel) (rest : Bytes) :
    (fields.readEntries unknown fuel true fields.unread).Takes
      (joinEntries (fields.entries values)) (byte '\x7d' :: rest) (fields.written values) := by
  have htext : entriesText true (fields.entries values) =
      joinEntries (fields.entries values) := by
    cases hentries : fields.entries values with
    | nil => rfl
    | cons entry entries => simp [entriesText]
  have hplace : ∀ name ∈ fields.names, ∀ s, fields.readEntry name (id s) =
      (fields.readEntry name s).map fun r => id <$> r := by
    intro name _ s
    simp
  have hread := takes_readEntries_last unknown fields true rest hnodup hback hplace
    hfuel
  rwa [htext] at hread

end Fields

/-- A record reads back if each of its fields does. -/
theorem Codec.readsBack_recordWith {α τ σ : Type} {style : RecordStyle} {fields : Fields τ σ}
    {make : τ → Except String α} {view : α → τ} {a : α} (hnodup : fields.names.Nodup)
    (hback : fields.ReadBack (view a)) (hmake : make (view a) = .ok a) :
    (Codec.recordWith style fields make view).ReadsBack a where
  takes rest _ := by
    apply takes_look (takes_peekToken (by decide) _)
    dsimp only
    apply takes_located
    rw [if_neg (by decide), if_pos rfl]
    apply takes_bind (t := [byte '\x7b']) (takes_advance _ _)
    refine takes_closedBy ?_ (takes_objectEnd rest)
    refine takes_get fun i => ?_
    have hfuel := length_le_joinEntries (fields.entries (view a))
    refine takes_last (Fields.takes_readEntries hnodup hback ?_ rest) ?_
    · simp only [List.length_append]
      omega
    · rw [fields.complete_written (view a) hback]
      dsimp only [Codec.recordWith.build]
      rw [hmake]
      exact takes_pure _ _
  head := ⟨_, _, rfl, by decide, by decide⟩

theorem Codec.readsBack_record {α τ σ : Type} {name : String} {fields : Fields τ σ} {make : τ → α}
    {view : α → τ} {a : α} (hnodup : fields.names.Nodup) (hback : fields.ReadBack (view a))
    (hmake : make (view a) = a) : (Codec.record name fields make view).ReadsBack a :=
  readsBack_recordWith hnodup hback (congrArg _ hmake)

theorem Codec.write_record {α τ σ : Type} {name : String} {fields : Fields τ σ} {make : τ → α}
    {view : α → τ} {a b : α} (h : fields.Alike (view a) (view b)) :
    (Codec.record name fields make view).write a = (Codec.record name fields make view).write b :=
  congrArg objectBytes h.entries_eq

end Courier.Json
