import Courier.Json.Reader

/-!
What it means that a reader takes a text: it consumes the text from the front of any cursor and
gives a value. The readers built from smaller ones take the texts of their parts one after the
other, so a reader is followed along what a writer has written, with no arithmetic on places.
-/

namespace Courier.Json.Reader

variable {α β : Type}

/-- The reader consumes `text`, which `rest` follows, and gives `a`. -/
def Takes (r : Reader α) (text rest : Bytes) (a : α) : Prop :=
  ∀ i, r ⟨text ++ rest, i⟩ = .ok a ⟨rest, i + text.length⟩

theorem takes_pure (a : α) (rest : Bytes) : Takes (pure a) [] rest a := by
  intro i
  rfl

theorem takes_bind {r : Reader α} {f : α → Reader β} {t u rest : Bytes} {a : α} {b : β}
    (hr : r.Takes t (u ++ rest) a) (hf : (f a).Takes u rest b) :
    (r >>= f).Takes (t ++ u) rest b := by
  intro i
  have hfirst := hr i
  have hsecond := hf (i + t.length)
  change EStateM.bind r f _ = _
  rw [List.append_assoc]
  simp only [EStateM.bind, hfirst, hsecond, List.length_append, Nat.add_assoc]

/-- A reader that consumes nothing before it goes on. -/
theorem takes_look {r : Reader α} {f : α → Reader β} {t rest : Bytes} {a : α} {b : β}
    (hr : r.Takes [] (t ++ rest) a) (hf : (f a).Takes t rest b) :
    (r >>= f).Takes t rest b :=
  takes_bind hr hf

/-- A reader after which nothing more is consumed. -/
theorem takes_last {r : Reader α} {f : α → Reader β} {t rest : Bytes} {a : α} {b : β}
    (hr : r.Takes t rest a) (hf : (f a).Takes [] rest b) :
    (r >>= f).Takes t rest b := by
  have h := takes_bind (f := f) (u := []) hr hf
  rwa [List.append_nil] at h

theorem takes_map {r : Reader α} {t rest : Bytes} {a : α} (f : α → β)
    (hr : r.Takes t rest a) : (f <$> r).Takes t rest (f a) := by
  intro i
  have h := hr i
  change EStateM.map f r _ = _
  simp only [EStateM.map, h]

theorem get_bind (f : Cursor → Reader α) (c : Cursor) : (get >>= f) c = f c c := rfl

theorem set_bind (f : PUnit → Reader α) (c c' : Cursor) : (set c' >>= f) c = f ⟨⟩ c' := rfl

/-- A reader that looks at the whole cursor first. -/
theorem takes_get {f : Cursor → Reader α} {t rest : Bytes} {a : α}
    (h : ∀ i, (f ⟨t ++ rest, i⟩).Takes t rest a) : (get >>= f).Takes t rest a := by
  intro i
  exact h i i

theorem takes_located {r : Reader α} {t rest : Bytes} {a : α} (h : r.Takes t rest a) :
    (located r).Takes t rest a := by
  intro i
  simp only [located, h i]

theorem takes_closedBy {r : Reader α} {close : Reader Unit} {t u rest : Bytes} {a : α}
    (hr : r.Takes t (u ++ rest) a) (hclose : close.Takes u rest ()) :
    (closedBy r close).Takes (t ++ u) rest a := by
  intro i
  have hfirst := hr i
  have hsecond := hclose (i + t.length)
  rw [List.append_assoc]
  simp only [closedBy, hfirst, hsecond, List.length_append, Nat.add_assoc]

/-! ## Single bytes -/

theorem takes_peek (b : UInt8) (rest : Bytes) : peek.Takes [] (b :: rest) (some b) := by
  intro i
  rfl

theorem takes_peek_head (rest : Bytes) : peek.Takes [] rest rest.head? := by
  intro i
  rfl

theorem takes_advance (b : UInt8) (rest : Bytes) : advance.Takes [b] rest () := by
  intro i
  rfl

theorem takes_next (b : UInt8) (rest : Bytes) : next.Takes [b] rest (some b) := by
  intro i
  rfl

theorem takes_peekToken {b : UInt8} (h : isBlank b = false) (rest : Bytes) :
    peekToken.Takes [] (b :: rest) (some b) := by
  intro i
  change EStateM.Result.ok (pastBlanks (b :: rest) i).rest.head? (pastBlanks (b :: rest) i) = _
  simp [pastBlanks, h]

theorem takes_textEnd : textEnd.Takes [] [] () := by
  intro i
  rfl

theorem takes_colon (rest : Bytes) : colon.Takes [byte ':'] rest () :=
  takes_look (takes_peekToken rfl _) (takes_advance _ _)

theorem takes_objectEnd (rest : Bytes) : objectEnd.Takes [byte '\x7d'] rest () :=
  takes_look (takes_peekToken rfl _) (takes_advance _ _)

/-- The letters that a keyword goes on with. -/
theorem takes_keyword (cs : List Char) (rest : Bytes) :
    (keyword cs).Takes (cs.map byte) rest () := by
  induction cs with
  | nil => exact takes_pure () rest
  | cons c cs ih =>
      apply takes_bind (t := [byte c]) (takes_next _ _)
      simpa using ih

/-- A reader that takes the whole of a text reads it. -/
theorem readAll_of_takes {r : Reader α} {text : Bytes} {a : α} (h : r.Takes text [] a) :
    readAll r text = .ok a := by
  have hall : Takes (do let a ← r; textEnd; return a) text [] a :=
    takes_last h (takes_look takes_textEnd (takes_pure a []))
  have hrun := hall 0
  rw [List.append_nil] at hrun
  simp only [readAll, hrun]

end Courier.Json.Reader
