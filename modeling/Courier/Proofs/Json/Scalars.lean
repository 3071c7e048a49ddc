import Courier.Proofs.Json.Strings

/-!
Single values survive being written and read: strings and what is read from them, whole numbers,
truth values, and names of an enumeration. The end of a number is only known from what follows it,
so each statement is about a value that is followed by nothing, a comma or a closing brace.
-/

namespace Courier.Json

open Reader

/-- What may follow a value: nothing, a comma or a closing brace. -/
def Closed (rest : Bytes) : Prop :=
  rest = [] ∨ ∃ tail, rest = byte ',' :: tail ∨ rest = byte '\x7d' :: tail

/-- The codec reads `a` back from what it writes for it, whatever may follow. What it writes
begins with a token that is no blank and no null. -/
structure Codec.ReadsBack {α : Type} (codec : Codec α) (a : α) : Prop where
  takes : ∀ rest, Closed rest → codec.read.Takes (codec.write a) rest a
  head : ∃ b tail, codec.write a = b :: tail ∧ isBlank b = false ∧ b ≠ byte 'n'

theorem Codec.decode_write {α : Type} {codec : Codec α} {a : α} (h : codec.ReadsBack a) :
    codec.decode (codec.write a) = .ok a :=
  readAll_of_takes (h.takes [] (Or.inl rfl))

/-! ## Digits -/

/-- A text of ASCII characters has one byte for each of them. -/
theorem ofString_ascii (cs : List Char) (h : ∀ c ∈ cs, c.toNat < 128) :
    Bytes.ofString (String.ofList cs) = cs.map byte := by
  have hbytes : cs.flatMap String.utf8EncodeChar = cs.map byte := by
    induction cs with
    | nil => rfl
    | cons c cs ih =>
        have hsize : c.utf8Size = 1 := by
          rw [Char.utf8Size_eq_one_iff, UInt32.le_iff_toNat_le]
          exact Nat.le_of_lt_succ (h c (by simp))
        rw [List.flatMap_cons, String.utf8EncodeChar_eq_singleton hsize,
          ih fun d hd => h d (by simp [hd])]
        rfl
  simp only [Bytes.ofString, String.toByteArray_ofList, List.utf8Encode,
    List.toList_data_toByteArray, hbytes]

private theorem digit_bounds {c : Char} (h : c.isDigit = true) : 48 ≤ c.toNat ∧ c.toNat ≤ 57 := by
  simp only [Char.isDigit, Bool.and_eq_true, decide_eq_true_eq, ge_iff_le,
    UInt32.le_iff_toNat_le] at h
  exact h

private theorem toNat_byte {c : Char} (h : c.isDigit = true) : (byte c).toNat = c.toNat := by
  have := digit_bounds h
  simp only [byte, Nat.toUInt8_eq, UInt8.toNat_ofNat']
  omega

theorem isDigit_byte {c : Char} (h : c.isDigit = true) : Reader.isDigit (byte c) = true := by
  have hbounds := digit_bounds h
  have hvalue := toNat_byte h
  simp only [Reader.isDigit, Bool.and_eq_true, decide_eq_true_eq, UInt8.le_iff_toNat_le, hvalue]
  exact hbounds

theorem digitOf_byte {c : Char} (h : c.isDigit = true) :
    digitOf (byte c) = c.toNat - '0'.toNat := by
  rw [digitOf, toNat_byte h]
  rfl

theorem not_blank_of_isDigit {b : UInt8} (h : Reader.isDigit b = true) : isBlank b = false := by
  by_contra hblank
  simp only [isBlank, Bool.not_eq_false, Bool.or_eq_true, beq_iff_eq] at hblank
  rcases hblank with ((rfl | rfl) | rfl) | rfl <;> exact absurd h (by decide)

/-- The digits of a number above zero do not begin with a zero. -/
theorem toDigits_head_ne_zero (n : Nat) (h : 0 < n) :
    ∃ c cs, Nat.toDigits 10 n = c :: cs ∧ c ≠ '0' := by
  induction n using Nat.strongRecOn with
  | ind n ih =>
      by_cases hlt : n < 10
      · refine ⟨n.digitChar, [], Nat.toDigits_of_lt_base hlt, ?_⟩
        intro hzero
        have := Nat.digitChar_eq_zero.mp hzero
        omega
      · obtain ⟨c, cs, hcs, hc⟩ := ih (n / 10) (by omega) (by omega)
        refine ⟨c, cs ++ [(n % 10).digitChar], ?_, hc⟩
        rw [Nat.toDigits_of_base_le (by omega) (by omega), hcs, List.cons_append]

private theorem le_ofDigitChars (cs : List Char) (value : Nat) :
    value ≤ Nat.ofDigitChars 10 cs value := by
  induction cs generalizing value with
  | nil => simp
  | cons c cs ih =>
      rw [Nat.ofDigitChars_cons]
      have := ih (10 * value + (c.toNat - '0'.toNat))
      omega

/-- A run of digits within a limit, in front of anything that is no digit. -/
theorem Reader.takes_boundedDigits (limit : Nat) {cs : List Char} {fuel : Nat} (value : Nat)
    (hdigits : ∀ c ∈ cs, c.isDigit = true) (hfuel : cs.length ≤ fuel)
    (hlimit : Nat.ofDigitChars 10 cs value ≤ limit) (count : Nat) {rest : Bytes}
    (hrest : ∀ b ∈ rest.head?, Reader.isDigit b = false) :
    (boundedDigits limit fuel value count).Takes (cs.map byte) rest
      (Nat.ofDigitChars 10 cs value, count + cs.length, false) := by
  induction cs generalizing fuel value count with
  | nil =>
      cases fuel with
      | zero => exact takes_pure _ _
      | succ fuel =>
          apply takes_look (takes_peek_head rest)
          cases hhead : rest.head? with
          | none => exact takes_pure _ _
          | some b =>
              dsimp only
              rw [hrest b hhead]
              exact takes_pure _ _
  | cons c cs ih =>
      obtain ⟨fuel, rfl⟩ := Nat.exists_eq_succ_of_ne_zero (by simp at hfuel; omega : fuel ≠ 0)
      have hc := hdigits c (by simp)
      rw [Nat.ofDigitChars_cons] at hlimit
      have hvalue : value * 10 + digitOf (byte c) = 10 * value + (c.toNat - '0'.toNat) := by
        rw [digitOf_byte hc, Nat.mul_comm]
      have hnext := le_ofDigitChars cs (10 * value + (c.toNat - '0'.toNat))
      apply takes_look (takes_peek _ _)
      dsimp only
      rw [if_pos (isDigit_byte hc), hvalue, if_neg (by omega), Nat.ofDigitChars_cons,
        List.length_cons, Nat.add_comm cs.length 1, ← Nat.add_assoc]
      exact takes_bind (t := [byte c]) (takes_advance _ _)
        (ih _ (fun d hd => hdigits d (by simp [hd])) (by simpa using hfuel) hlimit (count + 1))

/-! ## Whole numbers -/

theorem Closed.no_digit {rest : Bytes} (h : Closed rest) :
    ∀ b ∈ rest.head?, Reader.isDigit b = false := by
  intro b hb
  rcases h with rfl | ⟨tail, rfl | rfl⟩
  · simp at hb
  all_goals
    obtain rfl : _ = b := by simpa using hb
    decide

theorem Closed.no_fraction {rest : Bytes} (h : Closed rest) : rest.head? ≠ some (byte '.') := by
  rcases h with rfl | ⟨tail, rfl | rfl⟩
  · simp
  all_goals
    simp only [List.head?_cons]
    decide

theorem Closed.no_exponent {rest : Bytes} (h : Closed rest) :
    (rest.head? == some (byte 'e') || rest.head? == some (byte 'E')) = false := by
  rcases h with rfl | ⟨tail, rfl | rfl⟩
  · rfl
  all_goals
    simp only [List.head?_cons]
    decide

/-- The whole part is all of a number that is closed behind it. -/
theorem Reader.takes_afterWhole {positive : Bool} {n : Nat} {rest : Bytes} (h : Closed rest)
    (hn : positive = false → n ≠ 0 ∧ n ≤ 2 ^ 63) :
    (afterWhole positive n).Takes [] rest
      (.whole (if positive then (n : Int) else -(n : Int))) := by
  apply takes_look (takes_peek_head rest)
  rw [if_neg h.no_fraction]
  have hexponent : atExponent.Takes [] rest false :=
    takes_look (takes_peek_head rest) (by rw [h.no_exponent]; exact takes_pure _ _)
  apply takes_look hexponent
  rw [if_neg (by decide)]
  cases positive with
  | true => exact takes_pure _ _
  | false =>
      obtain ⟨hzero, hmax⟩ := hn rfl
      rw [if_neg (by decide), if_neg (by omega)]
      exact takes_pure _ _

/-- The digits of a number of 64 bits. -/
theorem Reader.takes_unsignedNumber (positive : Bool) {n : Nat} {rest : Bytes}
    (hmax : n < 2 ^ 64) (hn : positive = false → n ≠ 0 ∧ n ≤ 2 ^ 63) (h : Closed rest) :
    (unsignedNumber positive).Takes ((Nat.toDigits 10 n).map byte) rest
      (.whole (if positive then (n : Int) else -(n : Int))) := by
  by_cases hzero : n = 0
  · subst hzero
    apply takes_last (t := [byte '0']) (takes_next _ _)
    dsimp only
    rw [if_pos rfl]
    apply takes_look (takes_peek_head rest)
    have hdigit : (rest.head?.map Reader.isDigit).getD false = false := by
      cases hhead : rest.head? with
      | none => rfl
      | some b => simpa using h.no_digit b hhead
    rw [hdigit]
    exact takes_afterWhole h hn
  · obtain ⟨c, cs, hcs, hc⟩ := toDigits_head_ne_zero n (by omega)
    have hdigits : ∀ d ∈ c :: cs, d.isDigit = true := fun d hd =>
      Nat.isDigit_of_mem_toDigits (b := 10) (n := n) (by decide) (by decide) (hcs ▸ hd)
    have hcdigit := hdigits c (by simp)
    have hne : byte c ≠ byte '0' := by
      intro heq
      have := congrArg UInt8.toNat heq
      rw [toNat_byte hcdigit, toNat_byte (by decide)] at this
      exact hc (Char.toNat_inj.mp this)
    have hvalue : Nat.ofDigitChars 10 cs (digitOf (byte c)) = n := by
      have hall := Nat.ofDigitChars_ten_toDigits (n := n)
      rw [hcs, Nat.ofDigitChars_cons, Nat.mul_zero, Nat.zero_add] at hall
      rw [digitOf_byte hcdigit, hall]
    rw [hcs, List.map_cons]
    apply takes_bind (t := [byte c]) (takes_next _ _)
    dsimp only
    rw [if_neg hne, if_pos (isDigit_byte hcdigit)]
    refine takes_get fun i => ?_
    have hfuel : cs.length ≤ (cs.map byte ++ rest).length := by simp
    have hread := takes_boundedDigits (2 ^ 64 - 1) (digitOf (byte c))
      (fun d hd => hdigits d (by simp [hd])) hfuel (by omega) 0 h.no_digit
    rw [hvalue] at hread
    apply takes_last hread
    exact takes_afterWhole h hn

/-- The bytes of a whole number, taken apart by its sign. -/
private theorem intBytes_eq (n : Int) :
    intBytes n = (if n < 0 then [byte '-'] else []) ++ (Nat.toDigits 10 n.natAbs).map byte := by
  have hascii (m : Nat) : ∀ c ∈ Nat.toDigits 10 m, c.toNat < 128 := fun c hc => by
    have := digit_bounds (Nat.isDigit_of_mem_toDigits (by decide) (by decide) hc)
    omega
  cases n with
  | ofNat m =>
      have hneg : ¬ Int.ofNat m < 0 := by simp
      rw [if_neg hneg]
      exact ofString_ascii _ (hascii m)
  | negSucc m =>
      rw [if_pos (Int.negSucc_lt_zero m)]
      have htext : toString (Int.negSucc m) = String.ofList ('-' :: Nat.toDigits 10 (m + 1)) := by
        change "-" ++ (m + 1).repr = _
        rw [Nat.repr_eq_ofList_toDigits, ← String.toList_inj]
        simp
      have hall : ∀ c ∈ '-' :: Nat.toDigits 10 (m + 1), c.toNat < 128 := by
        intro c hc
        rcases List.mem_cons.mp hc with rfl | hdigit
        · decide
        · exact hascii (m + 1) c hdigit
      rw [intBytes, htext, ofString_ascii _ hall]
      rfl

theorem Reader.takes_number {n : Int} {rest : Bytes} (hlow : -2 ^ 63 ≤ n) (hhigh : n < 2 ^ 64)
    (h : Closed rest) : number.Takes (intBytes n) rest (.whole n) := by
  rw [intBytes_eq]
  by_cases hneg : n < 0
  · rw [if_pos hneg]
    apply takes_look (takes_peek _ _)
    rw [if_pos rfl]
    apply takes_bind (takes_advance _ _)
    have hread := takes_unsignedNumber false (n := n.natAbs) (by omega) (fun _ => by omega) h
    have hvalue : -((n.natAbs : Nat) : Int) = n := by omega
    simpa only [Bool.false_eq_true, if_false, hvalue] using hread
  · rw [if_neg hneg, List.nil_append]
    obtain ⟨c, cs, hcs⟩ : ∃ c cs, Nat.toDigits 10 n.natAbs = c :: cs :=
      List.exists_cons_of_ne_nil Nat.toDigits_ne_nil
    have hdigit : c.isDigit = true := Nat.isDigit_of_mem_toDigits (b := 10) (n := n.natAbs)
      (by decide) (by decide) (by rw [hcs]; simp)
    have hminus : byte c ≠ byte '-' := by
      intro heq
      have := congrArg Reader.isDigit heq
      rw [isDigit_byte hdigit] at this
      exact absurd this (by decide)
    apply takes_look (a := some (byte c)) (by rw [hcs]; exact takes_peek _ _)
    rw [if_neg (by simpa using hminus)]
    have hread := takes_unsignedNumber true (n := n.natAbs) (by omega) (by simp) h
    have hvalue : ((n.natAbs : Nat) : Int) = n := by omega
    simpa only [if_true, hvalue] using hread

/-! ## Codecs of single values -/

namespace Codec

theorem takes_token {α : Type} {expected : String} {starts : UInt8 → Bool} {r : Reader α}
    {b : UInt8} {tail rest : Bytes} {a : α} (hblank : isBlank b = false) (hb : starts b = true)
    (h : r.Takes (b :: tail) rest a) :
    (token expected starts r).Takes (b :: tail) rest a := by
  apply takes_look (takes_peekToken hblank _)
  dsimp only
  rw [if_pos hb]
  exact takes_located h

private theorem quote_head (s : String) :
    ∃ b tail, quote s = b :: tail ∧ isBlank b = false ∧ b ≠ byte 'n' :=
  ⟨_, _, rfl, by decide, by decide⟩

theorem readsBack_parsed {α : Type} {expected : String} {parse : String → Except String α}
    {text : α → String} {a : α} (h : parse (text a) = .ok a) :
    (parsed expected parse text).ReadsBack a where
  takes rest _ := by
    apply takes_token (by decide) (by decide)
    apply takes_bind (t := [byte '"']) (takes_advance _ _)
    apply takes_last (takes_string (text a) rest)
    rw [h]
    exact takes_pure _ _
  head := quote_head (text a)

theorem readsBack_string (s : String) : string.ReadsBack s := readsBack_parsed rfl

theorem readsBack_integer {α : Type} {expected : String} {low high : Int} {ofInt : Int → α}
    {toInt : α → Int} {a : α} (hlow : -2 ^ 63 ≤ low) (hhigh : high < 2 ^ 64)
    (hbounds : low ≤ toInt a ∧ toInt a ≤ high) (h : ofInt (toInt a) = a) :
    (integer expected low high ofInt toInt).ReadsBack a := by
  have hhead : ∃ b tail, intBytes (toInt a) = b :: tail ∧
      (b == byte '-' || Reader.isDigit b) = true ∧ isBlank b = false ∧ b ≠ byte 'n' := by
    rw [intBytes_eq]
    by_cases hneg : toInt a < 0
    · rw [if_pos hneg]
      exact ⟨_, _, rfl, by decide, by decide, by decide⟩
    · rw [if_neg hneg]
      obtain ⟨c, cs, hcs⟩ : ∃ c cs, Nat.toDigits 10 (toInt a).natAbs = c :: cs :=
        List.exists_cons_of_ne_nil Nat.toDigits_ne_nil
      have hdigit : c.isDigit = true := Nat.isDigit_of_mem_toDigits (b := 10)
        (n := (toInt a).natAbs) (by decide) (by decide) (by rw [hcs]; simp)
      have hbyte := isDigit_byte hdigit
      refine ⟨byte c, cs.map byte, by rw [hcs]; rfl, by simp [hbyte], ?_, ?_⟩
      · exact not_blank_of_isDigit hbyte
      · intro heq
        rw [heq] at hbyte
        exact absurd hbyte (by decide)
  obtain ⟨b, tail, hwrite, hstarts, hblank, hn⟩ := hhead
  refine ⟨fun rest hrest => ?_, b, tail, hwrite, hblank, hn⟩
  have hnumber := takes_number (n := toInt a) (by omega) (by omega) hrest
  change (integer expected low high ofInt toInt).read.Takes (intBytes (toInt a)) rest a
  rw [hwrite] at hnumber ⊢
  apply takes_token hblank hstarts
  apply takes_last hnumber
  dsimp only
  rw [if_pos hbounds, h]
  exact takes_pure _ _

theorem readsBack_uint32 (n : UInt32) : uint32.ReadsBack n := by
  have hmax := n.toNat_lt
  refine readsBack_integer (by decide) (by decide) ⟨by omega, by omega⟩ ?_
  simp

theorem readsBack_int32 {n : Int} (hlow : -2 ^ 31 ≤ n) (hhigh : n ≤ 2 ^ 31 - 1) :
    int32.ReadsBack n :=
  readsBack_integer (by decide) (by decide) ⟨hlow, hhigh⟩ rfl

theorem readsBack_int64 {n : Int} (hlow : -2 ^ 63 ≤ n) (hhigh : n ≤ 2 ^ 63 - 1) :
    int64.ReadsBack n :=
  readsBack_integer (by decide) (by decide) ⟨hlow, hhigh⟩ rfl

theorem readsBack_boolean (b : Bool) : boolean.ReadsBack b := by
  have htrue : Bytes.ofString "true" = byte 't' :: ['r', 'u', 'e'].map byte := by decide
  have hfalse : Bytes.ofString "false" = byte 'f' :: ['a', 'l', 's', 'e'].map byte := by decide
  cases b with
  | true =>
      refine ⟨fun rest _ => ?_, byte 't', _, htrue, by decide, by decide⟩
      change boolean.read.Takes (Bytes.ofString "true") rest true
      rw [htrue]
      apply takes_token (by decide) (by decide)
      apply takes_bind (t := [byte 't']) (takes_next _ _)
      rw [if_pos rfl]
      exact takes_last (takes_keyword _ _) (takes_pure _ _)
  | false =>
      refine ⟨fun rest _ => ?_, byte 'f', _, hfalse, by decide, by decide⟩
      change boolean.read.Takes (Bytes.ofString "false") rest false
      rw [hfalse]
      apply takes_token (by decide) (by decide)
      apply takes_bind (t := [byte 'f']) (takes_next _ _)
      rw [if_neg (by decide)]
      exact takes_last (takes_keyword _ _) (takes_pure _ _)

/-- A value that is there reads back through the codec that also allows null. -/
theorem readsBack_some {α : Type} {codec : Codec α} {a : α} (h : codec.ReadsBack a) :
    codec.optional.ReadsBack (some a) := by
  obtain ⟨b, tail, hwrite, hblank, hn⟩ := h.head
  refine ⟨fun rest hrest => ?_, b, tail, hwrite, hblank, hn⟩
  have hread := h.takes rest hrest
  change codec.optional.read.Takes (codec.write a) rest (some a)
  rw [hwrite] at hread ⊢
  apply takes_look (takes_peekToken hblank _)
  rw [if_neg (by simpa using hn)]
  exact takes_last hread (takes_pure _ _)

theorem readsBack_enumeration {α : Type} {names : List (String × α)} {name : α → String} {a : α}
    (h : names.lookup (name a) = some a) : (enumeration names name).ReadsBack a where
  takes rest _ := by
    apply takes_look (takes_peekToken (by decide) _)
    dsimp only
    rw [if_pos rfl]
    apply takes_token (by decide) (by decide)
    apply takes_bind (t := [byte '"']) (takes_advance _ _)
    apply takes_last (takes_string (name a) rest)
    rw [h]
    exact takes_pure _ _
  head := quote_head (name a)

end Codec
end Courier.Json
