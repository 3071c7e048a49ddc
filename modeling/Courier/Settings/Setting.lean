import Courier.Number.Shortest
import Courier.Text.Quoted

/-!
Settings as they come from their sources, before they are given a meaning: single values, lists,
and tables of named settings. Tables of several sources are laid over each other; where both have
a table under a name the tables are laid over each other too, else the upper one counts.
-/

namespace Courier

/-- A floating-point value of a source. -/
inductive Real where
  | finite (value : Binary64)
  | infinite (negative : Bool)
  | notANumber

/-- All digits of the shortest decimal that reads back, without an exponent. -/
def Real.text : Real → String
  | .finite x =>
    let digits := x.shortest.positional false
    String.ofList (if x.negative then '-' :: digits else digits)
  | .infinite negative => if negative then "-inf" else "inf"
  | .notANumber => "NaN"

inductive Setting where
  | absent
  | boolean (value : Bool)
  | unsigned (value : Nat)
  | signed (value : Int)
  | float (value : Real)
  | text (value : String)
  | list (elements : List Setting)
  | table (entries : List (String × Setting))

namespace Setting

/-- What a setting is, in messages. -/
def describe : Setting → String
  | .absent => "unit"
  | .boolean b => s!"bool {b}"
  | .unsigned n => s!"unsigned int `{n}`"
  | .signed n => s!"signed int `{n}`"
  | .float x => s!"float `{x.text}`"
  | .text s => "string " ++ Text.quoted s
  | .list _ => "sequence"
  | .table _ => "map"

/-- The entries with one of them set. They stay in the order of their names. -/
def put (name : String) (value : Setting) :
    List (String × Setting) → List (String × Setting)
  | [] => [(name, value)]
  | (other, kept) :: rest =>
    if name = other then (name, value) :: rest
    else if name < other then (name, value) :: (other, kept) :: rest
    else (other, kept) :: put name value rest

theorem lookup_put_self (name : String) (value : Setting) (entries : List (String × Setting)) :
    (put name value entries).lookup name = some value := by
  induction entries with
  | nil => simp [put]
  | cons entry rest ih =>
    obtain ⟨found, kept⟩ := entry
    unfold put
    split
    · simp
    · rename_i h
      split
      · simp
      · simp [List.lookup_cons, beq_false_of_ne h, ih]

theorem lookup_put_of_ne {name other : String} (h : other ≠ name) (value : Setting)
    (entries : List (String × Setting)) :
    (put name value entries).lookup other = entries.lookup other := by
  induction entries with
  | nil => simp [put, List.lookup_cons, beq_false_of_ne h]
  | cons entry rest ih =>
    obtain ⟨found, kept⟩ := entry
    unfold put
    split
    · rename_i same
      subst same
      simp [List.lookup_cons, beq_false_of_ne h]
    · split <;> simp [List.lookup_cons, beq_false_of_ne h, ih]

mutual

/-- One setting laid over another. -/
def overlay (below : Setting) : Setting → Setting
  | .table entries =>
    match below with
    | .table kept => .table (overlayEntries kept entries)
    | _ => .table (overlayEntries [] entries)
  | above => above

/-- The entries of a table laid over those of another. -/
def overlayEntries (kept : List (String × Setting)) :
    List (String × Setting) → List (String × Setting)
  | [] => kept
  | (name, above) :: rest =>
    overlayEntries (put name (overlay ((kept.lookup name).getD .absent) above) kept) rest

end

end Setting
end Courier
