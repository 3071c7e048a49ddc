import Courier.Settings.Setting

/-!
The tables of a TOML document while it is read. A table remembers how it came about, because that
decides who may still add to it: a table may have one header, unless it is one of several under a
name; a dotted name adds to tables that dotted names made, and passes through those that headers
of inner tables imply.
-/

namespace Courier.Toml

/-- How a table came about. -/
inductive Origin where
  /-- It has a header of its own. -/
  | header
  /-- The header of a table inside it names it. -/
  | implied
  /-- A dotted name names it. -/
  | dotted
  deriving DecidableEq

/-- What stands under a name: a value, a table, or several tables, of which the last is open. -/
inductive Node where
  | value (setting : Setting)
  | table (origin : Origin) (entries : List (String × Node))
  | tables (earlier : List (List (String × Node))) (last : List (String × Node))

abbrev Entries := List (String × Node)

namespace Entries

/-- The entries with one of them set, in its place or at the end. -/
def set (key : String) (node : Node) : Entries → Entries
  | [] => [(key, node)]
  | (other, kept) :: rest =>
    if key = other then (key, node) :: rest else (other, kept) :: set key node rest

theorem lookup_set_self (key : String) (node : Node) (entries : Entries) :
    (set key node entries).lookup key = some node := by
  induction entries with
  | nil => simp [set]
  | cons entry rest ih =>
    obtain ⟨found, kept⟩ := entry
    unfold set
    split
    · simp
    · rename_i h
      simp [List.lookup_cons, beq_false_of_ne h, ih]

theorem lookup_set_of_ne {key other : String} (h : other ≠ key) (node : Node)
    (entries : Entries) : (set key node entries).lookup other = entries.lookup other := by
  induction entries with
  | nil => simp [set, List.lookup_cons, beq_false_of_ne h]
  | cons entry rest ih =>
    obtain ⟨found, kept⟩ := entry
    unfold set
    split
    · rename_i same
      subst same
      simp [List.lookup_cons, beq_false_of_ne h]
    · simp [List.lookup_cons, ih]

/-- Changes the table of that path. Tables that are missing are implied. -/
def change (f : Entries → Option Entries) : List String → Entries → Option Entries
  | [], entries => f entries
  | key :: path, entries => do
    let node ← match entries.lookup key with
      | none => (change f path []).map (.table .implied)
      | some (.value _) => none
      | some (.table origin inner) => (change f path inner).map (.table origin)
      | some (.tables earlier last) => (change f path last).map (.tables earlier)
    return set key node entries

/-- Gives the table of a path its header. -/
def addHeader (path : List String) (key : String) : Entries → Option Entries :=
  change (fun entries =>
    match entries.lookup key with
    | none => some (set key (.table .header []) entries)
    | some (.table .implied inner) => some (set key (.table .header inner) entries)
    | _ => none) path

/-- Adds one more table to those of a path. -/
def addElement (path : List String) (key : String) : Entries → Option Entries :=
  change (fun entries =>
    match entries.lookup key with
    | none => some (set key (.tables [] []) entries)
    | some (.tables earlier last) => some (set key (.tables (earlier ++ [last]) []) entries)
    | _ => none) path

/-- Sets the value of a dotted name, which must be new. The table it stands in, if the name has
more than one part, must come from dotted names. -/
def assign (setting : Setting) : List String → Entries → Option Entries
  | [], _ => none
  | [key], entries =>
    match entries.lookup key with
    | none => some (set key (.value setting) entries)
    | some _ => none
  | key :: next :: path, entries => do
    let node ← match entries.lookup key with
      | none => (assign setting (next :: path) []).map (.table .dotted)
      | some (.table .dotted inner) => (assign setting (next :: path) inner).map (.table .dotted)
      | some (.table .implied inner) =>
        if path.isEmpty then none
        else (assign setting (next :: path) inner).map (.table .implied)
      | some (.tables earlier last) =>
        if path.isEmpty then none
        else (assign setting (next :: path) last).map (.tables earlier)
      | _ => none
    return set key node entries

end Entries

mutual

def Node.toSetting : Node → Setting
  | .value setting => setting
  | .table _ entries => .table (toSettings entries)
  | .tables earlier last => .list (elements earlier ++ [.table (toSettings last)])

def toSettings : List (String × Node) → List (String × Setting)
  | [] => []
  | (key, node) :: rest => Setting.put key node.toSetting (toSettings rest)

def elements : List (List (String × Node)) → List Setting
  | [] => []
  | entries :: rest => .table (toSettings entries) :: elements rest

end

end Courier.Toml
