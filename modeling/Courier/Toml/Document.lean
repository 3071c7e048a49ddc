import Courier.Toml.Value

/-!
TOML documents. A document is a sequence of lines: a name with its value, the header of a table,
blanks or a comment. Values belong to the table of the last header. A document is read as a table
of settings or, if anything is wrong with it, not at all.
-/

namespace Courier.Toml

/-- A document up to some line: its tables, and the path of the one that is open. -/
structure Draft where
  root : Entries
  path : List String

namespace Draft

/-- What is inside the brackets of a header: the parts of a name and the text behind. -/
def headerName (cs : List Char) : Option (List String × String × List Char) := do
  let (parts, rest) ← name cs
  let key ← parts.getLast?
  return (parts.dropLast, key, rest)

/-- The draft after a line that begins a table or sets a value, and the text behind. -/
def line (d : Draft) (cs : List Char) : Option (Draft × List Char) :=
  match cs with
  | '[' :: '[' :: rest => do
    let (path, key, rest) ← headerName rest
    let rest ← endLine (← expect ']' (← expect ']' rest))
    return (⟨← d.root.addElement path key, path ++ [key]⟩, rest)
  | '[' :: rest => do
    let (path, key, rest) ← headerName rest
    let rest ← endLine (← expect ']' rest)
    return (⟨← d.root.addHeader path key, path ++ [key]⟩, rest)
  | cs => do
    let (parts, rest) ← name cs
    let (setting, rest) ← value (depthLimit - 1) (2 * cs.length + 2)
      (skipBlanks (← expect '=' rest))
    let rest ← endLine rest
    return ({ d with root := ← d.root.change (·.assign setting parts) d.path }, rest)

/-- The draft after all lines. -/
def lines : Nat → Draft → List Char → Option Draft
  | 0, _, _ => none
  | fuel + 1, d, cs => do
    match skipBlanks cs with
    | [] => return d
    | c :: rest =>
      match (if c = '#' then endLine (c :: rest) else lineEnd (c :: rest)) with
      | some rest => lines fuel d rest
      | none =>
        let (d, rest) ← d.line (c :: rest)
        lines fuel d rest

end Draft

/-- The settings of a document. A byte order mark before it does not count. -/
def ofText (s : String) : Option Setting := do
  let cs := match s.toList with
    | '\ufeff' :: rest => rest
    | cs => cs
  let d ← Draft.lines (cs.length + 1) ⟨[], []⟩ cs
  return .table (toSettings d.root)

end Courier.Toml
