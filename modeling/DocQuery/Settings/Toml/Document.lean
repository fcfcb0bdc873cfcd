import DocQuery.Settings.Toml.Value

/-!
# Documents of tables

A document is a sequence of lines: headers of tables, headers of arrays of tables, and assignments to keys, each with an optional
comment at its end. An assignment goes to the table of the header before it.
-/

namespace DocQuery.Settings.Toml

/-- A document that is being read. -/
structure Draft where
  /-- The tables so far. -/
  entries : Entries
  /-- The path of the table that assignments go to. -/
  header : List String
  deriving Repr

/-- What follows the rest of a line: blanks and an optional comment. -/
def finishLine (cs : List Char) : Option (List Char) :=
  match skipComment (skipSpace cs) with
  | [] => some []
  | cs => lineEnd? cs

/-- Reads a header of an array of tables after its opening brackets. -/
def elementHeader (d : Draft) (cs : List Char) : Option (Draft × List Char) := do
  let (path, last, rest) ← key cs
  let rest ← finishLine (← expect ']' (← expect ']' rest))
  some (⟨← openElement path last d.entries, path ++ [last]⟩, rest)

/-- Reads a header of a table after its opening bracket. -/
def tableHeader (d : Draft) (cs : List Char) : Option (Draft × List Char) := do
  let (path, last, rest) ← key cs
  let rest ← finishLine (← expect ']' rest)
  some (⟨← openTable path last d.entries, path ++ [last]⟩, rest)

/-- Reads an assignment. -/
def assignment (d : Draft) (cs : List Char) : Option (Draft × List Char) := do
  let (path, last, rest) ← key cs
  let rest := skipSpace (← expect '=' rest)
  let (node, rest) ← value (2 * rest.length + 2) (nestingLimit - 1) rest
  let rest ← finishLine rest
  some (⟨← assignIn d.header path last node d.entries, d.header⟩, rest)

/-- Reads one line. -/
def line (d : Draft) (cs : List Char) : Option (Draft × List Char) :=
  match skipSpace cs with
  | [] => some (d, [])
  | '#' :: rest => (finishLine ('#' :: rest)).map (d, ·)
  | '[' :: '[' :: rest => elementHeader d rest
  | '[' :: rest => tableHeader d rest
  | cs =>
    match lineEnd? cs with
    | some rest => some (d, rest)
    | none => assignment d cs

/-- Reads lines up to the end of the document. The first argument bounds their number. -/
def lines : Nat → Draft → List Char → Option Draft
  | _, d, [] => some d
  | 0, _, _ :: _ => none
  | fuel + 1, d, c :: cs => do
    let (d, rest) ← line d (c :: cs)
    lines fuel d rest

/-- The tree of a document. A byte order mark before it does not count. -/
def parse? (s : String) : Option Node := do
  let cs := match s.toList with
    | c :: rest => if c.toNat = 0xFEFF then rest else c :: rest
    | [] => []
  let d ← lines (cs.length + 1) ⟨[], []⟩ cs
  some (.table (entriesToNodes d.entries))

end DocQuery.Settings.Toml
