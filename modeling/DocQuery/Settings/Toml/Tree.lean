import DocQuery.Settings.Node

/-!
# Tables under construction

The lines of a document add to a tree of tables. A header opens a table once; the tables on the way to it come into being with it
and may still be opened by a header of their own. A dotted key brings tables into being too, but those belong to the table that
the key stands in: no header opens them, and no other table's keys add to them. A key is assigned once. A path that leads through
an array of tables goes on in the last one of them.
-/

namespace DocQuery.Settings.Toml

/-- How a table came into being. -/
inductive Origin where
  /-- By its header. -/
  | header
  /-- On the way to a table with a header. -/
  | parent
  /-- By a dotted key. -/
  | dotted
  deriving DecidableEq, Repr

/-- What a name stands for. -/
inductive Item where
  | value (node : Node)
  | table (origin : Origin) (entries : List (String × Item))
  | tables (elements : List (List (String × Item)))
  deriving Repr

/-- The entries of a table. -/
abbrev Entries := Fields Item

mutual

/-- The tree that an item stands for. -/
def Item.toNode : Item → Node
  | .value node => node
  | .table _ entries => .table (entriesToNodes entries)
  | .tables elements => .list (elementsToNodes elements)

/-- The members that entries stand for. -/
def entriesToNodes : List (String × Item) → List (Option String × Node)
  | [] => []
  | (key, item) :: rest => (some key, item.toNode) :: entriesToNodes rest

/-- The trees that the elements of an array of tables stand for. -/
def elementsToNodes : List (List (String × Item)) → List Node
  | [] => []
  | entries :: rest => .table (entriesToNodes entries) :: elementsToNodes rest

end

/-- Changes the table at the end of a path. The tables on the way are created where they are missing, with `origin`; tables with a
header may be passed only if `passesHeaders`. -/
def alter (origin : Origin) (passesHeaders : Bool) (change : Origin → Entries → Option Entries) (here : Origin) :
    List String → Entries → Option Entries
  | [], entries => change here entries
  | key :: path, entries =>
    match entries.get? key with
    | none => do
      let inner ← alter origin passesHeaders change origin path []
      some (entries.put key (.table origin inner))
    | some (.table there inner) =>
      if there = .header && !passesHeaders then none
      else do
        let inner ← alter origin passesHeaders change there path inner
        some (entries.put key (.table there inner))
    | some (.tables elements) => do
      let inner ← alter origin passesHeaders change .header path (← elements.getLast?)
      some (entries.put key (.tables (elements.dropLast ++ [inner])))
    | some (.value _) => none

/-- Assigns a value to a key, given in two parts: the names before its last one, and the last one. A key with a dot adds to a table
that dotted keys brought into being, and one without to any other table. -/
def assign (path : List String) (key : String) (node : Node) (here : Origin) (entries : Entries) : Option Entries :=
  alter .dotted false (fun there entries =>
    if decide (there = .dotted) == path.isEmpty then none
    else if entries.has key then none
    else some (entries.put key (.value node))) here path entries

/-- Opens the table of a header. -/
def openTable (path : List String) (key : String) (entries : Entries) : Option Entries :=
  alter .parent true (fun _ entries =>
    match entries.get? key with
    | none => some (entries.put key (.table .header []))
    | some (.table .parent inner) => some (entries.put key (.table .header inner))
    | some _ => none) .header path entries

/-- Opens another table of an array of tables. -/
def openElement (path : List String) (key : String) (entries : Entries) : Option Entries :=
  alter .parent true (fun _ entries =>
    match entries.get? key with
    | none => some (entries.put key (.tables [[]]))
    | some (.tables elements) => some (entries.put key (.tables (elements ++ [[]])))
    | some _ => none) .header path entries

/-- Assigns a value to a dotted key in the table that a header has opened. -/
def assignIn (header path : List String) (key : String) (node : Node) (entries : Entries) : Option Entries :=
  alter .parent true (assign path key node) .header header entries

end DocQuery.Settings.Toml
