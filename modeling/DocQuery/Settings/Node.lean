import DocQuery.Json.Raw

/-!
# Configuration trees

Settings are written in more than one format. What the formats have in common is a tree of scalars, lists and tables; settings are
read from that tree. A part that cannot be read stays in the tree as such, because it does no harm where no setting looks at it.
-/

namespace DocQuery.Settings

/-- A configuration tree. -/
inductive Node where
  | null
  | bool (b : Bool)
  | int (i : Int)
  /-- A number that is no integer; no setting takes one. -/
  | decimal
  | text (s : String)
  /-- A date or a time; no setting takes one. -/
  | date
  | list (items : List Node)
  /-- A table with all members that are written; a name may be unreadable. -/
  | table (members : List (Option String × Node))
  /-- A part that cannot be read. -/
  | broken
  deriving Repr, Inhabited

namespace Node

/-- A JSON number in a tree. -/
def ofNumber : Option Number → Node
  | some (.int i) => .int i.val
  | some (.float _) => .decimal
  | none => .broken

mutual

/-- The tree of a JSON text. -/
def ofRaw : Raw → Node
  | .null => .null
  | .bool b => .bool b
  | .num n => ofNumber n
  | .str (some s) => .text s
  | .str none => .broken
  | .arr items => .list (ofRawItems items)
  | .obj members => .table (ofRawMembers members)

/-- The trees of the items of an array. -/
def ofRawItems : List Raw → List Node
  | [] => []
  | item :: rest => ofRaw item :: ofRawItems rest

/-- The trees of the members of an object. -/
def ofRawMembers : List (Option String × Raw) → List (Option String × Node)
  | [] => []
  | (key, value) :: rest => (key, ofRaw value) :: ofRawMembers rest

end

mutual

/-- The tree of a JSON value. -/
def ofJson : Json → Node
  | .null => .null
  | .bool b => .bool b
  | .num n => ofNumber (some n)
  | .str s => .text s
  | .arr items => .list (ofJsonItems items)
  | .obj members => .table (ofJsonMembers members)

/-- The trees of the items of an array. -/
def ofJsonItems : List Json → List Node
  | [] => []
  | item :: rest => ofJson item :: ofJsonItems rest

/-- The trees of the members of an object. -/
def ofJsonMembers : List (String × Json) → List (Option String × Node)
  | [] => []
  | (key, value) :: rest => (some key, ofJson value) :: ofJsonMembers rest

end

mutual

/-- Whether every part of a tree can be read. -/
def isReadable : Node → Bool
  | .broken => false
  | .list items => areReadable items
  | .table members => membersAreReadable members
  | .null | .bool _ | .int _ | .decimal | .text _ | .date => true

/-- Whether every item of a list can be read. -/
def areReadable : List Node → Bool
  | [] => true
  | item :: rest => isReadable item && areReadable rest

/-- Whether every member of a table can be read, its name included. -/
def membersAreReadable : List (Option String × Node) → Bool
  | [] => true
  | (key, value) :: rest => key.isSome && isReadable value && membersAreReadable rest

end

mutual

/-- How many levels of lists and tables a tree has. -/
def depth : Node → Nat
  | .list items => itemsDepth items + 1
  | .table members => membersDepth members + 1
  | .broken | .null | .bool _ | .int _ | .decimal | .text _ | .date => 0

/-- The depth of the deepest item of a list. -/
def itemsDepth : List Node → Nat
  | [] => 0
  | item :: rest => max (depth item) (itemsDepth rest)

/-- The depth of the deepest member of a table. -/
def membersDepth : List (Option String × Node) → Nat
  | [] => 0
  | (_, value) :: rest => max (depth value) (membersDepth rest)

end

/-- The truth value, where the tree is one. -/
def bool? : Node → Option Bool
  | .bool b => some b
  | _ => none

/-- The text, where the tree is one. -/
def text? : Node → Option String
  | .text s => some s
  | _ => none

/-- The natural number below a bound, where the tree is one. -/
def natural? (bound : Nat) : Node → Option Nat
  | .int i => if 0 ≤ i ∧ i < bound then some i.toNat else none
  | _ => none

/-- What is absent or null is nothing; anything else has to be readable as a setting. -/
def optional? {α : Type} (read : Node → Option α) : Option Node → Option (Option α)
  | none | some .null => some none
  | some node => (read node).map some

/-- What is absent has a default. -/
def withDefault {α : Type} (default : α) (read : Node → Option α) : Option Node → Option α
  | none => some default
  | some node => read node

end Node

end DocQuery.Settings
