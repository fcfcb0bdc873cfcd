import DocQuery.Expression.Token
import DocQuery.Text.Casing

/-!
# Expression trees

A term is a place where a value stands: an attribute, a placeholder, a literal, or another term in small letters. A formula is a
boolean combination of tests on terms. A query selects documents by a formula, orders them and projects them.
-/

namespace DocQuery.Expression

/-- A literal value. -/
inductive Literal where
  | null
  | bool (b : Bool)
  | number (n : Number)
  | text (s : String)
  deriving DecidableEq, Repr

/-- The value of a literal. -/
def Literal.toJson : Literal → Json
  | .null => .null
  | .bool b => .bool b
  | .number n => .num n
  | .text s => .str s

/-- A literal as messages show it. -/
def Literal.shown : Literal → String
  | .null => "Null"
  | .bool true => "Bool(true)"
  | .bool false => "Bool(false)"
  | .number n => "Number(" ++ n.text ++ ")"
  | .text s => "String(" ++ Text.quoted s ++ ")"

/-- A place where a value stands. -/
inductive Term where
  | path (field : String)
  | param (name : String)
  | literal (l : Literal)
  | lower (t : Term)
  deriving DecidableEq, Repr

/-- A term as messages show it. -/
def Term.shown : Term → String
  | .path field => "Path(" ++ Text.quoted field ++ ")"
  | .param name => "Param(" ++ Text.quoted name ++ ")"
  | .literal l => "Literal(" ++ l.shown ++ ")"
  | .lower t => "Lower(" ++ t.shown ++ ")"

/-- The attributes a term reads. -/
def Term.paths : Term → List String
  | .path field => [field]
  | .lower t => t.paths
  | .param _ | .literal _ => []

/-- A test by function. -/
inductive Function where
  | beginsWith | contains | endsWith | exists | notExists
  deriving DecidableEq, Repr

namespace Function

/-- The function of a name, in any case. -/
def ofName? (s : String) : Option Function :=
  let name := Text.lowerAscii s
  if name = "begins_with" ∨ name = "startswith" then some .beginsWith
  else if name = "contains" then some .contains
  else if name = "endswith" then some .endsWith
  else if name = "attribute_exists" ∨ name = "is_defined" then some .exists
  else if name = "attribute_not_exists" then some .notExists
  else none

/-- A function as messages show it. -/
def shown : Function → String
  | .beginsWith => "BeginsWith"
  | .contains => "Contains"
  | .endsWith => "EndsWith"
  | .exists => "Exists"
  | .notExists => "NotExists"

end Function

/-- A boolean combination of tests. -/
inductive Formula where
  | and (left right : Formula)
  | or (left right : Formula)
  | not (inner : Formula)
  | compare (left : Term) (r : Relation) (right : Term)
  | member (t : Term) (list : List Term)
  | between (t low high : Term)
  | call (f : Function) (args : List Term)
  deriving DecidableEq, Repr

/-- The attributes a formula reads, in order of appearance. -/
def Formula.paths : Formula → List String
  | .and left right | .or left right => left.paths ++ right.paths
  | .not inner => inner.paths
  | .compare left _ right => left.paths ++ right.paths
  | .member t list => t.paths ++ list.flatMap Term.paths
  | .between t low high => t.paths ++ low.paths ++ high.paths
  | .call _ args => args.flatMap Term.paths

/-- A query over one container. -/
structure Query where
  /-- The projected fields, all of them where absent. -/
  projection : Option (List String)
  /-- The formula that selects documents. -/
  condition : Option Formula
  /-- The sort keys, each with whether it ascends. -/
  order : List (String × Bool)
  deriving DecidableEq, Repr

end DocQuery.Expression
