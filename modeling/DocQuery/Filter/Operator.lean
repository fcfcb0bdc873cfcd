import DocQuery.Operand
import DocQuery.Text.Casing

/-!
# Operators and modes

The closed set of filter operators, by kind: comparisons, tests on texts, and membership in a list. An operator is recognized by
its exact name; a mode by its name in any case.
-/

namespace DocQuery

/-- A comparison with one operand. -/
inductive Comparison where
  | equals | not | lt | lte | gt | gte
  deriving DecidableEq, Repr

/-- A test of a text against a part of it. No store tests for a suffix, so that one asks for the part anywhere. -/
inductive TextTest where
  | contains | startsWith | endsWith
  deriving DecidableEq, Repr

/-- A filter operator; membership may be negated. -/
inductive Operator where
  | comparison (c : Comparison)
  | textTest (t : TextTest)
  | membership (negated : Bool)
  deriving DecidableEq, Repr

namespace Comparison

/-- Whether the comparison is one of order. -/
def isRange : Comparison → Bool
  | .equals | .not => false
  | .lt | .lte | .gt | .gte => true

end Comparison

namespace Operator

/-- The name of an operator in requests. -/
def name : Operator → String
  | .comparison .equals => "equals"
  | .comparison .not => "not"
  | .comparison .lt => "lt"
  | .comparison .lte => "lte"
  | .comparison .gt => "gt"
  | .comparison .gte => "gte"
  | .textTest .contains => "contains"
  | .textTest .startsWith => "startsWith"
  | .textTest .endsWith => "endsWith"
  | .membership false => "in"
  | .membership true => "notIn"

/-- All operators. -/
def all : List Operator :=
  [.comparison .equals, .comparison .not, .textTest .contains, .textTest .startsWith, .textTest .endsWith, .membership false,
   .membership true, .comparison .lt, .comparison .lte, .comparison .gt, .comparison .gte]

/-- The operator of a name. -/
def ofName? (s : String) : Option Operator := all.find? fun op => op.name == s

/-- Whether an operator applies to a field of a type. Comparisons apply to every type. -/
def supports : Operator → FieldType → Bool
  | .comparison _, _ => true
  | .textTest _, ty => ty == .string
  | .membership _, ty => ty != .boolean

/-- Every operator is found under its name. -/
@[simp] theorem ofName?_name (op : Operator) : ofName? op.name = some op := by
  rcases op with c | t | n
  · cases c <;> decide
  · cases t <;> decide
  · cases n <;> decide

end Operator

/-- Whether text tests tell capital from small letters. -/
inductive Mode where
  | sensitive | insensitive
  deriving DecidableEq, Repr, Inhabited

namespace Mode

/-- The name of a mode. -/
def name : Mode → String
  | .sensitive => "sensitive"
  | .insensitive => "insensitive"

/-- The mode of a name, in any case; `default` is the sensitive one. -/
def ofName? (s : String) : Option Mode :=
  if Text.equalIgnoringCase s "sensitive" || Text.equalIgnoringCase s "default" then some .sensitive
  else if Text.equalIgnoringCase s "insensitive" then some .insensitive
  else none

end Mode

end DocQuery
