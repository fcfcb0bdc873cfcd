import DocQuery.Filter.Condition

/-!
# Dialects

What tells one query language from another: how an attribute is referred to, which may register an alias for it, how a slot is
written, and the names of the functions and operators.
-/

namespace DocQuery

/-- A query language whose attribute references draw on a table of type `σ`. -/
structure Dialect (σ : Type) where
  /-- The reference to an attribute, and the table afterwards. -/
  reference : σ → String → String × σ
  /-- The placeholder for a slot. -/
  placeholder : Nat → String
  /-- The function that tests for a part of a text. -/
  contains : String
  /-- The function that tests for the beginning of a text. -/
  startsWith : String
  /-- The operator of inequality. -/
  notEqual : String
  /-- The reference to an attribute in small letters, where the language has such a function. -/
  lower? : String → Option String
  /-- The longest list of values that a membership test takes. -/
  maxInList? : Option Nat

/-- The symbol of a comparison. -/
def Dialect.symbol {σ : Type} (d : Dialect σ) : Comparison → String
  | .equals => "="
  | .not => d.notEqual
  | .lt => "<"
  | .lte => "<="
  | .gt => ">"
  | .gte => ">="

/-- The function of a text test. The end of a text is looked for anywhere in it. -/
def Dialect.function {σ : Type} (d : Dialect σ) : TextTest → String
  | .contains | .endsWith => d.contains
  | .startsWith => d.startsWith

end DocQuery
