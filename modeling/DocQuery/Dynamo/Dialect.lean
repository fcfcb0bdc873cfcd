import DocQuery.Compile
import DocQuery.Dynamo.Attribute
import DocQuery.Select

/-!
# Expressions with aliases and placeholders

An expression refers to every attribute by an alias and to every operand by a placeholder. Aliases are numbered in the order in
which fields first occur in the request, one for each field; placeholders are numbered in the order of the operands. The tables
of both go with the request, and a table that would be empty is left out.
-/

namespace DocQuery.Dynamo

/-- The n-th alias. -/
def aliasName (n : Nat) : String := "#n" ++ String.ofList (Decimal.naturalText n)

/-- The n-th placeholder. -/
def placeholder (n : Nat) : String := ":v" ++ String.ofList (Decimal.naturalText n)

/-- The alias of a field, and the fields with aliases afterwards. -/
def aliasFor (fields : List String) (field : String) : String × List String :=
  match fields.findIdx? (· == field) with
  | some i => (aliasName i, fields)
  | none => (aliasName fields.length, fields ++ [field])

/-- The longest list of values that a membership test takes. -/
def maxInList : Nat := 100

/-- The dialect; its table holds the fields with aliases. There is no function for small letters. -/
def dialect : Dialect (List String) where
  reference := aliasFor
  placeholder := placeholder
  contains := "contains"
  startsWith := "begins_with"
  notEqual := "<>"
  lower? := fun _ => none
  maxInList? := some maxInList

/-- The aliases of fields in order. -/
def aliasesFor (names : List String) : List String → List String × List String
  | [] => ([], names)
  | field :: rest =>
    let (a, names) := aliasFor names field
    let (more, names) := aliasesFor names rest
    (a :: more, names)

/-- The projection of the selected fields, where not every field is selected. -/
def projection (names : List String) (select : Select) : Option String × List String :=
  match select.selected? with
  | none => (none, names)
  | some fields =>
    let (aliases, names) := aliasesFor names fields
    (some (String.intercalate ", " aliases), names)

/-- The projection as a step of compiling. -/
def compileProjection (select : Select) : Compile (List String) (Option String) :=
  modifyGet fun b =>
    let (text, table) := projection b.table select
    (text, { b with table })

/-- The finished tables of a request. -/
structure Tables where
  /-- The fields in order of their aliases. -/
  fields : List String
  /-- The typed attributes in order of their placeholders. -/
  attributes : List Json
  deriving Repr

namespace Tables

/-- Nothing aliased and nothing bound. -/
def empty : Tables := ⟨[], []⟩

/-- The tables of what compiling gathered. -/
def ofBindings (b : Bindings (List String)) : Tables := ⟨b.table, b.params.map ofOperand⟩

/-- The alias of a field, and the tables afterwards. -/
def refer (t : Tables) (field : String) : String × Tables :=
  let (a, fields) := aliasFor t.fields field
  (a, { t with fields })

/-- The placeholder of one more attribute, and the tables afterwards. -/
def bind (t : Tables) (value : Json) : String × Tables :=
  (placeholder t.attributes.length, { t with attributes := t.attributes ++ [value] })

/-- The fields by alias, left out where there are none. -/
def names (t : Tables) : Option (Fields String) :=
  if t.fields.isEmpty then none else some (t.fields.zipIdx.map fun (field, i) => (aliasName i, field))

/-- The attributes by placeholder, left out where there are none. -/
def values (t : Tables) : Option (Fields Json) :=
  if t.attributes.isEmpty then none else some (t.attributes.zipIdx.map fun (value, i) => (placeholder i, value))

end Tables

end DocQuery.Dynamo
