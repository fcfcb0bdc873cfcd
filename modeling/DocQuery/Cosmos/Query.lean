import DocQuery.Compile
import DocQuery.Order
import DocQuery.Select
import DocQuery.Text.Letter

/-!
# Queries in SQL

The container is always addressed as `c`, and every operand is a named parameter. A field whose name is a plain word that is not
reserved follows a dot; any other name stands in brackets as a JSON text. A bracketed field would come back under a generated
name, so a projection with such a field asks for whole documents instead.
-/

namespace DocQuery.Cosmos

/-- The words that cannot follow a dot. -/
def reserved : List String :=
  ["and", "array", "as", "asc", "between", "by", "desc", "distinct", "escape", "exists", "false", "for", "from", "group", "in",
   "join", "like", "limit", "not", "null", "offset", "or", "order", "select", "top", "true", "udf", "undefined", "value", "where"]

/-- Whether a name can follow a dot: a word of ASCII letters, digits and underscores, no digit first, and not reserved. -/
def isPlainName (field : String) : Bool :=
  match field.toList with
  | [] => false
  | c :: rest =>
    (Text.isAsciiLetter c || c == '_') && rest.all (fun c => Text.isAsciiLetter c || Text.isAsciiDigit c || c == '_') &&
      !reserved.any (Text.equalIgnoringCase · field)

/-- The path of a field of the container. -/
def propertyPath (field : String) : String :=
  if isPlainName field then "c." ++ field
  else "c[" ++ String.ofList (Json.quote field.toList) ++ "]"

/-- The placeholder for a slot. -/
def placeholder (i : Nat) : String := "@p" ++ String.ofList (Decimal.naturalText i)

/-- The SQL dialect. -/
def dialect : Dialect Unit where
  reference := fun _ field => (propertyPath field, ())
  placeholder := placeholder
  contains := "CONTAINS"
  startsWith := "STARTSWITH"
  notEqual := "!="
  lower? := fun target => some ("LOWER(" ++ target ++ ")")
  maxInList? := none

/-- A query text with its named parameters. -/
structure Spec where
  /-- The text. -/
  query : String
  /-- The values of the parameters, by name. -/
  parameters : List (String × Json)
  deriving Repr

/-- A query as it is sent over the wire. -/
def Spec.toJson (s : Spec) : Json :=
  .obj [("query", .str s.query),
    ("parameters", .arr (s.parameters.map fun (name, value) => .obj [("name", .str name), ("value", value)]))]

/-- A query, and the same with literals in place of its parameters. -/
structure Compiled where
  /-- The query. -/
  spec : Spec
  /-- The explanation. -/
  explain : String
  deriving Repr

/-- The list of projected fields, or a star. -/
def fieldSelection (select : Select) : String :=
  match select.selected? with
  | none => "*"
  | some names => if names.all isPlainName then String.intercalate ", " (names.map propertyPath) else "*"

/-- The sort keys, if there are any. -/
def orderClause? (order : Order) : Option String :=
  if order.isEmpty then none
  else some (String.intercalate ", " (order.entries.map fun (field, direction) => propertyPath field ++ " " ++ direction.name))

/-- The whole text of a query around the text of its condition. -/
def queryText (select : Select) (condition : Option String) (order : Order) : String :=
  "SELECT " ++ fieldSelection select ++ " FROM c" ++ (match condition with
    | some text => " WHERE " ++ text
    | none => "") ++ (match orderClause? order with
    | some text => " ORDER BY " ++ text
    | none => "")

/-- The query for a condition whose operands are bound. -/
def finish (b : Bindings Unit) (select : Select) (condition : Option Fragment) (order : Order) : Compiled where
  spec :=
    { query := queryText select (condition.map (Bindings.render dialect)) order
      parameters := b.params.zipIdx.map fun (v, i) => (placeholder i, v.toJson) }
  explain := queryText select (condition.map (b.explain dialect)) order

/-- The query for the records that pass a filter. -/
def compileFindMany (filter : Where) (select : Select) (order : Order) : Except Error Compiled :=
  match (Compile.filter dialect filter).run.run ⟨(), []⟩ with
  | (.ok condition, b) => .ok (finish b select condition order)
  | (.error e, _) => .error e

/-- The query for the record with an identifier. -/
def compileFindById (id : String) (select : Select) : Except Error Compiled :=
  match (Compile.condition dialect "id" .sensitive (.compare .equals (.text id))).run.run ⟨(), []⟩ with
  | (.ok condition, b) => .ok (finish b select (some condition) Keyed.empty)
  | (.error e, _) => .error e

end DocQuery.Cosmos
