import DocQuery.Filter.Where
import DocQuery.Order
import DocQuery.Select

/-!
# Arguments of a search

A search is asked for by a filter, a projection, sort keys, a page size and a cursor, each of them optional. The members of a JSON
object of arguments are read in their order, and the first one that is wrong decides the error.
-/

namespace DocQuery

/-- The arguments of a search. -/
structure FindArgs where
  /-- Which records. -/
  filter : Where
  /-- At most how many; the default of the entity where absent. -/
  take : Option Int64
  /-- The cursor of an earlier page. -/
  cursor : Option String
  /-- Which fields. -/
  select : Select
  /-- In which order. -/
  order : Order

namespace FindArgs

/-- Every record, a page of the default size, from the start. -/
def empty : FindArgs := ⟨Keyed.empty, none, none, Keyed.empty, Keyed.empty⟩

/-- One member of an object of arguments. -/
def addMember (args : FindArgs) (member : String × Json) : Except Error FindArgs :=
  let (name, j) := member
  if name = "where" then (Where.ofJson j).map fun filter => { args with filter }
  else if name = "select" then (Select.ofJson j).map fun select => { args with select }
  else if name = "orderBy" then (Order.ofJson j).map fun order => { args with order }
  else if name = "take" then
    match j with
    | .null => .ok { args with take := none }
    | _ =>
      match j.int64? with
      | some n => .ok { args with take := some n }
      | none => .error (.invalidArgument (.takeNotInteger j))
  else if name = "nextCursor" then
    match j with
    | .null => .ok { args with cursor := none }
    | .str s => .ok { args with cursor := some s }
    | _ => .error (.invalidCursor (.notText j))
  else .error (.invalidArgument (.unknownArgument name))

/-- The arguments that a JSON object states. -/
def ofJson (j : Json) : Except Error FindArgs :=
  match j with
  | .obj members => members.foldlM addMember empty
  | _ => .error (.invalidArgument .argsNotObject)

end FindArgs

end DocQuery
