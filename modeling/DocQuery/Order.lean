import DocQuery.Error

/-!
# Sort keys

Records are sorted by fields in turn, each in its direction; earlier fields take precedence. Naming a field again changes its
direction in place.
-/

namespace DocQuery

/-- The direction of a sort. -/
inductive Direction where
  | ascending | descending
  deriving DecidableEq, Repr

namespace Direction

/-- The name of a direction. -/
def name : Direction → String
  | .ascending => "ASC"
  | .descending => "DESC"

/-- The direction of a name, in any case. -/
def ofName? (s : String) : Option Direction :=
  if Text.equalIgnoringCase s "asc" then some .ascending
  else if Text.equalIgnoringCase s "desc" then some .descending
  else none

end Direction

/-- Sort keys with their directions. -/
abbrev Order := Keyed Direction

/-- The sort keys that a JSON object of direction names states; null states none. -/
def Order.ofJson (j : Json) : Except Error Order :=
  match j with
  | .null => .ok Keyed.empty
  | .obj members =>
    members.foldlM (fun (o : Order) (name, value) =>
      match value.str?.bind Direction.ofName? with
      | some direction => .ok (o.put name direction)
      | none => .error (.invalidArgument (.orderNotDirection name value))) Keyed.empty
  | _ => .error (.invalidArgument (.orderNotObject j))

end DocQuery
