import DocQuery.Error

/-!
# Projections

A projection marks fields as wanted or not. Only the wanted ones count, in the order in which they were first named, and where
none is wanted every field is selected.
-/

namespace DocQuery

/-- Which fields are wanted. -/
abbrev Select := Keyed Bool

namespace Select

/-- Selects every field. -/
def all : Select := Keyed.empty

/-- Selects exactly these fields. -/
def ofFields (names : List String) : Select := Keyed.ofList (names.map (·, true))

/-- The wanted fields in order; `none` where every field is. -/
def selected? (s : Select) : Option (List String) :=
  match s.entries.filterMap fun (name, wanted) => if wanted then some name else none with
  | [] => none
  | names => some names

/-- The fields of a record that are listed and there, in the order of the list. -/
def pick (names : List String) (d : Document) : Document :=
  names.filterMap fun name => (Fields.get? d name).map (name, ·)

/-- Keeps only the selected fields, in the order of selection. -/
def project (s : Select) (d : Document) : Document :=
  match s.selected? with
  | some names => pick names d
  | none => d

/-- The projection that a JSON object of truth values states; null selects everything. -/
def ofJson (j : Json) : Except Error Select :=
  match j with
  | .null => .ok all
  | .obj members =>
    members.foldlM (fun (s : Select) (name, value) =>
      match value with
      | .bool wanted => .ok (s.put name wanted)
      | _ => .error (.invalidArgument (.selectNotBoolean name value))) all
  | _ => .error (.invalidArgument (.selectNotObject j))

end Select

end DocQuery
