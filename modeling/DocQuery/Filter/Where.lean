import DocQuery.Filter.Condition

/-!
# Filters

A filter gives some fields a list of conditions each. A record passes if every field meets all of its conditions; a filter without
fields lets everything pass. The fields keep their order, and naming one again replaces its conditions in place.
-/

namespace DocQuery

/-- The conditions by field. -/
abbrev Where := Keyed FieldFilter

namespace Where

/-- Checks every field, in order. -/
def validate (w : Where) : Except Error Unit :=
  w.entries.forM fun (name, filter) =>
    if name.isEmpty then .error (.malformedFilter name .emptyName) else filter.validate name

/-- Whether the filter passes its check. -/
def Valid (w : Where) : Prop := w.validate = .ok ()

/-- The filter that a JSON object states; null states none. -/
def ofJson (j : Json) : Except Error Where :=
  match j with
  | .null => .ok Keyed.empty
  | .obj members =>
    members.foldlM (fun w (name, condition) => (FieldFilter.ofJson name condition).map (w.put name)) Keyed.empty
  | _ => .error (.invalidArgument (.whereNotObject j))

end Where

end DocQuery
