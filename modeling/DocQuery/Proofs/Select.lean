import DocQuery.Proofs.Fields
import DocQuery.Select

/-!
# Selected fields

A selection names at least one field, and none twice; so what is picked by it is a document in its own right, and picking from
it once more changes nothing. `Select.Reduces` says what is left of a document without saying how.
-/

namespace DocQuery.Select

/-- The wanted names, in order. -/
def wanted (select : Select) : List String := Fields.names (select.entries.filter (·.2))

/-- The wanted names are those that are marked so. -/
theorem filterMap_eq_wanted (select : Select) :
    (select.entries.filterMap fun (name, wanted) => if wanted then some name else none) = select.wanted := by
  rw [wanted, Fields.names, ← List.filterMap_eq_map, List.filterMap_filter]
  rfl

/-- The selected fields are the wanted ones, if there are any. -/
theorem selected?_eq (select : Select) :
    select.selected? = if select.wanted = [] then none else some select.wanted := by
  rw [selected?, filterMap_eq_wanted]
  cases select.wanted <;> rfl

/-- Selected fields are the wanted ones. -/
theorem eq_wanted_of_selected? {select : Select} {names : List String} (h : select.selected? = some names) :
    names = select.wanted ∧ names ≠ [] := by
  rw [selected?_eq] at h
  by_cases hwanted : select.wanted = []
  · rw [if_pos hwanted] at h
    cases h
  · rw [if_neg hwanted] at h
    cases h
    exact ⟨rfl, hwanted⟩

/-- Selected fields are at least one. -/
theorem ne_nil_of_selected? {select : Select} {names : List String} (h : select.selected? = some names) : names ≠ [] :=
  (eq_wanted_of_selected? h).2

/-- Selected fields are distinct. -/
theorem nodup_of_selected? {select : Select} {names : List String} (h : select.selected? = some names) : names.Nodup :=
  (eq_wanted_of_selected? h).1 ▸ select.distinct.sublist (List.filter_sublist.map _)

/-- The names of what is picked are those of the fields that are there. -/
theorem names_pick (names : List String) (d : Document) : Fields.names (pick names d) = names.filter (Fields.has d) := by
  induction names with
  | nil => rfl
  | cons name names ih =>
    rw [pick, List.filterMap_cons, List.filter_cons, Fields.has]
    cases Fields.get? d name with
    | none => exact ih
    | some j => exact congrArg (name :: ·) ih

/-- What is picked by distinct names has them distinct. -/
theorem ofList_pick {names : List String} (h : names.Nodup) (d : Document) : Fields.ofList (pick names d) = pick names d :=
  Fields.ofList_of_nodup (names_pick names d ▸ h.sublist List.filter_sublist)

/-- A field of what is picked is a field that it was picked by. -/
theorem get?_pick (names : List String) (d : Document) (name : String) :
    Fields.get? (pick names d) name = if name ∈ names then Fields.get? d name else none := by
  induction names with
  | nil => rfl
  | cons n names ih =>
    rw [pick, List.filterMap_cons]
    cases hd : Fields.get? d n with
    | none =>
      simp only [Option.map_none]
      refine ih.trans ?_
      by_cases hn : name = n
      · simp [hn, hd]
      · simp [hn]
    | some j =>
      simp only [Option.map_some]
      rw [Fields.get?_cons]
      by_cases hn : n = name
      · simp [← hn, hd]
      · rw [if_neg hn]
        refine ih.trans ?_
        simp [Ne.symm hn]

/-- What is picked is an entry of the document. -/
theorem mem_of_mem_pick {names : List String} {d : Document} {e : String × Json} (h : e ∈ pick names d) : e ∈ d := by
  obtain ⟨name, -, h⟩ := List.mem_filterMap.1 h
  obtain ⟨j, hj, rfl⟩ := Option.map_eq_some_iff.1 h
  exact Fields.mem_of_get? hj

/-- Picking twice is picking once. -/
theorem pick_pick (names : List String) (d : Document) : pick names (pick names d) = pick names d := by
  refine List.filterMap_congr fun name hname => ?_
  rw [get?_pick, if_pos hname]

/-- Projecting what was picked by the selected fields is projecting the document. -/
theorem project_pick {select : Select} {names : List String} (h : select.selected? = some names) (d : Document) :
    select.project (pick names d) = select.project d := by
  rw [project, project, h]
  exact pick_pick names d

/-- Projecting twice is projecting once. -/
theorem project_project (select : Select) (d : Document) : select.project (select.project d) = select.project d := by
  cases hs : select.selected? with
  | none => simp only [project, hs]
  | some names =>
    have hproject : select.project d = pick names d := by rw [project, hs]
    rw [hproject, project_pick hs, hproject]

/-! ## What is left of a document -/

/-- What a document comes to under a selection: the wanted fields that it has, in the order of the selection and with their values, or
all of it where no field is wanted. -/
structure Reduces (select : Select) (d reduced : Document) : Prop where
  /-- Where no field is wanted, nothing is left out. -/
  whole : (∀ e ∈ select.entries, e.2 = false) → reduced = d
  /-- Else the fields are the wanted ones that the document has. -/
  names : (∃ e ∈ select.entries, e.2 = true) → Fields.names reduced = select.wanted.filter (Fields.has d)
  /-- A wanted field has the value that it has in the document. -/
  values : ∀ name ∈ select.wanted, Fields.get? reduced name = Fields.get? d name

/-- A projection reduces a document to what is selected. -/
theorem reduces_project (select : Select) (d : Document) : select.Reduces d (select.project d) := by
  have hwanted : (∃ e ∈ select.entries, e.2 = true) ↔ select.wanted ≠ [] := by simp [wanted, Fields.names]
  cases hselected : select.selected? with
  | none =>
    have hproject : select.project d = d := by rw [project, hselected]
    have hnil : select.wanted = [] := by
      by_contra hne
      rw [selected?_eq, if_neg hne] at hselected
      cases hselected
    rw [hproject]
    exact ⟨fun _ => rfl, fun h => absurd hnil (hwanted.1 h), fun _ _ => rfl⟩
  | some names =>
    have hproject : select.project d = pick names d := by rw [project, hselected]
    obtain ⟨rfl, hne⟩ := eq_wanted_of_selected? hselected
    obtain ⟨e, he, htrue⟩ := hwanted.2 hne
    rw [hproject]
    exact ⟨fun h => absurd ((h e he).symm.trans htrue) Bool.false_ne_true, fun _ => names_pick _ d,
      fun name hname => (get?_pick _ d name).trans (if_pos hname)⟩

end DocQuery.Select
