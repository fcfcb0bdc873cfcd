import DocQuery.Dynamo.Memory
import DocQuery.Proofs.Dynamo.Aliases
import DocQuery.Proofs.Expression.Queries
import DocQuery.Proofs.Select

/-!
# Projections

The aliases of the selected fields are read back as these fields, and a request that selects every field projects to nothing in
particular.
-/

namespace DocQuery.Dynamo

open Expression

/-- Aliases of several fields only add to the fields with aliases. -/
theorem prefix_aliasesFor (fields names : List String) : names <+: (aliasesFor names fields).2 := by
  induction fields generalizing names with
  | nil => exact List.prefix_refl _
  | cons field rest ih => exact (reading.leads_reference names field).trans (ih _)

/-- Each of several aliases is read as its field from then on. -/
theorem aliasesFor_texts {fields names u : List String} (hu : (aliasesFor names fields).2 <+: u) :
    List.Forall₂ (fun cs field => TermText (namesOf u) cs (.path field)) ((aliasesFor names fields).1.map String.toList)
      fields := by
  induction fields generalizing names with
  | nil => exact .nil
  | cons field rest ih =>
    have hrest := prefix_aliasesFor rest (aliasFor names field).2
    exact .cons (reading.reference trivial (hrest.trans hu)) (ih hu)

/-- Aliases are as many as fields. -/
theorem length_aliasesFor (names fields : List String) : (aliasesFor names fields).1.length = fields.length := by
  induction fields generalizing names with
  | nil => rfl
  | cons field rest ih => rw [aliasesFor, List.length_cons, List.length_cons, ih]

/-- A projection is read back as the selected fields from then on. -/
theorem parse_projection (select : Select) {names u : List String} (hu : (projection names select).2 <+: u) :
    Memory.parseOptional (parsePaths · (namesOf u)) (projection names select).1 = .ok select.selected? := by
  rw [projection] at hu ⊢
  cases hs : select.selected? with
  | none => rfl
  | some fields =>
    rw [hs] at hu
    have htexts := aliasesFor_texts hu
    have hne : (aliasesFor names fields).1.map String.toList ≠ [] := by
      intro h
      have hlength := length_aliasesFor names fields
      rw [List.map_eq_nil_iff.1 h, eq_comm, List.length_nil, List.length_eq_zero_iff] at hlength
      exact Select.ne_nil_of_selected? hs hlength
    have hseparated : SeparatedText (PathWritten (namesOf u)) _ _ := .of_forall₂ htexts hne
    have hparse : parsePaths (String.intercalate ", " (aliasesFor names fields).1) (namesOf u) = .ok fields := by
      refine SeparatedText.parsePaths ?_
      simpa using hseparated
    simp only [Memory.parseOptional, hparse]
    rfl

/-- The projection is compiled. -/
theorem compileProjection_yields (select : Select) (b : Bindings (List String)) :
    (compileProjection select).Yields b (projection b.table select).1 ⟨(projection b.table select).2, b.params⟩ := rfl

end DocQuery.Dynamo
