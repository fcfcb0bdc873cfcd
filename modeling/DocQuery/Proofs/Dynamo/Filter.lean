import DocQuery.Dynamo.Memory
import DocQuery.Proofs.Compile.Faults
import DocQuery.Proofs.Dynamo.Aliases
import DocQuery.Proofs.Dynamo.Attributes

/-!
# The meaning of compiled filters

Whatever was compiled before, a filter that is compiled next is read back, with the finished tables of names and values, as a
formula that decides of every document whether it passes the filter.
-/

namespace DocQuery.Dynamo

open Expression

/-! ## Decoded values -/

/-- The value of an attribute, where it has one. -/
def decoded? (a : Json) : Option Json :=
  match toJson a with
  | .ok j => some j
  | .error _ => none

theorem decoded?_of_toJson {a j : Json} (h : toJson a = .ok j) : decoded? a = some j := by
  rw [decoded?, h]

/-- Those members whose attributes have values, with these. -/
def decodedMembers (members : Fields Json) : Fields Json :=
  members.filterMap fun e => (decoded? e.2).map (e.1, ·)

/-- The values of the placeholders, of those whose attributes have one. -/
def Tables.decoded (t : Tables) : Fields Json := decodedMembers (t.values.getD [])

/-- Decoding keeps names distinct. -/
theorem nodup_names_decodedMembers {members : Fields Json} (h : members.names.Nodup) :
    (decodedMembers members).names.Nodup := by
  refine h.sublist ?_
  induction members with
  | nil => exact List.Sublist.refl _
  | cons e rest ih =>
    have ih := ih (List.nodup_cons.1 h).2
    rw [decodedMembers, List.filterMap_cons]
    cases decoded? e.2 with
    | none => exact ih.cons _
    | some j => exact ih.cons_cons _

/-- A member whose attribute has a value is found with it. -/
theorem get?_decodedMembers {members : Fields Json} (h : members.names.Nodup) {name : String} {a j : Json}
    (hm : members.get? name = some a) (hj : toJson a = .ok j) : (decodedMembers members).get? name = some j := by
  refine Fields.get?_of_mem (nodup_names_decodedMembers h) ?_
  exact List.mem_filterMap.2 ⟨(name, a), Fields.mem_of_get? hm, by rw [decoded?_of_toJson hj]; rfl⟩

/-- Members that all have values are read as those. -/
theorem toMembers_eq_decodedMembers {members : Fields Json} (h : ∀ e ∈ members, ∃ j, toJson e.2 = .ok j) :
    toMembers members = .ok (decodedMembers members) := by
  induction members with
  | nil => rfl
  | cons e rest ih =>
    obtain ⟨j, hj⟩ := h e List.mem_cons_self
    have ih := ih fun e' h' => h e' (List.mem_cons_of_mem e h')
    have hcons : decodedMembers (e :: rest) = (e.1, j) :: decodedMembers rest := by
      rw [decodedMembers, List.filterMap_cons, decoded?_of_toJson hj]
      rfl
    rw [toMembers, hj, ih, hcons]
    rfl

/-! ## Bound operands -/

/-- The attributes of operands under their placeholders. -/
theorem values_ofBindings (b : Bindings (List String)) :
    (Tables.ofBindings b).values.getD [] = Fields.numbered placeholder ofOperand b.params := by
  rw [Tables.values, Tables.ofBindings]
  cases hp : b.params with
  | nil => rfl
  | cons v vs =>
    rw [if_neg (by simp), Option.getD_some, Fields.numbered, List.zipIdx_map, List.map_map]
    rfl

/-- The values of finite operands that are bound stand for them. -/
theorem bound_decoded {b : Bindings (List String)} {before operands : List Operand} (h : b.params = before ++ operands)
    (hf : ∀ v ∈ operands, v.isFinite = true) :
    Bound placeholder (Tables.ofBindings b).decoded before.length operands := by
  intro i v hv
  have hparam : b.params[before.length + i]? = some v := by
    rw [h, List.getElem?_append_right (Nat.le_add_right _ _), Nat.add_sub_cancel_left, hv]
  obtain ⟨j, hj, hdenotes⟩ := toJson_ofOperand (hf v (List.mem_of_getElem? hv))
  refine ⟨j, ?_, hdenotes⟩
  rw [Tables.decoded, values_ofBindings]
  exact get?_decodedMembers (Fields.nodup_names_numbered placeholder_injective _ _)
    (Fields.get?_numbered placeholder_injective ofOperand hparam) hj

/-- Where every operand is finite, the whole table of values is read. -/
theorem plainValues_ofBindings {b : Bindings (List String)} (h : ∀ v ∈ b.params, v.isFinite = true) :
    Memory.plainValues (Tables.ofBindings b).values = .ok (Tables.ofBindings b).decoded := by
  have hall : ∀ e ∈ (Tables.ofBindings b).values.getD [], ∃ j, toJson e.2 = .ok j := by
    intro e he
    rw [values_ofBindings] at he
    obtain ⟨⟨v, i⟩, hm, rfl⟩ := List.mem_map.1 he
    obtain ⟨j, hj, -⟩ := toJson_ofOperand (h v (List.mem_of_getElem? (List.mem_zipIdx_iff_getElem?.1 hm)))
    exact ⟨j, hj⟩
  rw [Memory.plainValues, toMembers_eq_decodedMembers hall]
  rfl

/-- The operands of a condition are finite where those it was given are. -/
theorem isFinite_of_mem_operands {folding : Folding} {mode : Mode} {c : Condition} (h : ∀ v ∈ c.given, v.isFinite = true) :
    ∀ v ∈ c.operands folding mode, v.isFinite = true := by
  cases c with
  | compare op u => exact h
  | member negated us => exact h
  | text t part =>
    intro v hv
    obtain ⟨p, -, rfl⟩ := List.mem_map.1 hv
    rfl

/-- The operands of a valid filter are finite. -/
theorem isFinite_of_mem_allOperands {w : Where} (h : w.Valid) (folding : Folding) (placeholder : Nat → String) :
    ∀ v ∈ Clause.allOperands (w.clauses folding placeholder), v.isFinite = true := by
  intro v hv
  obtain ⟨clause, hclause, hv⟩ := List.mem_flatMap.1 hv
  obtain ⟨e, he, hclause⟩ := List.mem_flatMap.1 hclause
  obtain ⟨c, hc, rfl⟩ := List.mem_map.1 hclause
  exact isFinite_of_mem_operands (h.condition he hc).2 v hv

/-! ## Filters -/

/-- A condition that is not a membership of more than a hundred values. -/
def Narrow : Condition → Prop
  | .member _ vs => vs.length ≤ maxInList
  | _ => True

instance : DecidablePred Narrow
  | .member _ vs => inferInstanceAs (Decidable (vs.length ≤ maxInList))
  | .compare _ _ | .text _ _ => inferInstanceAs (Decidable True)

/-- A filter without memberships of more than a hundred values. -/
def WithinLimit (w : Where) : Prop := ∀ e ∈ w.entries, ∀ c ∈ e.2.conditions, Narrow c

instance (w : Where) : Decidable (WithinLimit w) :=
  inferInstanceAs (Decidable (∀ e ∈ w.entries, ∀ c ∈ e.2.conditions, Narrow c))

/-- A condition without a fault is not too long. -/
theorem narrow_of_fault? {field : String} {c : Condition} (h : c.fault? (some maxInList) field = none) : Narrow c := by
  have hcompilable := Condition.compilable_of_fault? h
  cases c with
  | compare op v => trivial
  | text t part => trivial
  | member negated vs => exact (hcompilable negated vs rfl).2 maxInList rfl

/-- A filter without a fault is within the limit. -/
theorem withinLimit_of_fault? {w : Where} (h : w.fault? (some maxInList) = none) : WithinLimit w := by
  intro e he c hc
  rw [Where.fault?, List.findSome?_eq_none_iff] at h
  have hfield := h e he
  rw [FieldFilter.fault?, List.findSome?_eq_none_iff] at hfield
  exact narrow_of_fault? (hfield c hc)

/-- A valid filter within the limit can be compiled. -/
theorem compilable_of_withinLimit {w : Where} (hv : w.Valid) (h : WithinLimit w) : reading.Compilable w := by
  refine fun e he => ⟨trivial, fun c hc negated vs hm => ⟨(hv.condition he hc).1 negated vs hm, ?_⟩⟩
  intro m hmax
  cases hmax
  subst hm
  exact h e he _ hc

/-- A text that may be missing is parsed as the formula that it is. -/
theorem parseOptional_of_rel {names : Names} {text : Option String} {condition : Option Formula}
    (h : Option.Rel (fun text f => FormulaText names .disjunction text.toList f) text condition) :
    Memory.parseOptional (parseFormula · names) text = .ok condition := by
  cases h with
  | none => rfl
  | some h => rw [Memory.parseOptional, h.parse]; rfl

/-- Compiling a valid filter within the limit succeeds after whatever was compiled before. Its text is accepted together with the
names of the finished request. Under the decoded values of the request the formula never fails, and it holds of just those
documents that pass the filter; and where all operands that were bound before are finite, too, these values are the ones that a
store works with. -/
theorem filter_means (w : Where) (hv : w.Valid) (hw : WithinLimit w) (b : Bindings (List String)) :
    ∃ fragment b' condition,
      (Compile.filter dialect w).run.run b = (.ok fragment, b') ∧
      Memory.parseOptional (parseFormula · (Tables.ofBindings b').names) (fragment.map (Bindings.render dialect)) =
        .ok condition ∧
      ((∀ v ∈ b.params, v.isFinite = true) →
        Memory.plainValues (Tables.ofBindings b').values = .ok (Tables.ofBindings b').decoded) ∧
      ∀ d : Document, Scope.passes ⟨d, (Tables.ofBindings b').decoded⟩ condition = .ok (decide (w.Passes .casings d)) := by
  obtain ⟨f, b', hf, hs⟩ := reading.filter_stands hv (compilable_of_withinLimit hv hw) b
  have hfinite := isFinite_of_mem_allOperands hv .casings placeholder
  refine ⟨f, b', _, hf, parseOptional_of_rel (hs.rendered (List.prefix_refl _)), fun hb => ?_, fun d => ?_⟩
  · refine plainValues_ofBindings fun v hm => ?_
    rw [hs.params] at hm
    exact (List.mem_append.1 hm).elim (hb v) (hfinite v)
  · rw [← Where.all_clauses .casings placeholder w d]
    exact Clause.passes_conjoin (bound_decoded hs.params hfinite) d

/-- The same after a request that has referred to a field and bound an operand already. -/
theorem filter_means_after_age :
    let w : Where := Keyed.ofList
      [("name", ⟨[.text .contains "al", .member true [.text "Albert", .text "Alf"]], .insensitive⟩),
       ("age", ⟨[.compare .lt (.float (.finite ⟨false, 1, by decide⟩))], .sensitive⟩)]
    let b : Bindings (List String) := ⟨["age"], [.integer 18]⟩
    ∃ fragment b' condition,
      (Compile.filter dialect w).run.run b = (.ok fragment, b') ∧
      Memory.parseOptional (parseFormula · (Tables.ofBindings b').names) (fragment.map (Bindings.render dialect)) =
        .ok condition ∧
      ((∀ v ∈ b.params, v.isFinite = true) →
        Memory.plainValues (Tables.ofBindings b').values = .ok (Tables.ofBindings b').decoded) ∧
      ∀ d : Document, Scope.passes ⟨d, (Tables.ofBindings b').decoded⟩ condition = .ok (decide (w.Passes .casings d)) :=
  filter_means
    (Keyed.ofList
      [("name", ⟨[.text .contains "al", .member true [.text "Albert", .text "Alf"]], .insensitive⟩),
       ("age", ⟨[.compare .lt (.float (.finite ⟨false, 1, by decide⟩))], .sensitive⟩)])
    rfl (by decide) _

end DocQuery.Dynamo
