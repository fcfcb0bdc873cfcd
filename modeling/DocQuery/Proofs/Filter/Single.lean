import DocQuery.Proofs.Compile.Clause
import DocQuery.Proofs.Filter.Valid

/-!
# Filters of one condition

Which filters of one condition are valid, and what passes them.
-/

namespace DocQuery.Condition

/-- The filter of one condition on a field. -/
def on (c : Condition) (field : String) (mode : Mode) : Where := Keyed.ofList [(field, ⟨[c], mode⟩)]

/-- A document passes the filter of one condition if its field meets the condition. -/
theorem passesUnder_on_iff {c : Condition} {field : String} {mode : Mode} {seen : String → String} {folding : Folding}
    {d : Document} : (c.on field mode).PassesUnder seen folding d ↔ c.Passes folding mode (Fields.get? d (seen field)) := by
  have hentries : (c.on field mode).entries = [(field, ⟨[c], mode⟩)] := rfl
  rw [Where.PassesUnder, hentries, List.forall_mem_singleton, List.forall_mem_singleton]

/-- The same under the names that the filter has. -/
theorem passes_on_iff {c : Condition} {field : String} {mode : Mode} {folding : Folding} {d : Document} :
    (c.on field mode).Passes folding d ↔ c.Passes folding mode (Fields.get? d field) :=
  (passesUnder_on_iff : (c.on field mode).PassesUnder id folding d ↔ _)

/-- The filter of one condition is valid if the field has a name and the condition agrees with the type that it implies itself. -/
theorem valid_on_iff {c : Condition} {field : String} {mode : Mode} :
    (c.on field mode).Valid ↔ field ≠ "" ∧ c.check field c.impliedType? = .ok () := by
  have hentries : (c.on field mode).entries = [(field, ⟨[c], mode⟩)] := rfl
  have htype : FieldFilter.inferredType? ⟨[c], mode⟩ = c.impliedType? := by
    rw [FieldFilter.inferredType?, List.findSome?_cons, List.findSome?_nil]
    cases c.impliedType? <;> rfl
  rw [Where.Valid, Where.validate, hentries, forM_eq_ok, List.forall_mem_singleton]
  by_cases hfield : field = ""
  · simp [hfield]
  · have hname : field.isEmpty = false := by simpa [String.isEmpty_iff] using hfield
    have hconditions : FieldFilter.validate field ⟨[c], mode⟩ = .ok () ↔ c.check field c.impliedType? = .ok () := by
      rw [FieldFilter.validate, htype, List.isEmpty_cons, if_neg Bool.false_ne_true, forM_eq_ok, List.forall_mem_singleton]
    simp only [hname, Bool.false_eq_true, if_false, hconditions]
    exact (and_iff_right hfield).symm

/-- A text test makes a valid filter of every field that has a name. -/
theorem valid_text_iff {t : TextTest} {part field : String} {mode : Mode} :
    ((text t part).on field mode).Valid ↔ field ≠ "" :=
  valid_on_iff.trans (and_iff_left rfl)

/-- A comparison makes a valid filter if its operand is finite. -/
theorem valid_compare_iff {op : Comparison} {v : Operand} {field : String} {mode : Mode} :
    ((compare op v).on field mode).Valid ↔ field ≠ "" ∧ v.isFinite = true := by
  refine valid_on_iff.trans (and_congr_right fun _ => ⟨fun h => isFinite_of_checkOperand (operand_of_check h), fun h => ?_⟩)
  cases op <;> simp [impliedType?, check, Comparison.isRange, operator, Operator.supports, checkOperand, h]

/-- What the check of an operand whose type matters checks. -/
theorem checkOperand_iff (field : String) (op : Operator) {ty : FieldType} {v : Operand} :
    checkOperand field op (some ty) true v = .ok () ↔ v.isFinite = true ∧ v.fieldType = ty := by
  cases hv : v.isFinite <;> by_cases hty : v.fieldType = ty <;> simp [checkOperand, hv, hty]

/-- A membership makes a valid filter if its values, of which there is one, are finite and of one type that is not the boolean
one. -/
theorem valid_member_iff {negated : Bool} {vs : List Operand} {field : String} {mode : Mode} :
    ((member negated vs).on field mode).Valid ↔
      field ≠ "" ∧ vs ≠ [] ∧ (∀ v ∈ vs, v.isFinite = true) ∧ ∃ ty ≠ FieldType.boolean, ∀ v ∈ vs, v.fieldType = ty := by
  refine valid_on_iff.trans (and_congr_right fun _ => ?_)
  cases vs with
  | nil => exact iff_of_false nofun fun h => h.1 rfl
  | cons v vs =>
    have hcheck : check field (impliedType? (member negated (v :: vs))) (member negated (v :: vs)) = .ok () ↔
        v.fieldType ≠ .boolean ∧ ∀ u ∈ v :: vs, u.isFinite = true ∧ u.fieldType = v.fieldType := by
      simp only [← checkOperand_iff field (.membership negated), ← forM_eq_ok]
      by_cases hty : v.fieldType = .boolean <;>
        simp [impliedType?, check, operator, Operator.supports, hty, throw, throwThe, MonadExceptOf.throw, bind, Except.bind]
    rw [hcheck]
    constructor
    · rintro ⟨hty, hall⟩
      exact ⟨List.cons_ne_nil v vs, fun u hu => (hall u hu).1, v.fieldType, hty, fun u hu => (hall u hu).2⟩
    · rintro ⟨-, hfinite, ty, hty, hall⟩
      obtain rfl : v.fieldType = ty := hall v List.mem_cons_self
      exact ⟨hty, fun u hu => ⟨hfinite u hu, hall u hu⟩⟩

end DocQuery.Condition
