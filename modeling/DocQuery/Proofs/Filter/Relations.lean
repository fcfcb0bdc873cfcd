import DocQuery.Proofs.Compile.Clause
import Mathlib.Order.Compare
import Mathlib.Order.Lattice

/-!
# Comparisons on an order

Where stored values and operands stand for members of a linear order, and compare as these do, a comparison asks for the relation
that its name says.
-/

namespace DocQuery

/-- How a comparison relates two members of an order. -/
def Comparison.Relates {α : Type} [LinearOrder α] (op : Comparison) (a b : α) : Prop :=
  match op with
  | .equals => a = b
  | .not => a ≠ b
  | .lt => a < b
  | .lte => a ≤ b
  | .gt => b < a
  | .gte => b ≤ a

instance {α : Type} [LinearOrder α] (op : Comparison) (a b : α) : Decidable (op.Relates a b) :=
  match op with
  | .equals => inferInstanceAs (Decidable (a = b))
  | .not => inferInstanceAs (Decidable (a ≠ b))
  | .lt => inferInstanceAs (Decidable (a < b))
  | .lte => inferInstanceAs (Decidable (a ≤ b))
  | .gt => inferInstanceAs (Decidable (b < a))
  | .gte => inferInstanceAs (Decidable (b ≤ a))

/-- A comparison holds of values that compare as two members of an order if it relates these. -/
theorem Comparison.holds_iff_relates {α : Type} [LinearOrder α] {stored operand : Json} {a b : α}
    (h : stored.compare? operand = some (compare a b)) (op : Comparison) : op.Holds stored operand ↔ op.Relates a b := by
  rcases lt_trichotomy a b with hlt | rfl | hgt
  · rw [compare_lt_iff_lt.2 hlt] at h
    cases op <;> simp [Holds, Relates, h, hlt, hlt.ne, hlt.le, hlt.not_gt]
  · rw [compare_eq_iff_eq.2 rfl] at h
    cases op <;> simp [Holds, Relates, h]
  · rw [compare_gt_iff_gt.2 hgt] at h
    cases op <;> simp [Holds, Relates, h, hgt, hgt.ne', hgt.le, hgt.not_gt]

/-- Values that compare as two members of an order are sorted as these. -/
theorem Json.sortCompare_of_compare? {x y : Json} {o : Ordering} (h : x.compare? y = some o) :
    sortCompare (some x) (some y) = o := by
  rw [sortCompare, h, Option.getD_some]

/-- A stored value that compares with the operand as two members of an order meets the comparison if it relates these. -/
theorem Condition.passes_compare_iff {α : Type} [LinearOrder α] {op : Comparison} {v : Operand} {stored : Json} {a b : α}
    (h : stored.compare? v.toJson = some (Ord.compare a b)) (folding : Folding) (mode : Mode) :
    (compare op v).Passes folding mode (some stored) ↔ op.Relates a b := by
  rw [← Comparison.holds_iff_relates h op]
  simp only [Passes, Option.some.injEq, exists_eq_left']

/-! ## All conditions but one -/

/-- Whether a document meets every condition of a filter but perhaps one, if other fields are in the place of the filter's. -/
def Where.PassesBut (seen : String → String) (folding : Folding) (w : Where) (e : String × FieldFilter) (c : Condition)
    (d : Document) : Prop :=
  ∀ e' ∈ w.entries, ∀ c' ∈ e'.2.conditions, (e', c') ≠ (e, c) → c'.Passes folding e'.2.mode (Fields.get? d (seen e'.1))

/-- What meets all conditions but one passes the filter if it meets that one. -/
theorem Where.PassesBut.passesUnder_iff {seen : String → String} {folding : Folding} {w : Where} {e : String × FieldFilter}
    {c : Condition} {d : Document} (h : w.PassesBut seen folding e c d) (he : e ∈ w.entries) (hc : c ∈ e.2.conditions) :
    w.PassesUnder seen folding d ↔ c.Passes folding e.2.mode (Fields.get? d (seen e.1)) := by
  constructor
  · intro hpasses
    exact hpasses e he c hc
  · intro hpasses e' he' c' hc'
    by_cases heq : (e', c') = (e, c)
    · obtain ⟨rfl, rfl⟩ := Prod.mk.inj heq
      exact hpasses
    · exact h e' he' c' hc' heq

end DocQuery
