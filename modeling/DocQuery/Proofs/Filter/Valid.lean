import DocQuery.Filter.Where

/-!
# Valid filters

What the check of a filter guarantees about every condition in it: no membership is without values, and every operand is a number
that a store can represent, or no number.
-/

namespace DocQuery

/-- What comes before a result came to one itself. -/
theorem of_bind_eq_ok {ε α β : Type} {x : Except ε α} {f : α → Except ε β} {b : β} (h : x >>= f = .ok b) :
    ∃ a, x = .ok a ∧ f a = .ok b := by
  cases x with
  | error e => cases h
  | ok a => exact ⟨a, rfl, h⟩

/-- What comes of a result by a function came of one. -/
theorem of_map_eq_ok {ε α β : Type} {x : Except ε α} {f : α → β} {b : β} (h : x.map f = .ok b) : ∃ a, x = .ok a ∧ f a = b := by
  cases x with
  | error e => cases h
  | ok a => exact ⟨a, rfl, Except.ok.inj h⟩

/-- Checking a list succeeds exactly if checking every item does. -/
theorem forM_eq_ok {α ε : Type} {f : α → Except ε Unit} {xs : List α} :
    xs.forM f = .ok () ↔ ∀ x ∈ xs, f x = .ok () := by
  induction xs with
  | nil => simp [pure, Except.pure]
  | cons x xs ih =>
    rw [List.forall_mem_cons, ← ih]
    cases hx : f x with
    | error e => simp [hx, bind, Except.bind]
    | ok u => simp [hx, bind, Except.bind]

namespace Condition

/-- The operands that a condition was given. -/
def given : Condition → List Operand
  | .compare _ v => [v]
  | .text _ part => [.text part]
  | .member _ vs => vs

/-- A condition that can be compiled where memberships take up to `max` values: its membership is not empty, nor too long. -/
def Compilable (max : Option Nat) (c : Condition) : Prop :=
  ∀ negated vs, c = .member negated vs → vs ≠ [] ∧ ∀ m ∈ max, vs.length ≤ m

/-- An operand that passes its check is finite. -/
theorem isFinite_of_checkOperand {field : String} {op : Operator} {ty : Option FieldType} {typed : Bool} {v : Operand}
    (h : checkOperand field op ty typed v = .ok ()) : v.isFinite = true := by
  cases hv : v.isFinite with
  | true => rfl
  | false => simp [checkOperand, hv] at h

/-- What the check of a comparison checks of its operand. -/
theorem operand_of_check {field : String} {ty : Option FieldType} {op : Comparison} {v : Operand}
    (h : check field ty (.compare op v) = .ok ()) : checkOperand field (.comparison op) ty (!op.isRange) v = .ok () := by
  cases ty with
  | none => exact h
  | some ty => exact h

/-- What the check of a membership checks of its values. -/
theorem operands_of_check {field : String} {ty : Option FieldType} {negated : Bool} {vs : List Operand}
    (h : check field ty (.member negated vs) = .ok ()) :
    vs ≠ [] ∧ ∀ v ∈ vs, checkOperand field (.membership negated) ty true v = .ok () := by
  rw [← forM_eq_ok]
  cases vs with
  | nil => cases ty with
    | none => cases h
    | some ty =>
      cases hs : (Operator.membership negated).supports ty <;>
        simp [check, operator, hs, throw, throwThe, MonadExceptOf.throw, bind, Except.bind] at h
  | cons v vs =>
    refine ⟨List.cons_ne_nil v vs, ?_⟩
    cases ty with
    | none => exact h
    | some ty =>
      cases hs : (Operator.membership negated).supports ty with
      | false => simp [check, operator, hs, throw, throwThe, MonadExceptOf.throw, bind, Except.bind] at h
      | true => simpa [check, operator, hs, bind, Except.bind, pure, Except.pure] using h

/-- What the check of a condition guarantees. -/
theorem of_check {field : String} {ty : Option FieldType} {c : Condition} (h : check field ty c = .ok ()) :
    (∀ negated vs, c = .member negated vs → vs ≠ []) ∧ ∀ v ∈ c.given, v.isFinite = true := by
  cases c with
  | compare op v =>
    refine ⟨nofun, fun u hu => ?_⟩
    rw [given, List.mem_singleton] at hu
    exact hu ▸ isFinite_of_checkOperand (operand_of_check h)
  | text t part =>
    refine ⟨nofun, fun u hu => ?_⟩
    rw [given, List.mem_singleton] at hu
    exact hu ▸ rfl
  | member negated vs =>
    obtain ⟨hne, hoperands⟩ := operands_of_check h
    exact ⟨fun _ us hu => by cases hu; exact hne, fun v hv => isFinite_of_checkOperand (hoperands v hv)⟩

end Condition

namespace Where

/-- What the check of a filter guarantees about each of its fields. -/
theorem Valid.field {w : Where} (h : w.Valid) {e : String × FieldFilter} (he : e ∈ w.entries) :
    e.2.validate e.1 = .ok () := by
  obtain ⟨name, filter⟩ := e
  have hv := forM_eq_ok.1 h _ he
  simp only at hv
  split at hv
  · exact absurd hv (by simp)
  · exact hv

/-- What the check of a filter guarantees about each of its conditions. -/
theorem Valid.condition {w : Where} (h : w.Valid) {e : String × FieldFilter} (he : e ∈ w.entries) {c : Condition}
    (hc : c ∈ e.2.conditions) :
    (∀ negated vs, c = .member negated vs → vs ≠ []) ∧ ∀ v ∈ c.given, v.isFinite = true := by
  have hv := h.field he
  rw [FieldFilter.validate] at hv
  split at hv
  · cases hv
  · exact Condition.of_check (forM_eq_ok.1 hv c hc)

/-- The conditions of a valid filter can be compiled where the length of memberships is not limited. -/
theorem Valid.compilable {w : Where} (h : w.Valid) {e : String × FieldFilter} (he : e ∈ w.entries) {c : Condition}
    (hc : c ∈ e.2.conditions) : c.Compilable none :=
  fun negated vs hm => ⟨(h.condition he hc).1 negated vs hm, fun _ hmax => by cases hmax⟩

end Where

end DocQuery
