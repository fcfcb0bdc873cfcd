import DocQuery.Proofs.Filter.Meaning

/-!
# The formula of a condition

Which formula a condition is compiled to, with placeholders for its operands from a slot on, and what that formula means. Main
statement: under values that stand for the operands, the formula never fails and holds of a document exactly if the field of the
document meets the condition (`eval_formula`).
-/

namespace DocQuery

open Expression

/-- The parts that a text test in a mode asks for. -/
def Folding.parts (folding : Folding) (mode : Mode) (part : String) : List String :=
  match mode, folding with
  | .sensitive, _ => [part]
  | .insensitive, .small => [Text.lower part]
  | .insensitive, .casings => Compile.casings part

/-- The term that a text test in a mode looks at. -/
def Folding.target (folding : Folding) (mode : Mode) (field : String) : Term :=
  match mode, folding with
  | .insensitive, .small => .lower (.path field)
  | .sensitive, _ | .insensitive, .casings => .path field

namespace Condition

/-- The operands of a condition in the order of their slots. -/
def operands (folding : Folding) (mode : Mode) : Condition → List Operand
  | .compare _ v => [v]
  | .text _ part => (folding.parts mode part).map .text
  | .member _ vs => vs

/-- A text test of a term against one placeholder after another, one of which has to hold. -/
def callFrom (placeholder : Nat → String) (f : Function) (target : Term) (slot more : Nat) : Formula :=
  ((List.range' (slot + 1) more).map fun i => Formula.call f [target, .param (placeholder i)]).foldl .or
    (.call f [target, .param (placeholder slot)])

/-- The formula of a condition on a field whose operands stand in the slots from `slot` on. -/
def formula (folding : Folding) (placeholder : Nat → String) (field : String) (mode : Mode) (c : Condition) (slot : Nat) :
    Formula :=
  match c with
  | .compare op _ => .compare (.path field) (relationOf op) (.param (placeholder slot))
  | .text t part =>
    callFrom placeholder (functionOf t) (folding.target mode field) slot ((folding.parts mode part).length - 1)
  | .member false vs => .member (.path field) ((List.range' slot vs.length).map fun i => .param (placeholder i))
  | .member true vs => .not (.member (.path field) ((List.range' slot vs.length).map fun i => .param (placeholder i)))

end Condition

/-- A value that compares like an operand, and is the same text where the operand is one. -/
structure Operand.Denotes (v : Operand) (j : Json) : Prop where
  compare : ∀ stored : Json, stored.compare? j = stored.compare? v.toJson
  text : ∀ s, v = .text s → j = .str s

/-- The value of an operand in a document denotes it. -/
theorem Operand.denotes_toJson (v : Operand) : v.Denotes v.toJson :=
  ⟨fun _ => rfl, fun s hs => by rw [hs]; rfl⟩

theorem Comparison.holds_congr {j k : Json} (h : ∀ stored : Json, stored.compare? j = stored.compare? k) (c : Comparison)
    (stored : Json) : c.Holds stored j ↔ c.Holds stored k := by
  cases c <;> simp [Holds, h]

/-- Values under the placeholders from a slot on that stand for operands. -/
def Bound (placeholder : Nat → String) (values : Fields Json) (slot : Nat) (operands : List Operand) : Prop :=
  ∀ i v, operands[i]? = some v → ∃ j, values.get? (placeholder (slot + i)) = some j ∧ v.Denotes j

theorem bound_cons {placeholder : Nat → String} {values : Fields Json} {slot : Nat} {v : Operand} {vs : List Operand} :
    Bound placeholder values slot (v :: vs) ↔
      (∃ j, values.get? (placeholder slot) = some j ∧ v.Denotes j) ∧ Bound placeholder values (slot + 1) vs := by
  constructor
  · intro h
    exact ⟨h 0 v rfl, fun i u hu => by rw [Nat.add_right_comm]; exact h (i + 1) u hu⟩
  · rintro ⟨h, hs⟩ i u hu
    cases i with
    | zero => simp only [List.getElem?_cons_zero, Option.some.injEq] at hu; exact hu ▸ h
    | succ i => rw [← Nat.add_assoc, Nat.add_right_comm]; exact hs i u hu

theorem bound_append {placeholder : Nat → String} {values : Fields Json} {slot : Nat} {vs ws : List Operand} :
    Bound placeholder values slot (vs ++ ws) ↔
      Bound placeholder values slot vs ∧ Bound placeholder values (slot + vs.length) ws := by
  induction vs generalizing slot with
  | nil => simp [Bound]
  | cons v vs ih => rw [List.cons_append, bound_cons, bound_cons, ih, List.length_cons, and_assoc, Nat.add_right_comm,
      Nat.add_assoc]

namespace Expression

variable {d : Document} {values : Fields Json}

theorem value?_param {name : String} {j : Json} (h : values.get? name = some j) :
    Scope.value? ⟨d, values⟩ (.param name) = .ok (some j) := by
  rw [Scope.value?, h]

/-- A comparison of a field with a value. -/
theorem eval_compare {field name : String} {v : Operand} {j : Json} (op : Comparison) (hj : values.get? name = some j)
    (hv : v.Denotes j) :
    Scope.eval ⟨d, values⟩ (.compare (.path field) (relationOf op) (.param name)) =
      .ok (decide (∃ s, Fields.get? d field = some s ∧ op.Holds s v.toJson)) := by
  rw [Scope.eval, Scope.value?, value?_param hj]
  simp only [bind, Except.bind]
  cases Fields.get? d field with
  | none => simp
  | some s =>
    simp only [Option.some.injEq, exists_eq_left', ← op.holds_congr hv.compare, Except.ok.injEq]
    rw [Bool.eq_iff_iff, admits_iff, decide_eq_true_iff]

/-- A text test of a term against a value. -/
theorem eval_call {target : Term} {name part : String} {stored : Option Json} (t : TextTest)
    (ht : Scope.value? ⟨d, values⟩ target = .ok stored) (hp : values.get? name = some (.str part)) :
    Scope.eval ⟨d, values⟩ (.call (functionOf t) [target, .param name]) =
      .ok (decide (∃ s, stored = some s ∧ t.Passes part s)) := by
  have hcall : Scope.call ⟨d, values⟩ (functionOf t) [target, .param name] =
      .ok (stored.any fun s => (functionOf t).test s (.str part)) := by
    cases t <;> simp only [functionOf, Scope.call, ht, value?_param hp] <;> cases stored <;> rfl
  rw [Scope.eval, hcall]
  cases stored with
  | none => simp
  | some s =>
    simp only [Option.any_some, Option.some.injEq, exists_eq_left', Except.ok.injEq]
    rw [Bool.eq_iff_iff, test_iff, decide_eq_true_iff]

/-- One more alternative. -/
theorem eval_or {s : Scope} {f g : Formula} {a b : Bool} (hf : s.eval f = .ok a) (hg : s.eval g = .ok b) :
    s.eval (.or f g) = .ok (a || b) := by
  rw [Scope.eval, hf, hg]
  cases a <;> rfl

/-- One more part of a conjunction. -/
theorem eval_and {s : Scope} {f g : Formula} {a b : Bool} (hf : s.eval f = .ok a) (hg : s.eval g = .ok b) :
    s.eval (.and f g) = .ok (a && b) := by
  rw [Scope.eval, hf, hg]
  cases a <;> rfl

/-- Text tests of a term against values from a slot on, as further alternatives. -/
theorem eval_foldl_calls {placeholder : Nat → String} {target : Term} {stored : Option Json} (t : TextTest)
    (ht : Scope.value? ⟨d, values⟩ target = .ok stored) {parts : List String} :
    ∀ {slot : Nat} {f : Formula} {b : Bool}, Bound placeholder values slot (parts.map .text) →
      Scope.eval ⟨d, values⟩ f = .ok b →
      Scope.eval ⟨d, values⟩ (((List.range' slot parts.length).map fun i =>
        Formula.call (functionOf t) [target, .param (placeholder i)]).foldl .or f) =
        .ok (b || parts.any fun q => decide (∃ s, stored = some s ∧ t.Passes q s)) := by
  induction parts with
  | nil => intro slot f b _ hf; simp [hf]
  | cons p parts ih =>
    intro slot f b hb hf
    obtain ⟨⟨j, hj, hv⟩, hb⟩ := bound_cons.1 hb
    rw [hv.text p rfl] at hj
    rw [List.length_cons, List.range'_succ, List.map_cons, List.foldl_cons, ih hb (eval_or hf (eval_call t ht hj)),
      List.any_cons, Bool.or_assoc]

/-- A text test of a term against values from a slot on, one of which has to hold. -/
theorem eval_callFrom {placeholder : Nat → String} {target : Term} {stored : Option Json} {slot : Nat} (t : TextTest)
    (ht : Scope.value? ⟨d, values⟩ target = .ok stored) {p : String} {parts : List String}
    (hb : Bound placeholder values slot ((p :: parts).map .text)) :
    Scope.eval ⟨d, values⟩ (Condition.callFrom placeholder (functionOf t) target slot parts.length) =
      .ok (decide (∃ s, stored = some s ∧ ∃ q ∈ p :: parts, t.Passes q s)) := by
  obtain ⟨⟨j, hj, hv⟩, hb⟩ := bound_cons.1 hb
  rw [hv.text p rfl] at hj
  rw [Condition.callFrom, eval_foldl_calls t ht hb (eval_call t ht hj)]
  refine congrArg Except.ok ?_
  rw [Bool.eq_iff_iff]
  simp only [Bool.or_eq_true, List.any_eq_true, decide_eq_true_eq, List.mem_cons]
  constructor
  · rintro (⟨s, hs, h⟩ | ⟨q, hq, s, hs, h⟩)
    · exact ⟨s, hs, p, Or.inl rfl, h⟩
    · exact ⟨s, hs, q, Or.inr hq, h⟩
  · rintro ⟨s, hs, q, rfl | hq, h⟩
    · exact Or.inl ⟨s, hs, h⟩
    · exact Or.inr ⟨q, hq, s, hs, h⟩

/-- Membership among values from a slot on. -/
theorem member_eq {placeholder : Nat → String} {vs : List Operand} (s : Json) :
    ∀ {slot : Nat}, Bound placeholder values slot vs →
      Scope.member ⟨d, values⟩ s ((List.range' slot vs.length).map fun i => .param (placeholder i)) =
        .ok (decide (∃ v ∈ vs, Comparison.equals.Holds s v.toJson)) := by
  induction vs with
  | nil => intro slot _; simp [Scope.member]
  | cons v vs ih =>
    intro slot hb
    obtain ⟨⟨j, hj, hv⟩, hb⟩ := bound_cons.1 hb
    rw [List.length_cons, List.range'_succ, List.map_cons, Scope.member, value?_param hj, ih hb]
    refine congrArg Except.ok ?_
    rw [Bool.eq_iff_iff]
    simp only [Option.any_some, hv.compare, Bool.or_eq_true, beq_iff_eq, decide_eq_true_eq, List.mem_cons, exists_eq_or_imp]
    rfl

/-- A membership of a field among values from a slot on. -/
theorem eval_member {placeholder : Nat → String} {vs : List Operand} {slot : Nat} (hb : Bound placeholder values slot vs)
    (d : Document) (field : String) :
    Scope.eval ⟨d, values⟩ (.member (.path field) ((List.range' slot vs.length).map fun i => .param (placeholder i))) =
      .ok (decide (∃ s, Fields.get? d field = some s ∧ ∃ v ∈ vs, Comparison.equals.Holds s v.toJson)) := by
  rw [Scope.eval, Scope.value?]
  simp only [bind, Except.bind]
  cases Fields.get? d field with
  | none => simp
  | some s => simp only [member_eq s hb, Option.some.injEq, exists_eq_left']

/-- The casings of a part are the part itself and three variants of it. -/
theorem mem_casings {p part : String} :
    p ∈ Compile.casings part ↔ p ∈ [part, Text.lower part, Text.upper part, Text.capitalized part] := by
  rw [Compile.casings, List.mem_eraseDups]

/-- The value of the term that a text test looks at, and what the tests on it mean for the field. -/
theorem value?_target (d : Document) (values : Fields Json) (folding : Folding) (mode : Mode) (field : String) :
    ∃ stored, Scope.value? ⟨d, values⟩ (folding.target mode field) = .ok stored ∧
      ∀ (t : TextTest) (part : String), (∃ s, stored = some s ∧ ∃ q ∈ folding.parts mode part, t.Passes q s) ↔
        ∃ s, Fields.get? d field = some s ∧ t.PassesIn folding mode part s := by
  cases mode with
  | sensitive =>
    refine ⟨Fields.get? d field, by rw [Folding.target, Scope.value?], fun t part => ?_⟩
    simp only [Folding.parts, List.mem_singleton, exists_eq_left, TextTest.PassesIn]
  | insensitive =>
    cases folding with
    | casings =>
      refine ⟨Fields.get? d field, by rw [Folding.target, Scope.value?], fun t part => ?_⟩
      simp only [Folding.parts, mem_casings, TextTest.PassesIn, TextTest.PassesFolded]
    | small =>
      refine ⟨(Fields.get? d field).bind fun s => s.str?.map fun text => .str (Text.lower text), ?_, fun t part => ?_⟩
      · rw [Folding.target, Scope.value?, Scope.value?]
        cases Fields.get? d field with
        | none => rfl
        | some s => cases s <;> rfl
      · cases Fields.get? d field with
        | none => simp
        | some s => cases s <;> simp [Folding.parts, TextTest.PassesIn, TextTest.PassesFolded, Json.str?]

end Expression

/-- The casings of a part begin with the part itself. -/
theorem Compile.casings_ne_nil (part : String) : Compile.casings part ≠ [] := by
  rw [Compile.casings, List.eraseDups_cons]
  exact List.cons_ne_nil _ _

/-- A text test asks for at least one part. -/
theorem Folding.parts_ne_nil (folding : Folding) (mode : Mode) (part : String) : folding.parts mode part ≠ [] := by
  cases mode <;> cases folding <;> simp [parts, Compile.casings_ne_nil]

/-- The formula of a condition never fails, and holds of a document exactly if its field meets the condition. -/
theorem Condition.eval_formula {folding : Folding} {mode : Mode} {c : Condition} {placeholder : Nat → String}
    {values : Fields Json} {slot : Nat} (hb : Bound placeholder values slot (c.operands folding mode)) (field : String)
    (d : Document) :
    Expression.Scope.eval ⟨d, values⟩ (c.formula folding placeholder field mode slot) =
      .ok (decide (c.Passes folding mode (Fields.get? d field))) := by
  cases c with
  | compare op v =>
    obtain ⟨⟨j, hj, hv⟩, -⟩ := bound_cons.1 hb
    exact eval_compare op hj hv
  | text t part =>
    obtain ⟨stored, ht, hmeans⟩ := value?_target d values folding mode field
    obtain ⟨p, parts, hp⟩ := List.exists_cons_of_ne_nil (folding.parts_ne_nil mode part)
    rw [operands, hp] at hb
    rw [formula, hp, List.length_cons, Nat.add_sub_cancel, eval_callFrom t ht hb, ← hp]
    exact congrArg Except.ok (decide_eq_decide.2 (hmeans t part))
  | member negated vs =>
    have hslots : Bound placeholder values slot vs := hb
    have hm := eval_member hslots d field
    cases negated with
    | false => exact hm
    | true =>
      rw [formula, Scope.eval, hm]
      refine congrArg Except.ok ?_
      rw [Bool.eq_iff_iff, Bool.not_eq_true', decide_eq_false_iff_not, decide_eq_true_iff]
      rfl

/-! ## Attributes -/

/-- Placeholders read no attributes. -/
theorem flatMap_paths_params (placeholder : Nat → String) (slots : List Nat) :
    (slots.map fun i => Expression.Term.param (placeholder i)).flatMap Expression.Term.paths = [] := by
  induction slots with
  | nil => rfl
  | cons i slots ih => rw [List.map_cons, List.flatMap_cons, ih]; rfl

/-- Alternatives of tests on one term read the attributes that the first of them and the term read. -/
theorem mem_paths_calls {placeholder : Nat → String} {f : Function} {target : Term} {name : String} {slots : List Nat} :
    ∀ {g : Formula}, name ∈ ((slots.map fun i => Formula.call f [target, .param (placeholder i)]).foldl .or g).paths →
      name ∈ g.paths ∨ name ∈ target.paths := by
  induction slots with
  | nil => intro g h; exact Or.inl h
  | cons i slots ih =>
    intro g h
    rcases ih h with h | h
    · simpa [Formula.paths, Term.paths] using h
    · exact Or.inr h

/-- The formula of a condition reads no attribute but its field. -/
theorem Condition.eq_of_mem_paths {folding : Folding} {placeholder : Nat → String} {field name : String} {mode : Mode}
    {c : Condition} {slot : Nat} (h : name ∈ (c.formula folding placeholder field mode slot).paths) : name = field := by
  cases c with
  | compare op v => simpa [formula, Formula.paths, Term.paths] using h
  | text t part =>
    have htarget : (folding.target mode field).paths = [field] := by cases mode <;> cases folding <;> rfl
    rcases mem_paths_calls h with h | h
    · simpa [Formula.paths, Term.paths, htarget] using h
    · simpa [htarget] using h
  | member negated vs =>
    cases negated <;> simpa [formula, Formula.paths, Term.paths, flatMap_paths_params] using h

end DocQuery
