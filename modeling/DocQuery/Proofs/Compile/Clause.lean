import DocQuery.Proofs.Compile.Formula

/-!
# Clauses

A clause is a test with operands: its formula wherever the operands are bound, and what the formula decides about a document.
Clauses one after the other take their operands from consecutive slots, and joined by conjunctions they decide whether all of
them hold (`passes_conjoin`).
-/

namespace DocQuery

open Expression

/-- A test with operands that are bound under placeholders. -/
structure Clause (placeholder : Nat → String) where
  /-- The operands in the order of their slots. -/
  operands : List Operand
  /-- The formula whose operands stand in the slots from a number on. -/
  formula : Nat → Formula
  /-- What the formula decides about a document. -/
  holds : Document → Bool
  /-- Under values that stand for the operands the formula never fails and decides just that. -/
  eval_formula : ∀ {values : Fields Json} {slot : Nat}, Bound placeholder values slot operands →
    ∀ d, Scope.eval ⟨d, values⟩ (formula slot) = .ok (holds d)

/-- A condition on a field as a clause. -/
def Condition.clause (folding : Folding) (placeholder : Nat → String) (field : String) (mode : Mode) (c : Condition) :
    Clause placeholder where
  operands := c.operands folding mode
  formula := c.formula folding placeholder field mode
  holds := fun d => decide (c.Passes folding mode (Fields.get? d field))
  eval_formula := fun hb d => Condition.eval_formula hb field d

/-- The conditions of a field as clauses. -/
def FieldFilter.clauses (folding : Folding) (placeholder : Nat → String) (field : String) (f : FieldFilter) :
    List (Clause placeholder) :=
  f.conditions.map (Condition.clause folding placeholder field f.mode)

/-- The conditions of a filter as clauses. -/
def Where.clauses (folding : Folding) (placeholder : Nat → String) (w : Where) : List (Clause placeholder) :=
  w.entries.flatMap fun e => e.2.clauses folding placeholder e.1

/-- The conditions of a filter as clauses on other fields, each in the place of one of the filter's. -/
def Where.clausesUnder (seen : String → String) (folding : Folding) (placeholder : Nat → String) (w : Where) :
    List (Clause placeholder) :=
  w.entries.flatMap fun e => e.2.clauses folding placeholder (seen e.1)

/-- Whether a document meets every condition of every field, if other fields are in the place of those. -/
def Where.PassesUnder (seen : String → String) (folding : Folding) (w : Where) (d : Document) : Prop :=
  ∀ e ∈ w.entries, ∀ c ∈ e.2.conditions, c.Passes folding e.2.mode (Fields.get? d (seen e.1))

instance (seen : String → String) (folding : Folding) (w : Where) (d : Document) : Decidable (w.PassesUnder seen folding d) :=
  inferInstanceAs (Decidable (∀ e ∈ w.entries, ∀ c ∈ e.2.conditions, c.Passes folding e.2.mode (Fields.get? d (seen e.1))))

/-- The clauses of a filter on other fields all hold of a document exactly if it passes the filter under those. -/
theorem Where.all_clausesUnder (seen : String → String) (folding : Folding) (placeholder : Nat → String) (w : Where) (d : Document) :
    ((w.clausesUnder seen folding placeholder).all fun c => c.holds d) = decide (w.PassesUnder seen folding d) := by
  rw [Bool.eq_iff_iff, decide_eq_true_iff, List.all_eq_true]
  simp only [Where.clausesUnder, FieldFilter.clauses, List.mem_flatMap, List.mem_map, Where.PassesUnder]
  constructor
  · intro h e he c hc
    exact of_decide_eq_true (h _ ⟨e, he, c, hc, rfl⟩)
  · rintro h _ ⟨e, he, c, hc, rfl⟩
    exact decide_eq_true (h e he c hc)

/-- The clauses of a filter all hold of a document exactly if it passes the filter. -/
theorem Where.all_clauses (folding : Folding) (placeholder : Nat → String) (w : Where) (d : Document) :
    ((w.clauses folding placeholder).all fun c => c.holds d) = decide (w.Passes folding d) :=
  w.all_clausesUnder id folding placeholder d

/-- The conditions of a filter read no attributes but its fields. -/
theorem Where.mem_names_of_mem_paths {folding : Folding} {placeholder : Nat → String} {w : Where} {c : Clause placeholder}
    (hc : c ∈ w.clauses folding placeholder) {slot : Nat} {name : String} (h : name ∈ (c.formula slot).paths) :
    ∃ e ∈ w.entries, name = e.1 := by
  obtain ⟨e, he, hc⟩ := List.mem_flatMap.1 hc
  obtain ⟨condition, -, rfl⟩ := List.mem_map.1 hc
  exact ⟨e, he, condition.eq_of_mem_paths h⟩

namespace Expression

/-- Whether a document passes a formula that may be missing. -/
def Scope.passes (s : Scope) : Option Formula → Except Fault Bool
  | none => .ok true
  | some f => s.eval f

/-- Formulas with conjunctions between them, grouped to the left; nothing where there are none. -/
def conjoin : List Formula → Option Formula
  | [] => none
  | f :: rest => some (rest.foldl .and f)

/-- The attributes of a conjunction are those of its parts. -/
theorem paths_foldl_and (fs : List Formula) (f : Formula) : (fs.foldl .and f).paths = f.paths ++ fs.flatMap Formula.paths := by
  induction fs generalizing f with
  | nil => simp
  | cons g fs ih => rw [List.foldl_cons, ih, Formula.paths, List.flatMap_cons, List.append_assoc]

end Expression

namespace Clause

variable {placeholder : Nat → String}

/-- The formulas of clauses whose operands stand in consecutive slots. -/
def formulas : Nat → List (Clause placeholder) → List Formula
  | _, [] => []
  | slot, c :: rest => c.formula slot :: formulas (slot + c.operands.length) rest

/-- The operands of clauses in the order of their slots. -/
def allOperands (cs : List (Clause placeholder)) : List Operand := cs.flatMap (·.operands)

theorem allOperands_cons (c : Clause placeholder) (cs : List (Clause placeholder)) :
    allOperands (c :: cs) = c.operands ++ allOperands cs :=
  List.flatMap_cons

theorem allOperands_append (cs ds : List (Clause placeholder)) : allOperands (cs ++ ds) = allOperands cs ++ allOperands ds :=
  List.flatMap_append

theorem formulas_append (slot : Nat) (cs ds : List (Clause placeholder)) :
    formulas slot (cs ++ ds) = formulas slot cs ++ formulas (slot + (allOperands cs).length) ds := by
  induction cs generalizing slot with
  | nil => rfl
  | cons c cs ih =>
    rw [List.cons_append, formulas, ih, formulas, List.cons_append, allOperands_cons, List.length_append, Nat.add_assoc]

/-- A conjunction that goes on with clauses decides whether all of them hold, too. -/
theorem eval_foldl_and {values : Fields Json} {d : Document} {cs : List (Clause placeholder)} :
    ∀ {slot : Nat} {f : Formula} {b : Bool}, Bound placeholder values slot (allOperands cs) →
      Scope.eval ⟨d, values⟩ f = .ok b →
      Scope.eval ⟨d, values⟩ ((formulas slot cs).foldl .and f) = .ok (b && cs.all fun c => c.holds d) := by
  induction cs with
  | nil => intro slot f b _ hf; simp [formulas, hf]
  | cons c cs ih =>
    intro slot f b hb hf
    obtain ⟨hc, hcs⟩ := bound_append.1 hb
    rw [formulas, List.foldl_cons, ih hcs (eval_and hf (c.eval_formula hc d)), List.all_cons, Bool.and_assoc]

/-- The conjunction of clauses never fails, and decides whether all of them hold. -/
theorem passes_conjoin {values : Fields Json} {slot : Nat} {cs : List (Clause placeholder)}
    (hb : Bound placeholder values slot (allOperands cs)) (d : Document) :
    Scope.passes ⟨d, values⟩ (conjoin (formulas slot cs)) = .ok (cs.all fun c => c.holds d) := by
  cases cs with
  | nil => rfl
  | cons c cs =>
    obtain ⟨hc, hcs⟩ := bound_append.1 hb
    rw [formulas, conjoin, Scope.passes, eval_foldl_and hcs (c.eval_formula hc d), List.all_cons]

/-- Each of the formulas of clauses is that of a clause. -/
theorem mem_formulas {slot : Nat} {cs : List (Clause placeholder)} {f : Formula} (h : f ∈ formulas slot cs) :
    ∃ c ∈ cs, ∃ i, f = c.formula i := by
  induction cs generalizing slot with
  | nil => cases h
  | cons c cs ih =>
    rcases List.mem_cons.1 h with rfl | h
    · exact ⟨c, List.mem_cons_self, slot, rfl⟩
    · obtain ⟨c', hc, hf⟩ := ih h
      exact ⟨c', List.mem_cons_of_mem c hc, hf⟩

/-- A conjunction of clauses reads the attributes that they read. -/
theorem mem_paths_conjoin {slot : Nat} {cs : List (Clause placeholder)} {f : Formula} {name : String}
    (hf : conjoin (formulas slot cs) = some f) (h : name ∈ f.paths) : ∃ c ∈ cs, ∃ i, name ∈ (c.formula i).paths := by
  have hname : name ∈ (formulas slot cs).flatMap Formula.paths := by
    cases hfs : formulas slot cs with
    | nil => rw [hfs] at hf; cases hf
    | cons g fs =>
      rw [hfs] at hf
      cases hf
      rwa [paths_foldl_and] at h
  obtain ⟨g, hg, hname⟩ := List.mem_flatMap.1 hname
  obtain ⟨c, hc, i, rfl⟩ := mem_formulas hg
  exact ⟨c, hc, i, hname⟩

end Clause

end DocQuery
