import DocQuery.Proofs.Dynamo.KeyPlan
import DocQuery.Proofs.Dynamo.Projection

/-!
# The texts of a read

The texts of a read are compiled one after the other over the same tables, and all of them are read back with the finished ones:
the projection as the selected fields, the key condition as the conjunction of the key conditions, the filter as the conjunction
of its conditions.
-/

namespace DocQuery.Dynamo

open Expression

/-! ## Key conditions -/

/-- A range of a field. -/
theorem eval_between {d : Document} {values : Fields Json} {field : String} {slot : Nat} {low high : Operand}
    (hb : Bound placeholder values slot [low, high]) :
    Scope.eval ⟨d, values⟩ (.between (.path field) (.param (placeholder slot)) (.param (placeholder (slot + 1)))) =
      .ok (decide ((KeyCondition.between low high).Passes (Fields.get? d field))) := by
  obtain ⟨⟨l, hl, hlow⟩, hb⟩ := bound_cons.1 hb
  obtain ⟨⟨h, hh, hhigh⟩, -⟩ := bound_cons.1 hb
  rw [Scope.eval, Scope.value?, value?_param hl, value?_param hh]
  simp only [bind, Except.bind]
  cases Fields.get? d field with
  | none => simp [KeyCondition.Passes, Condition.Passes]
  | some s =>
    have hge := (admits_iff .gte s l).trans (Comparison.holds_congr hlow.compare .gte s)
    have hle := (admits_iff .lte s h).trans (Comparison.holds_congr hhigh.compare .lte s)
    simp only [relationOf] at hge hle
    refine congrArg Except.ok ?_
    rw [Bool.eq_iff_iff, Bool.and_eq_true, hge, hle, decide_eq_true_iff]
    simp [KeyCondition.Passes, Condition.Passes]

/-- A condition on a key as a clause. -/
def KeyCondition.clause (field : String) : KeyCondition → Clause placeholder
  | .single c => c.clause .casings placeholder field .sensitive
  | .between low high => {
      operands := [low, high]
      formula := fun slot => .between (.path field) (.param (placeholder slot)) (.param (placeholder (slot + 1)))
      holds := fun d => decide ((KeyCondition.between low high).Passes (Fields.get? d field))
      eval_formula := fun hb _ => eval_between hb }

/-- The clauses of key conditions. -/
def keyClauses (keys : List (String × KeyCondition)) : List (Clause placeholder) := keys.map fun e => e.2.clause e.1

theorem KeyCondition.holds_clause (c : KeyCondition) (field : String) (d : Document) :
    (c.clause field).holds d = decide (c.Passes (Fields.get? d field)) := by
  cases c <;> rfl

/-- The clauses of key conditions all hold of a document exactly if its keys meet them. -/
theorem all_keyClauses (keys : List (String × KeyCondition)) (d : Document) :
    ((keyClauses keys).all fun c => c.holds d) = decide (∀ e ∈ keys, e.2.Passes (Fields.get? d e.1)) := by
  rw [keyClauses, List.all_map, Bool.eq_iff_iff, List.all_eq_true, decide_eq_true_iff]
  simp only [Function.comp_def, KeyCondition.holds_clause, decide_eq_true_eq]

/-- A range is compiled to a fragment with two slots. -/
theorem compileKey_between_yields (field : String) (low high : Operand) (b : Bindings (List String)) :
    (compileKey field (.between low high)).Yields b
      (Fragment.text ((dialect.reference b.table field).1 ++ " BETWEEN ") ++ Fragment.slot b.params.length ++
        Fragment.text " AND " ++ Fragment.slot (b.params.length + 1))
      ⟨(dialect.reference b.table field).2, b.params ++ [low, high]⟩ := by
  have hparams : b.params ++ [low, high] = b.params ++ [low] ++ [high] := List.append_cons _ _ _
  have hlength : b.params.length + 1 = (b.params ++ [low]).length := by
    rw [List.length_append, List.length_singleton]
  rw [hparams, hlength]
  rfl

/-- An orderly key condition is compiled to its clause. -/
theorem compileKey_stands {field : String} {c : KeyCondition} (h : c.Orderly) (b : Bindings (List String)) :
    ∃ f b', (compileKey field c).Yields b f b' ∧ reading.Stand [c.clause field] b b' [f] := by
  cases h with
  | @compare op v _ => exact reading.condition_stands (c := .compare op v) trivial .sensitive (fun _ _ h => by cases h) b
  | startsWith part =>
    exact reading.condition_stands (c := .text .startsWith part) trivial .sensitive (fun _ _ h => by cases h) b
  | between low high =>
    refine ⟨_, _, compileKey_between_yields field low high b, Dialect.Reading.Stand.single
      (c := (KeyCondition.between low high).clause field) (reading.leads_reference b.table field) fun {u} hu => ?_⟩
    have hfield : TermText (namesOf u) (dialect.reference b.table field).1.toList (.path field) := reading.reference trivial hu
    have htext := FormulaText.between hfield (placeholder_text (namesOf u) b.params.length)
      (placeholder_text (namesOf u) (b.params.length + 1))
    simp only [Fragment.render_append, Fragment.render_text, Fragment.render_slot, String.toList_append, List.append_assoc]
    exact htext

/-! ## Reads -/

/-- Orderly key conditions with finite operands. -/
def Plain (keys : List (String × KeyCondition)) : Prop := ∀ e ∈ keys, e.2.Orderly ∧ ∀ v ∈ e.2.given, v.isFinite = true

/-- The operands of plain key conditions are finite. -/
theorem Plain.isFinite {keys : List (String × KeyCondition)} (h : Plain keys) :
    ∀ v ∈ Clause.allOperands (keyClauses keys), v.isFinite = true := by
  intro v hv
  obtain ⟨clause, hclause, hv⟩ := List.mem_flatMap.1 hv
  obtain ⟨⟨field, c⟩, he, rfl⟩ := List.mem_map.1 hclause
  have hgiven := (h _ he).2
  cases c with
  | single c => exact isFinite_of_mem_operands hgiven v hv
  | between low high => exact hgiven v hv

/-- The clauses of a read in the order of their operands. -/
def readClauses (keys : List (String × KeyCondition)) (remaining : Where) : List (Clause placeholder) :=
  keyClauses keys ++ remaining.clauses .casings placeholder

/-- What the texts of a read are read back as, with the tables that go with them. -/
structure TextsStand (select : Select) (keys : List (String × KeyCondition)) (remaining : Where) (texts : Texts)
    (tables : Tables) : Prop where
  projection : Memory.parseOptional (parsePaths · tables.names) texts.projection = .ok select.selected?
  keyCondition : keys ≠ [] → ∃ f, conjoin (Clause.formulas 0 (keyClauses keys)) = some f ∧
    parseFormula texts.keyCondition tables.names = .ok f
  filter : Memory.parseOptional (parseFormula · tables.names) texts.filter =
    .ok (conjoin (Clause.formulas (Clause.allOperands (keyClauses keys)).length (remaining.clauses .casings placeholder)))
  values : Memory.plainValues tables.values = .ok tables.decoded
  bound : Bound placeholder tables.decoded 0 (Clause.allOperands (readClauses keys remaining))

/-- The texts of a read can be compiled, and are read back as what they were compiled from. -/
theorem readTexts?_stands (select : Select) {keys : List (String × KeyCondition)} (hk : Plain keys) {remaining : Where}
    (hv : remaining.Valid) (hw : WithinLimit remaining) :
    ∃ texts tables, readTexts? select keys remaining = .ok (texts, tables) ∧ TextsStand select keys remaining texts tables := by
  obtain ⟨fs, b, hfs, hks⟩ := reading.mapM_stands (fun e => compileKey e.1 e.2) (fun e => e.2.clause e.1)
    (fun e he => compileKey_stands (hk e he).1) ⟨(projection [] select).2, []⟩
  obtain ⟨f, b', hf, hs⟩ := reading.filter_stands hv (compilable_of_withinLimit hv hw) b
  have htexts : (compileTexts select keys remaining).Yields ⟨[], []⟩
      ⟨(projection [] select).1, Bindings.render dialect (Fragment.join " AND " fs), f.map (Bindings.render dialect)⟩ b' :=
    (compileProjection_yields select ⟨[], []⟩).bind (hfs.bind (hf.map _))
  have hparams : b'.params = Clause.allOperands (readClauses keys remaining) := by
    rw [hs.params, hks.params, readClauses, Clause.allOperands_append]
    rfl
  have hfinite : ∀ v ∈ b'.params, v.isFinite = true := by
    intro v hm
    rw [hparams, readClauses, Clause.allOperands_append] at hm
    rcases List.mem_append.1 hm with hm | hm
    · exact hk.isFinite v hm
    · exact isFinite_of_mem_allOperands hv .casings placeholder v hm
  have hread : readTexts? select keys remaining = .ok (⟨(projection [] select).1,
      Bindings.render dialect (Fragment.join " AND " fs), f.map (Bindings.render dialect)⟩, Tables.ofBindings b') := by
    unfold Compile.Yields at htexts
    rw [readTexts?, htexts]
  have hfilter := parseOptional_of_rel (hs.rendered (List.prefix_refl _))
  rw [hks.params] at hfilter
  have hprojection := parse_projection select (hks.leads.trans hs.leads)
  refine ⟨_, _, hread, ⟨hprojection, fun hne => ?_, hfilter, plainValues_ofBindings hfinite, ?_⟩⟩
  · obtain ⟨g, hg, htext⟩ := hks.joined (hks.ne_nil (mt List.map_eq_nil_iff.1 hne)) hs.leads
    exact ⟨g, hg, htext.parse⟩
  · have hbound : b'.params = [] ++ Clause.allOperands (readClauses keys remaining) := hparams
    have hdecoded := bound_decoded hbound (by rw [← hparams]; exact hfinite)
    exact hdecoded

/-- The key condition of a read never fails, and holds of just those documents whose keys meet the key conditions. -/
theorem TextsStand.passes_key {select : Select} {keys : List (String × KeyCondition)} {remaining : Where} {texts : Texts}
    {tables : Tables} (h : TextsStand select keys remaining texts tables) (d : Document) :
    Scope.passes ⟨d, tables.decoded⟩ (conjoin (Clause.formulas 0 (keyClauses keys))) =
      .ok (decide (∀ e ∈ keys, e.2.Passes (Fields.get? d e.1))) := by
  have hb := h.bound
  rw [readClauses, Clause.allOperands_append] at hb
  rw [← all_keyClauses]
  exact Clause.passes_conjoin (bound_append.1 hb).1 d

/-- The filter of a read never fails, and holds of just those documents that pass the filter. -/
theorem TextsStand.passes_filter {select : Select} {keys : List (String × KeyCondition)} {remaining : Where} {texts : Texts}
    {tables : Tables} (h : TextsStand select keys remaining texts tables) (d : Document) :
    Scope.passes ⟨d, tables.decoded⟩ (conjoin (Clause.formulas (Clause.allOperands (keyClauses keys)).length
      (remaining.clauses .casings placeholder))) = .ok (decide (remaining.Passes .casings d)) := by
  have hb := h.bound
  rw [readClauses, Clause.allOperands_append] at hb
  have hb := (bound_append.1 hb).2
  rw [Nat.zero_add] at hb
  rw [← Where.all_clauses .casings placeholder]
  exact Clause.passes_conjoin hb d

end DocQuery.Dynamo
