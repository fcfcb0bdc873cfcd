import DocQuery.Proofs.Dynamo.Filter
import DocQuery.Proofs.Filter.Single

/-!
# Casings

DynamoDB has no function that lowers the case of a stored text, so a text test that disregards case is compiled to one test for each
casing of its part, of which one has to hold. The part itself is the first casing: whatever the test that regards case finds, the
one that disregards it finds, too. Main statement: `insensitive_keeps_matches`, about the texts that are compiled, as a store reads
them back.
-/

namespace DocQuery

/-! ## The casings of a text -/

/-- Removing repetitions leaves none. -/
theorem nodup_eraseDups {α : Type} [BEq α] [LawfulBEq α] : ∀ xs : List α, xs.eraseDups.Nodup
  | [] => by rw [List.eraseDups_nil]; exact List.nodup_nil
  | x :: xs => by
    have hrest := nodup_eraseDups (xs.filter fun y => !y == x)
    rw [List.eraseDups_cons, List.nodup_cons]
    refine ⟨fun h => ?_, hrest⟩
    simpa using (List.mem_filter.1 (List.mem_eraseDups.1 h)).2
termination_by xs => xs.length
decreasing_by exact Nat.lt_succ_of_le (List.length_filter_le _ _)

/-- The casings of a text are different texts, at most four, and the text itself comes first. -/
theorem Compile.casings_spec (s : String) : (casings s).Nodup ∧ (casings s).length ≤ 4 ∧ (casings s).head? = some s := by
  have hnodup : (casings s).Nodup := nodup_eraseDups _
  have hsubset : casings s ⊆ [s, Text.lower s, Text.upper s, Text.capitalized s] := fun _ h => Expression.mem_casings.1 h
  refine ⟨hnodup, (hnodup.subperm hsubset).length_le, ?_⟩
  rw [casings, List.eraseDups_cons, List.head?_cons]

/-- What meets a condition in the sensitive mode meets it in the insensitive one, where this tries the casings of a part. -/
theorem Condition.Passes.insensitive {c : Condition} {stored : Option Json} (h : c.Passes .casings .sensitive stored) :
    c.Passes .casings .insensitive stored := by
  cases c with
  | compare op v => exact h
  | member negated vs => cases negated <;> exact h
  | text t part =>
    obtain ⟨s, hs, hpasses⟩ := h
    exact ⟨s, hs, part, List.mem_cons_self, hpasses⟩

/-- A text test in the insensitive mode is met exactly by what meets the test of one of the casings in the sensitive mode. -/
theorem Condition.passes_insensitive_text_iff (t : TextTest) (part : String) (stored : Option Json) :
    (Condition.text t part).Passes .casings .insensitive stored ↔
      ∃ q ∈ Compile.casings part, (Condition.text t q).Passes .casings .sensitive stored := by
  constructor
  · rintro ⟨s, hs, q, hq, h⟩
    exact ⟨q, Expression.mem_casings.2 hq, s, hs, h⟩
  · rintro ⟨q, hq, s, hs, h⟩
    exact ⟨s, hs, q, Expression.mem_casings.1 hq, h⟩

/-- The mode of a field is the mode of its text tests only. -/
theorem Compile.condition_mode {σ : Type} (d : Dialect σ) (field : String) {c : Condition} (h : ∀ t part, c ≠ .text t part)
    (mode mode' : Mode) : Compile.condition d field mode c = Compile.condition d field mode' c := by
  cases c with
  | compare op v => rfl
  | text t part => exact absurd rfl (h t part)
  | member negated vs => cases negated <;> rfl

namespace Dynamo

open Expression

/-! ## What is found -/

/-- Whether a store finds a document by what a step compiles after other things were compiled: the step succeeds, its text is read
back with the names of the finished tables, and under the values of these tables it holds of the document. -/
def Finds (step : Compile (List String) (Option Fragment)) (b : Bindings (List String)) (d : Document) : Prop :=
  ∃ fragment b' condition values,
    step.Yields b fragment b' ∧
    Memory.parseOptional (parseFormula · (Tables.ofBindings b').names) (fragment.map (Bindings.render dialect)) =
      .ok condition ∧
    Memory.plainValues (Tables.ofBindings b').values = .ok values ∧
    Scope.passes ⟨d, values⟩ condition = .ok true

/-- A single condition on a field. -/
def single (field : String) (mode : Mode) (c : Condition) : Compile (List String) (Option Fragment) := do
  return some (← Compile.condition dialect field mode c)

/-- The filter on one field. -/
def onField (field : String) (conditions : List Condition) (mode : Mode) : Where := Keyed.ofList [(field, ⟨conditions, mode⟩)]

variable {b : Bindings (List String)} {step : Compile (List String) (Option Fragment)}

/-- What is not compiled finds nothing. -/
theorem not_finds_of_ends {e? : Option Error} (h : Compile.Ends step e?) (he : e? ≠ none) (d : Document) : ¬Finds step b d := by
  rintro ⟨f, b', _, _, hstep, -⟩
  have hb := h b
  rw [show step.run.run b = _ from hstep] at hb
  exact he hb

/-- A step that is compiled to the conjunction of clauses with finite operands finds those documents of which they all hold. -/
theorem finds_iff {b' : Bindings (List String)} {f : Option Fragment} {cs : List (Clause placeholder)}
    (hstep : step.Yields b f b') (hparams : b'.params = b.params ++ Clause.allOperands cs)
    (htext : Option.Rel (fun text g => FormulaText (namesOf b'.table) .disjunction text.toList g)
      (f.map (Bindings.render dialect)) (conjoin (Clause.formulas b.params.length cs)))
    (hb : ∀ v ∈ b.params, v.isFinite = true) (hcs : ∀ v ∈ Clause.allOperands cs, v.isFinite = true) (d : Document) :
    Finds step b d ↔ (cs.all fun c => c.holds d) = true := by
  have hparse : Memory.parseOptional (parseFormula · (Tables.ofBindings b').names) (f.map (Bindings.render dialect)) =
      .ok (conjoin (Clause.formulas b.params.length cs)) := parseOptional_of_rel htext
  have hvalues : Memory.plainValues (Tables.ofBindings b').values = .ok (Tables.ofBindings b').decoded := by
    refine plainValues_ofBindings fun v hv => ?_
    rw [hparams] at hv
    exact (List.mem_append.1 hv).elim (hb v) (hcs v)
  have hpasses := Clause.passes_conjoin (bound_decoded hparams hcs) d
  constructor
  · rintro ⟨f', b'', condition, values, hstep', hparse', hvalues', hholds⟩
    cases hstep.symm.trans hstep'
    cases hparse.symm.trans hparse'
    cases hvalues.symm.trans hvalues'
    exact Except.ok.inj (hpasses.symm.trans hholds)
  · intro hall
    exact ⟨f, b', _, _, hstep, hparse, hvalues, hpasses.trans (congrArg Except.ok hall)⟩

/-- A condition finds the documents whose field meets it, unless it is a membership that DynamoDB does not take. -/
theorem finds_single_iff {c : Condition} (hne : ∀ negated vs, c = .member negated vs → vs ≠ [])
    (hc : ∀ v ∈ c.given, v.isFinite = true) (hb : ∀ v ∈ b.params, v.isFinite = true) (field : String) (mode : Mode)
    (d : Document) : Finds (single field mode c) b d ↔ Narrow c ∧ c.Passes .casings mode (Fields.get? d field) := by
  by_cases hnarrow : Narrow c
  · have hcompilable : c.Compilable dialect.maxInList? := by
      rintro negated vs rfl
      exact ⟨hne negated vs rfl, fun m hm => by cases hm; exact hnarrow⟩
    have hfits : reading.Fits field := trivial
    obtain ⟨f, b', hf, hs⟩ := reading.condition_stands hfits mode hcompilable b
    obtain ⟨g, hg, htext⟩ := hs.joined (List.cons_ne_nil f []) (List.prefix_refl _)
    have hoperands : Clause.allOperands [c.clause .casings placeholder field mode] = c.operands .casings mode :=
      List.append_nil _
    have hfinite : ∀ v ∈ Clause.allOperands [c.clause .casings placeholder field mode], v.isFinite = true :=
      hoperands ▸ isFinite_of_mem_operands hc
    have hstep : (single field mode c).Yields b (some f) b' := hf.map some
    have hholds : ([c.clause .casings placeholder field mode].all fun c => c.holds d) = true ↔
        c.Passes .casings mode (Fields.get? d field) := by simp [Condition.clause]
    exact (finds_iff hstep hs.params (hg ▸ .some htext) hb hfinite d).trans (hholds.trans (and_iff_right hnarrow).symm)
  · have hends : Compile.Ends (single field mode c) ((c.fault? dialect.maxInList? field).or none) :=
      (Compile.condition_ends dialect field mode c).bind fun f => (Compile.Succeeds.pure (some f)).ends
    rw [Option.or_none] at hends
    have hfault : c.fault? dialect.maxInList? field ≠ none := fun h => hnarrow (narrow_of_fault? h)
    exact iff_of_false (not_finds_of_ends hends hfault d) fun h => hnarrow h.1

/-- A valid filter finds the documents that pass it, unless a membership in it is one that DynamoDB does not take. -/
theorem finds_filter_iff {w : Where} (hv : w.Valid) (hb : ∀ v ∈ b.params, v.isFinite = true) (d : Document) :
    Finds (Compile.filter dialect w) b d ↔ WithinLimit w ∧ w.Passes .casings d := by
  by_cases hwithin : WithinLimit w
  · obtain ⟨f, b', hf, hs⟩ := reading.filter_stands hv (compilable_of_withinLimit hv hwithin) b
    have hholds : ((w.clauses .casings placeholder).all fun c => c.holds d) = true ↔ w.Passes .casings d := by
      rw [Where.all_clauses, decide_eq_true_iff]
    exact (finds_iff hf hs.params (hs.rendered (List.prefix_refl _)) hb (isFinite_of_mem_allOperands hv .casings placeholder)
      d).trans (hholds.trans (and_iff_right hwithin).symm)
  · have hfault : w.fault? dialect.maxInList? ≠ none := fun h => hwithin (withinLimit_of_fault? h)
    exact iff_of_false (not_finds_of_ends (Compile.filter_ends dialect hv) hfault d) fun h => hwithin h.1

/-- A filter of one condition that is valid, and that DynamoDB takes, finds the documents whose field meets the condition. -/
theorem finds_on_iff {c : Condition} {field : String} {mode : Mode} {d : Document} (hb : ∀ v ∈ b.params, v.isFinite = true)
    (hnarrow : Narrow c) (hc : (c.on field mode).Valid ↔ field ≠ "") :
    Finds (Compile.filter dialect (c.on field mode)) b d ↔ field ≠ "" ∧ c.Passes .casings mode (Fields.get? d field) := by
  by_cases hfield : field = ""
  · refine iff_of_false ?_ fun h => h.1 hfield
    cases hcheck : (c.on field mode).validate with
    | ok u => exact absurd hfield (hc.1 hcheck)
    | error e =>
      have hends : Compile.Ends (Compile.filter dialect (c.on field mode)) (some e) := by
        rw [Compile.filter, hcheck]
        exact fun _ => rfl
      exact not_finds_of_ends hends (Option.some_ne_none e) d
  · have hwithin : WithinLimit (c.on field mode) := by
      intro e he c' hc'
      obtain rfl := List.mem_singleton.1 he
      obtain rfl := List.mem_singleton.1 hc'
      exact hnarrow
    rw [finds_filter_iff (hc.2 hfield) hb, Condition.passes_on_iff]
    exact and_congr_left fun _ => iff_of_true hwithin hfield

/-! ## The filter on one field -/

/-- The conditions of all fields of the filter on one field are its conditions. -/
theorem forall_onField {p : String × FieldFilter → Condition → Prop} (field : String) (conditions : List Condition) (mode : Mode) :
    (∀ e ∈ (onField field conditions mode).entries, ∀ c ∈ e.2.conditions, p e c) ↔
      ∀ c ∈ conditions, p (field, ⟨conditions, mode⟩) c :=
  List.forall_mem_singleton

/-- A filter on one field finds the documents that each of its conditions finds. -/
theorem finds_onField_iff {field : String} {conditions : List Condition} {mode : Mode}
    (hv : (onField field conditions mode).Valid) (hb : ∀ v ∈ b.params, v.isFinite = true) (d : Document) :
    Finds (Compile.filter dialect (onField field conditions mode)) b d ↔
      ∀ c ∈ conditions, Finds (single field mode c) b d := by
  have hsingle : ∀ c ∈ conditions,
      (Finds (single field mode c) b d ↔ Narrow c ∧ c.Passes .casings mode (Fields.get? d field)) := by
    intro c hc
    obtain ⟨hne, hfinite⟩ := hv.condition (e := (field, ⟨conditions, mode⟩)) (List.mem_singleton_self _) hc
    exact finds_single_iff hne hfinite hb field mode d
  rw [finds_filter_iff hv hb, WithinLimit, Where.Passes, forall_onField, forall_onField, ← forall₂_and]
  exact forall₂_congr fun c hc => (hsingle c hc).symm

/-- Whatever was compiled before, a filter on one field finds in the insensitive mode every document that it finds in the sensitive
one. In either mode it finds those that each of its conditions finds. A text test in the insensitive mode binds the casings of its
part, which are different texts, at most four, the part itself the first of them, and finds a document exactly if the test of one
of them finds it in the sensitive mode; and every other condition is compiled without regard to the mode. -/
theorem insensitive_keeps_matches (field : String) (conditions : List Condition)
    (hv : (onField field conditions .sensitive).Valid) (b : Bindings (List String)) (hb : ∀ v ∈ b.params, v.isFinite = true)
    (d : Document) :
    (Finds (Compile.filter dialect (onField field conditions .sensitive)) b d →
      Finds (Compile.filter dialect (onField field conditions .insensitive)) b d) ∧
    (∀ mode, Finds (Compile.filter dialect (onField field conditions mode)) b d ↔
      ∀ c ∈ conditions, Finds (single field mode c) b d) ∧
    (∀ t part, Condition.text t part ∈ conditions →
      (∃ fragment b', (Compile.condition dialect field .insensitive (.text t part)).Yields b fragment b' ∧
        b'.params = b.params ++ (Compile.casings part).map .text) ∧
      (Compile.casings part).Nodup ∧ (Compile.casings part).length ≤ 4 ∧ (Compile.casings part).head? = some part ∧
      (Finds (single field .insensitive (.text t part)) b d ↔
        ∃ q ∈ Compile.casings part, Finds (single field .sensitive (.text t q)) b d)) ∧
    ∀ c ∈ conditions, (∀ t part, c ≠ .text t part) →
      Compile.condition dialect field .insensitive c = Compile.condition dialect field .sensitive c := by
  have hvalid : ∀ mode, (onField field conditions mode).Valid := fun mode => hv
  have htext : ∀ mode t part, Finds (single field mode (.text t part)) b d ↔
      (Condition.text t part).Passes .casings mode (Fields.get? d field) := by
    intro mode t part
    have hne : ∀ negated vs, Condition.text t part = .member negated vs → vs ≠ [] := nofun
    have hfinite : ∀ v ∈ (Condition.text t part).given, v.isFinite = true := fun v hv => by
      rw [List.mem_singleton.1 hv]
      rfl
    rw [finds_single_iff hne hfinite hb]
    exact and_iff_right trivial
  refine ⟨fun h => ?_, fun mode => finds_onField_iff (hvalid mode) hb d, fun t part _ => ⟨?_, ?_⟩,
    fun c _ hc => Compile.condition_mode dialect field hc _ _⟩
  · rw [finds_filter_iff (hvalid _) hb, WithinLimit, Where.Passes, forall_onField, forall_onField] at h ⊢
    exact ⟨h.1, fun c hc => (h.2 c hc).insensitive⟩
  · have hcompilable : (Condition.text t part).Compilable dialect.maxInList? := nofun
    have hfits : reading.Fits field := trivial
    obtain ⟨f, b', hf, hs⟩ := reading.condition_stands hfits .insensitive hcompilable b
    exact ⟨f, b', hf, hs.params.trans (congrArg (b.params ++ ·) (List.append_nil _))⟩
  · obtain ⟨hnodup, hlength, hhead⟩ := Compile.casings_spec part
    refine ⟨hnodup, hlength, hhead, ?_⟩
    rw [htext, Condition.passes_insensitive_text_iff]
    exact exists_congr fun q => and_congr_right fun _ => (htext .sensitive t q).symm

/-- A document whose tags hold the part itself, found after a request has bound an operand already. -/
theorem insensitive_keeps_matches_among_tags :
    Finds (Compile.filter dialect
      (onField "tags" [.text .contains "straße", .member true [.text "old"]] .insensitive)) ⟨["age"], [.integer 18]⟩
      [("tags", .arr [.str "a", .str "straße"])] := by
  have hv : (onField "tags" [.text .contains "straße", .member true [.text "old"]] .sensitive).Valid := rfl
  have hb : ∀ v ∈ (⟨["age"], [.integer 18]⟩ : Bindings (List String)).params, v.isFinite = true := by decide
  refine (insensitive_keeps_matches _ _ hv _ hb _).1 ?_
  rw [finds_filter_iff hv hb]
  decide

end Dynamo

end DocQuery
