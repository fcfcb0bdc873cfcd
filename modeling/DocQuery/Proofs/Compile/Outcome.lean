import DocQuery.Proofs.Compile.Layout

/-!
# What compiling a filter comes to

Compiling a filter fails over a filter that does not pass its check, which leaves no trace, and over a list that is longer than the
dialect takes. A filter without fields becomes nothing, and every other one a fragment that is not empty. No step of compiling moves
or changes an operand that was bound before, whether it succeeds or fails (`Keeps`). Main statement: `filter_outcome`.
-/

namespace DocQuery

/-! ## Conditions of valid filters -/

/-- A condition that can be compiled has operands. -/
theorem Condition.operands_ne_nil {max? : Option Nat} {c : Condition} (h : c.Compilable max?) (folding : Folding) (mode : Mode) :
    c.operands folding mode ≠ [] := by
  cases c with
  | compare op v => exact List.cons_ne_nil v []
  | text t part =>
    intro hnil
    exact folding.parts_ne_nil mode part (List.map_eq_nil_iff.1 hnil)
  | member negated vs => exact (h negated vs rfl).1

namespace Where

/-- A valid filter with fields has conditions. -/
theorem Valid.tests_ne_nil {w : Where} (h : w.Valid) (hne : w.entries ≠ []) : w.tests ≠ [] := by
  obtain ⟨e, entries, hentries⟩ := List.exists_cons_of_ne_nil hne
  have he := h.field (hentries ▸ List.mem_cons_self)
  rw [FieldFilter.validate] at he
  intro hnil
  rw [tests, hentries, List.flatMap_cons, List.append_eq_nil_iff, List.map_eq_nil_iff] at hnil
  rw [hnil.1] at he
  cases he

/-- A valid filter has a fault exactly if one of its lists is too long. -/
theorem Valid.fault?_ne_none_iff {w : Where} (h : w.Valid) (max? : Option Nat) :
    w.fault? max? ≠ none ↔ ∃ max, max? = some max ∧
      ∃ e ∈ w.entries, ∃ negated vs, Condition.member negated vs ∈ e.2.conditions ∧ max < vs.length := by
  constructor
  · intro hfault
    simp only [ne_eq, fault?, FieldFilter.fault?, List.findSome?_eq_none_iff, not_forall] at hfault
    obtain ⟨e, he, c, hc, hfault⟩ := hfault
    cases c with
    | compare op v => exact absurd rfl hfault
    | text t part => exact absurd rfl hfault
    | member negated vs =>
      have hempty : vs.isEmpty = false := by simpa using (h.condition he hc).1 negated vs rfl
      rw [Condition.fault?, hempty] at hfault
      cases max? with
      | none => exact absurd rfl hfault
      | some max =>
        refine ⟨max, rfl, e, he, negated, vs, hc, ?_⟩
        by_contra hle
        exact hfault (if_neg hle)
  · rintro ⟨max, rfl, e, he, negated, vs, hc, hlong⟩ hfault
    obtain ⟨-, hmax⟩ := compilable_of_fault? hfault e he _ hc negated vs rfl
    exact Nat.not_lt.2 (hmax max rfl) hlong

end Where

namespace Compile

/-! ## Operands stay bound -/

section

variable {σ α β : Type}

/-- A step that leaves every operand in its slot, whether it succeeds or fails. -/
def Keeps (step : Compile σ α) : Prop := ∀ b, b.params <+: (step.run.run b).2.params

theorem Keeps.pure (a : α) : Keeps (Pure.pure a : Compile σ α) := fun _ => List.prefix_rfl

theorem Keeps.throw (e : Error) : Keeps (throw e : Compile σ α) := fun _ => List.prefix_rfl

/-- One step after another, which the first may prevent. -/
theorem Keeps.bind {step : Compile σ α} {next : α → Compile σ β} (h : Keeps step) (hnext : ∀ a, Keeps (next a)) :
    Keeps (step >>= next) := by
  intro b
  have hb := h b
  rw [ExceptT.run_bind, StateT.run_bind]
  rcases hstep : step.run.run b with ⟨e | a, b'⟩
  · rw [hstep] at hb
    exact hb
  · rw [hstep] at hb
    exact hb.trans (hnext a b')

/-- A step for each of several items. -/
theorem Keeps.mapM {xs : List α} {step : α → Compile σ β} (h : ∀ x ∈ xs, Keeps (step x)) : Keeps (xs.mapM step) := by
  induction xs with
  | nil => exact .pure []
  | cons x xs ih =>
    obtain ⟨hx, hxs⟩ := List.forall_mem_cons.1 h
    rw [List.mapM_cons]
    exact hx.bind fun y => (ih hxs).bind fun ys => .pure (y :: ys)

end

variable {σ : Type} (d : Dialect σ)

theorem bindOperand_keeps (v : Operand) : Keeps (bindOperand v : Compile σ Nat) := fun b => List.prefix_append b.params [v]

theorem reference_keeps (field : String) : Keeps (reference d field) := fun _ => List.prefix_rfl

/-- A step that is laid out only adds operands. -/
theorem Lays.keeps {step : Compile σ Fragment} {p : Passage} (h : Lays step p) : Keeps step := by
  intro b
  rw [show step.run.run b = _ from h b]
  exact List.prefix_append b.params (Passage.operands p)

/-- A membership fails before it binds a value, if at all. -/
theorem membership_keeps (field target : String) (vs : List Operand) : Keeps (membership d field target vs) := by
  by_cases hne : vs = []
  · subst hne
    exact Keeps.throw _
  by_cases hmax : ∀ m ∈ d.maxInList?, vs.length ≤ m
  · exact (membership_lays field target hne hmax).keeps
  · simp only [Option.mem_def, not_forall, Nat.not_le] at hmax
    obtain ⟨m, hm, hlong⟩ := hmax
    have hempty : vs.isEmpty = false := by simpa using hne
    rw [membership, hempty, hm]
    simp only [if_pos hlong]
    exact Keeps.throw _

theorem condition_keeps (field : String) (mode : Mode) (c : Condition) : Keeps (condition d field mode c) := by
  refine (reference_keeps d field).bind fun target => ?_
  cases c with
  | compare op v => exact (bindOperand_keeps v).bind fun slot => .pure _
  | text t part => exact (textTest_lays t target part mode).keeps
  | member negated vs => cases negated with
    | false => exact membership_keeps d field target vs
    | true => exact (membership_keeps d field target vs).bind fun f => .pure _

/-- Compiling a filter only adds operands, whether it succeeds or fails. -/
theorem filter_keeps (w : Where) : Keeps (filter d w) := by
  cases hvalidate : w.validate with
  | error e =>
    intro b
    rw [filter_of_invalid d hvalidate]
  | ok u =>
    rw [filter, show w.validate = .ok () from hvalidate]
    refine (Keeps.pure ()).bind fun _ => ?_
    have hfields : Keeps (w.entries.mapM fun e => Compile.field d e.1 e.2) :=
      Keeps.mapM fun e _ => Keeps.mapM fun c _ => condition_keeps d e.1 e.2.mode c
    refine hfields.bind fun predicates => ?_
    split <;> exact .pure _

/-! ## Filters -/

variable {d}

/-- A filter with fields that was compiled is a fragment that is not empty. -/
theorem nonempty_of_yields {w : Where} (hne : w.entries ≠ []) {b b' : Bindings σ} {f : Option Fragment}
    (h : (filter d w).Yields b f b') : ∃ g, f = some g ∧ g.isEmpty = false := by
  obtain ⟨hv, hc⟩ := accepted_of_yields h
  obtain ⟨hf, -⟩ := passage_of_yields h
  obtain ⟨x, tests, htests⟩ := List.exists_cons_of_ne_nil (hv.tests_ne_nil hne)
  have hx : x ∈ w.tests := htests ▸ List.mem_cons_self
  obtain ⟨e, he, hx⟩ := List.mem_flatMap.1 hx
  obtain ⟨c, hmem, rfl⟩ := List.mem_map.1 hx
  -- The first condition has an operand, and so the fragment has a slot.
  have hoperands : Passage.operands (passage d b.table w) ≠ [] := by
    rw [operands_passage, htests, Dialect.referred, List.flatMap_cons]
    intro hnil
    exact Condition.operands_ne_nil (hc e he c hmem) _ _ (List.append_eq_nil_iff.1 hnil).1
  have hslots := Passage.slots_fragment b.params.length (passage d b.table w)
  rw [htests] at hf
  refine ⟨_, hf, ?_⟩
  rw [Fragment.isEmpty, Bool.and_eq_false_iff]
  right
  cases htail : ((passage d b.table w).fragment b.params.length).tail with
  | nil =>
    rw [Fragment.slots, htail, List.map_nil, eq_comm, List.range'_eq_nil_iff, List.length_eq_zero_iff] at hslots
    exact absurd hslots hoperands
  | cons slot rest => rfl

/-- Whether compiling a filter fails: exactly if the filter does not pass its check, or one of its lists is too long. -/
theorem fails_iff (b : Bindings σ) (w : Where) :
    (∃ e, ((filter d w).run.run b).1 = .error e) ↔ (∃ e, w.validate = .error e) ∨
      ∃ max, d.maxInList? = some max ∧
        ∃ e ∈ w.entries, ∃ negated vs, Condition.member negated vs ∈ e.2.conditions ∧ max < vs.length := by
  cases hvalidate : w.validate with
  | error e =>
    rw [filter_of_invalid d hvalidate]
    exact iff_of_true ⟨e, rfl⟩ (.inl ⟨e, rfl⟩)
  | ok u =>
    have hv : w.Valid := hvalidate
    have hends := filter_ends d hv b
    rw [← hv.fault?_ne_none_iff]
    cases hresult : ((filter d w).run.run b).1 with
    | error e =>
      rw [hresult] at hends
      exact iff_of_true ⟨e, rfl⟩ (.inr (by rw [show _ = some e from hends]; exact Option.some_ne_none e))
    | ok f =>
      rw [hresult] at hends
      refine iff_of_false nofun ?_
      rintro (⟨e, he⟩ | hfault)
      · cases he
      · exact hfault hends

/-- What compiling a filter comes to. It fails exactly if the filter does not pass its check or one of its lists is longer than the
dialect takes; a filter that does not pass its check changes neither the table nor the operands; a filter without fields becomes
nothing and binds nothing; any other filter that is compiled becomes a fragment that is not empty; and in any case the operands that
were bound before stay in their slots. -/
theorem filter_outcome (d : Dialect σ) (b : Bindings σ) (w : Where) :
    ((∃ e, ((filter d w).run.run b).1 = .error e) ↔ (∃ e, w.validate = .error e) ∨
      ∃ max, d.maxInList? = some max ∧
        ∃ e ∈ w.entries, ∃ negated vs, Condition.member negated vs ∈ e.2.conditions ∧ max < vs.length) ∧
    (∀ e, w.validate = .error e → (filter d w).run.run b = (.error e, b)) ∧
    (w.entries = [] → (filter d w).run.run b = (.ok none, b)) ∧
    (w.entries ≠ [] → ∀ f, ((filter d w).run.run b).1 = .ok f → ∃ g, f = some g ∧ g.isEmpty = false) ∧
    b.params <+: ((filter d w).run.run b).2.params := by
  refine ⟨fails_iff b w, fun e he => filter_of_invalid d he b, fun hempty => ?_, fun hne f hf => ?_, filter_keeps d w b⟩
  · have hv : w.validate = .ok () := by
      rw [Where.validate, hempty]
      rfl
    rw [filter, hv, hempty]
    rfl
  · exact nonempty_of_yields hne (Prod.ext hf rfl : (filter d w).Yields b f ((filter d w).run.run b).2)

/-- With an alias and an operand there already: a field without conditions after one with, a list of 101 values, no fields, and
one comparison. -/
theorem filter_outcome_of_lists :
    let b : Bindings (List String) := ⟨["age"], [.integer 7]⟩
    let bare : Where := Keyed.ofList [("size", ⟨[.compare .equals (.integer 1)], .sensitive⟩), ("name", ⟨[], .sensitive⟩)]
    let long : Where := Keyed.ofList
      [("size", ⟨[.compare .not (.integer 1), .member false (List.replicate 101 (.integer 1))], .sensitive⟩)]
    let single : Where := Keyed.ofList [("size", ⟨[.compare .equals (.integer 1)], .sensitive⟩)]
    (filter Dynamo.dialect bare).run.run b = (.error (.malformedFilter "name" .noOperators), b) ∧
      (∃ e, ((filter Dynamo.dialect long).run.run b).1 = .error e) ∧
      (filter Dynamo.dialect Keyed.empty).run.run b = (.ok none, b) ∧
      ∃ f, ((filter Dynamo.dialect single).run.run b).1 = .ok (some f) ∧ f.isEmpty = false := by
  intro b bare long single
  have hv : single.Valid := by rfl
  have hfault : single.fault? Dynamo.dialect.maxInList? = none := by rfl
  obtain ⟨f, b', hf⟩ := filter_succeeds hv (Where.compilable_of_fault? hfault) b
  have hfragment : ((filter Dynamo.dialect single).run.run b).1 = .ok f := congrArg Prod.fst hf
  obtain ⟨g, rfl, hg⟩ := (filter_outcome Dynamo.dialect b single).2.2.2.1 (List.cons_ne_nil _ _) f hfragment
  refine ⟨(filter_outcome Dynamo.dialect b bare).2.1 _ rfl, ?_, (filter_outcome Dynamo.dialect b Keyed.empty).2.2.1 rfl,
    g, hfragment, hg⟩
  refine (filter_outcome Dynamo.dialect b long).1.2 (.inr ⟨100, rfl, _, List.mem_singleton_self _, false, _,
    List.mem_cons_of_mem _ (List.mem_singleton_self _), ?_⟩)
  rw [List.length_replicate]
  decide

end Compile

end DocQuery
