import DocQuery.Proofs.Compile.Shapes

/-!
# How compiling fails

A valid filter fails to compile over its first list that is longer than the dialect takes, and over nothing else. So whether it
fails, and how, does not depend on what was compiled before.
-/

namespace DocQuery

/-- Why a condition cannot be compiled where lists may not be longer than this, if it cannot. -/
def Condition.fault? (max? : Option Nat) (field : String) : Condition → Option Error
  | .member _ vs =>
    if vs.isEmpty then some (.malformedFilter field .emptyList)
    else max?.bind fun max => if max < vs.length then some (.malformedFilter field (.listTooLong max vs.length)) else none
  | .compare _ _ | .text _ _ => none

/-- Why the entry of a filter cannot be compiled, if it cannot. -/
def FieldFilter.fault? (max? : Option Nat) (field : String) (f : FieldFilter) : Option Error :=
  f.conditions.findSome? (Condition.fault? max? field)

/-- Why a valid filter cannot be compiled, if it cannot. -/
def Where.fault? (max? : Option Nat) (w : Where) : Option Error := w.entries.findSome? fun e => e.2.fault? max? e.1

/-- A condition without a fault can be compiled. -/
theorem Condition.compilable_of_fault? {max? : Option Nat} {field : String} {c : Condition} (h : c.fault? max? field = none) :
    c.Compilable max? := by
  rintro negated vs rfl
  rw [fault?] at h
  split at h
  · cases h
  · next hne =>
    refine ⟨fun hnil => hne (by rw [hnil]; rfl), fun max hmax => ?_⟩
    cases hmax
    simpa using h

/-- The conditions of a filter without a fault can be compiled. -/
theorem Where.compilable_of_fault? {max? : Option Nat} {w : Where} (h : w.fault? max? = none) :
    ∀ e ∈ w.entries, ∀ c ∈ e.2.conditions, c.Compilable max? := by
  intro e he c hc
  have hfield := List.findSome?_eq_none_iff.1 h e he
  exact Condition.compilable_of_fault? (List.findSome?_eq_none_iff.1 hfield c hc)

namespace Compile

variable {σ α β : Type}

/-- A step that fails with an error, if one is given, and otherwise succeeds, whatever was bound before. -/
def Ends (step : Compile σ α) (e? : Option Error) : Prop :=
  ∀ b, match (step.run.run b).1 with
    | .ok _ => e? = none
    | .error e => e? = some e

theorem Succeeds.ends {step : Compile σ α} (h : step.Succeeds) : Ends step none := by
  intro b
  obtain ⟨a, b', hstep⟩ := h b
  unfold Compile.Yields at hstep
  rw [hstep]

/-- One step after another, which does not fail otherwise for another result of the first. -/
theorem Ends.bind {step : Compile σ α} {e? f? : Option Error} (h : Ends step e?) {next : α → Compile σ β}
    (hnext : ∀ a, Ends (next a) f?) : Ends (step >>= next) (e?.or f?) := by
  intro b
  have hb := h b
  rw [ExceptT.run_bind, StateT.run_bind]
  rcases hstep : step.run.run b with ⟨e | a, b'⟩
  · rw [hstep] at hb
    rw [show e? = some e from hb]
    rfl
  · rw [hstep] at hb
    rw [show e? = none from hb, Option.none_or]
    exact hnext a b'

/-- A step for each of several items. -/
theorem Ends.mapM {xs : List α} {step : α → Compile σ β} {fault? : α → Option Error} (h : ∀ x ∈ xs, Ends (step x) (fault? x)) :
    Ends (xs.mapM step) (xs.findSome? fault?) := by
  induction xs with
  | nil => exact (Succeeds.pure []).ends
  | cons x xs ih =>
    obtain ⟨hx, hxs⟩ := List.forall_mem_cons.1 h
    rw [List.mapM_cons, List.findSome?_cons]
    have hrest := hx.bind fun a => (ih hxs).bind fun as => (Succeeds.pure (σ := σ) (a :: as)).ends
    cases hfault : fault? x <;> simpa [hfault] using hrest

variable {d : Dialect σ} {field target : String} {mode : Mode}

/-- A membership fails over its list. -/
theorem membership_ends {negated : Bool} {vs : List Operand} {e : Error}
    (h : (Condition.member negated vs).fault? d.maxInList? field = some e) : Ends (membership d field target vs) (some e) := by
  rw [Condition.fault?] at h
  rw [membership]
  cases hempty : vs.isEmpty with
  | true =>
    rw [hempty] at h
    exact Option.some.inj h ▸ fun _ => rfl
  | false =>
    rw [hempty] at h
    obtain ⟨max, hmax, h⟩ := Option.bind_eq_some_iff.1 h
    split at h
    · next hlong =>
      rw [hmax]
      simp only [if_pos hlong]
      exact Option.some.inj h ▸ fun _ => rfl
    · cases h

/-- A condition fails over its fault, if it has one. -/
theorem condition_ends (d : Dialect σ) (field : String) (mode : Mode) (c : Condition) :
    Ends (condition d field mode c) (c.fault? d.maxInList? field) := by
  cases hfault : c.fault? d.maxInList? field with
  | none => exact (condition_succeeds (Condition.compilable_of_fault? hfault)).ends
  | some e =>
    cases c with
    | compare op v => cases hfault
    | text t part => cases hfault
    | member negated vs =>
      have hreference : Succeeds (reference d field) := fun b => ⟨_, _, reference_yields d field b⟩
      refine hreference.ends.bind fun target => ?_
      cases negated with
      | false => exact membership_ends hfault
      | true => exact (membership_ends hfault).bind fun f => (Succeeds.pure _).ends

/-- A valid filter fails over its first fault, if it has one. -/
theorem filter_ends (d : Dialect σ) {w : Where} (hv : w.Valid) : Ends (filter d w) (w.fault? d.maxInList?) := by
  have hfields : Ends (w.entries.mapM fun e => Compile.field d e.1 e.2) (w.fault? d.maxInList?) :=
    Ends.mapM fun e _ => Ends.mapM fun c _ => condition_ends d e.1 e.2.mode c
  have hall : Ends (filter d w) ((w.fault? d.maxInList?).or none) := by
    rw [filter, hv]
    refine (Succeeds.pure ()).ends.bind fun _ => hfields.bind fun predicates => ?_
    split <;> exact (Succeeds.pure _).ends
  rwa [Option.or_none] at hall

/-- A filter that does not pass its check is refused before anything is bound. -/
theorem filter_of_invalid (d : Dialect σ) {w : Where} {e : Error} (h : w.validate = .error e) (b : Bindings σ) :
    (filter d w).run.run b = (.error e, b) := by
  rw [filter, h]
  rfl

/-- A filter that was compiled is valid, and the dialect can compile its conditions. -/
theorem accepted_of_yields {w : Where} {b b' : Bindings σ} {f : Option Fragment} (h : (filter d w).Yields b f b') :
    w.Valid ∧ ∀ e ∈ w.entries, ∀ c ∈ e.2.conditions, c.Compilable d.maxInList? := by
  have hv : w.Valid := by
    cases hvalidate : w.validate with
    | ok u => exact hvalidate
    | error e =>
      rw [Yields, filter_of_invalid d hvalidate] at h
      cases h
  refine ⟨hv, Where.compilable_of_fault? ?_⟩
  have hends := filter_ends d hv b
  rw [show (filter d w).run.run b = _ from h] at hends
  exact hends

end Compile

end DocQuery
