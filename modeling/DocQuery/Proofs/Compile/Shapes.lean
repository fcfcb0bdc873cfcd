import DocQuery.Proofs.Compile.Rendering

/-!
# Compiling does not look at operands

The shape of a filter is what remains of it without its operands: its fields and modes, its operators, and how many operands each
condition binds. Steps of compiling are alike if they fail together, or succeed with results and bindings that correspond. Main
statement: filters of one shape, the fields of one of which may be those of the other under other names, are compiled alike, to
one and the same fragment (`filter_alike`).
-/

namespace DocQuery

/-! ## Shapes -/

/-- What remains of a condition without its operands: the operator, and how many operands it binds. -/
inductive Condition.Shape where
  | compare (op : Comparison)
  | text (t : TextTest) (parts : Nat)
  | member (negated : Bool) (values : Nat)
  deriving DecidableEq

/-- The shape of a condition in a mode. A text test binds as many operands as it asks for different parts. -/
def Condition.shape (folding : Folding) (mode : Mode) : Condition → Condition.Shape
  | .compare op _ => .compare op
  | .text t part => .text t (folding.parts mode part).length
  | .member negated vs => .member negated vs.length

/-- The mode of a field and the shapes of its conditions. -/
def FieldFilter.shape (folding : Folding) (f : FieldFilter) : Mode × List Condition.Shape :=
  (f.mode, f.conditions.map (Condition.shape folding f.mode))

/-- The fields of a filter with their shapes, in order. -/
def Where.shape (folding : Folding) (w : Where) : Fields (Mode × List Condition.Shape) :=
  w.entries.map fun e => (e.1, e.2.shape folding)

/-- Conditions of one shape in a mode are so in the sensitive mode, too. -/
theorem Condition.shape_sensitive {folding : Folding} {mode : Mode} {c c' : Condition}
    (h : c.shape folding mode = c'.shape folding mode) : c.shape folding .sensitive = c'.shape folding .sensitive := by
  cases c <;> cases c' <;> simp_all [Condition.shape, Folding.parts]

/-- Lists that are equal after a function each are related item by item. -/
theorem forall₂_of_map_eq {α β γ : Type} {f : α → γ} {g : β → γ} {xs : List α} {ys : List β} (h : xs.map f = ys.map g) :
    List.Forall₂ (fun x y => f x = g y) xs ys := by
  rw [← List.forall₂_eq_eq_eq, List.forall₂_map_left_iff, List.forall₂_map_right_iff] at h
  exact h

/-! ## Steps that are alike -/

namespace Compile

variable {σ α β γ δ : Type}

/-- Bindings of which the tables correspond and which have bound equally many operands. -/
structure Matched (T : σ → σ → Prop) (b c : Bindings σ) : Prop where
  table : T b.table c.table
  params : b.params.length = c.params.length

/-- Two steps that both fail, or both succeed with results and bindings that correspond. -/
inductive Outcomes (T : σ → σ → Prop) (V : α → β → Prop) : Except Error α × Bindings σ → Except Error β × Bindings σ → Prop
  | ok {a : α} {a' : β} {b c : Bindings σ} : V a a' → Matched T b c → Outcomes T V (.ok a, b) (.ok a', c)
  | error (e e' : Error) (b c : Bindings σ) : Outcomes T V (.error e, b) (.error e', c)

/-- Steps that have such outcomes from bindings on that correspond. -/
def Alike (T : σ → σ → Prop) (V : α → β → Prop) (x : Compile σ α) (y : Compile σ β) : Prop :=
  ∀ b c, Matched T b c → Outcomes T V (x.run.run b) (y.run.run c)

variable {T : σ → σ → Prop} {V : α → β → Prop} {W : γ → δ → Prop}

theorem Alike.pure {a : α} {a' : β} (h : V a a') : Alike T V (Pure.pure a) (Pure.pure a') := fun _ _ hbc => .ok h hbc

/-- One step after another. -/
theorem Alike.bind {x : Compile σ α} {y : Compile σ β} (h : Alike T V x y) {f : α → Compile σ γ} {g : β → Compile σ δ}
    (hnext : ∀ a a', V a a' → Alike T W (f a) (g a')) : Alike T W (x >>= f) (y >>= g) := by
  intro b c hbc
  have houtcomes := h b c hbc
  rw [ExceptT.run_bind, ExceptT.run_bind, StateT.run_bind, StateT.run_bind]
  generalize x.run.run b = r, y.run.run c = r' at houtcomes
  cases houtcomes with
  | ok hv hmatched => exact hnext _ _ hv _ _ hmatched
  | error e e' b c => exact .error e e' b c

/-- A step and then a result made of its result. -/
theorem Alike.map {x : Compile σ α} {y : Compile σ β} (h : Alike T V x y) {f : α → γ} {g : β → δ}
    (hv : ∀ a a', V a a' → W (f a) (g a')) :
    Alike T W (x >>= fun a => Pure.pure (f a)) (y >>= fun a => Pure.pure (g a)) :=
  h.bind fun a a' haa => .pure (hv a a' haa)

/-- A step for each of several items that are related. -/
theorem Alike.mapM {ι κ : Type} {R : ι → κ → Prop} {f : ι → Compile σ α} {g : κ → Compile σ β} {xs : List ι} {ys : List κ}
    (hxs : List.Forall₂ R xs ys) (h : ∀ x y, R x y → Alike T V (f x) (g y)) :
    Alike T (List.Forall₂ V) (xs.mapM f) (ys.mapM g) := by
  induction hxs with
  | nil => exact .pure .nil
  | cons hx _ ih =>
    rw [List.mapM_cons, List.mapM_cons]
    exact (h _ _ hx).bind fun a a' ha => ih.map fun as as' has => .cons ha has

/-- Any two operands are bound alike. -/
theorem bindOperand_alike (v v' : Operand) : Alike T Eq (bindOperand v) (bindOperand v') :=
  fun b c hbc => .ok hbc.params ⟨hbc.table, by simp [hbc.params]⟩

/-- Equally many operands are bound alike. -/
theorem bindOperands_alike {vs vs' : List Operand} (h : vs.length = vs'.length) :
    Alike T Eq (vs.mapM bindOperand) (vs'.mapM bindOperand) := by
  have hvs : List.Forall₂ (fun _ _ => True) vs vs' := List.forall₂_iff_zip.2 ⟨h, fun _ => trivial⟩
  have hslots := Alike.mapM (T := T) (V := Eq) hvs fun v v' _ => bindOperand_alike v v'
  rwa [List.forall₂_eq_eq_eq] at hslots

end Compile

/-- Fields that a dialect refers to alike: from tables that correspond it makes the same reference, and tables that correspond. -/
structure Dialect.Agrees {σ : Type} (d : Dialect σ) (T : σ → σ → Prop) (field field' : String) : Prop where
  reference : ∀ {t t'}, T t t' → (d.reference t field).1 = (d.reference t' field').1
  table : ∀ {t t'}, T t t' → T (d.reference t field).2 (d.reference t' field').2

namespace Compile

variable {σ : Type} {d : Dialect σ} {T : σ → σ → Prop} {field field' target : String} {mode : Mode}

theorem reference_alike (h : d.Agrees T field field') : Alike T Eq (reference d field) (reference d field') :=
  fun _ _ hbc => .ok (h.reference hbc.table) ⟨h.table hbc.table, hbc.params⟩

theorem call_alike (function target part part' : String) : Alike T Eq (call function target part) (call function target part') :=
  (bindOperand_alike _ _).map fun _ _ h => by rw [h]

/-- Text tests that ask for equally many parts are compiled alike. -/
theorem textTest_alike {folding : Folding} (hfolding : ∀ target, d.lower? target = none → folding = .casings) (t : TextTest)
    {part part' : String} (h : (folding.parts mode part).length = (folding.parts mode part').length) :
    Alike T Eq (textTest d t target part mode) (textTest d t target part' mode) := by
  cases mode with
  | sensitive => exact call_alike _ _ _ _
  | insensitive =>
    cases hlower : d.lower? target with
    | some lowered =>
      simp only [textTest, hlower]
      exact call_alike _ _ _ _
    | none =>
      simp only [textTest, hlower]
      obtain rfl := hfolding target hlower
      have hcasings : List.Forall₂ (fun _ _ => True) (casings part) (casings part') :=
        List.forall₂_iff_zip.2 ⟨h, fun _ => trivial⟩
      refine (Alike.mapM (V := Eq) hcasings fun q q' _ => call_alike _ _ q q').bind fun calls calls' hcalls => ?_
      rw [List.forall₂_eq_eq_eq] at hcalls
      subst hcalls
      split <;> exact .pure rfl

/-- Memberships of equally many values are compiled alike. -/
theorem membership_alike {vs vs' : List Operand} (h : vs.length = vs'.length) :
    Alike T Eq (membership d field target vs) (membership d field' target vs') := by
  have hempty : vs.isEmpty = vs'.isEmpty := by cases vs <;> cases vs' <;> simp_all
  have hslots : Alike T Eq (do
        let slots ← vs.mapM bindOperand
        return Fragment.text (target ++ " IN (") ++ Fragment.join ", " (slots.map Fragment.slot) ++ Fragment.text ")") (do
        let slots ← vs'.mapM bindOperand
        return Fragment.text (target ++ " IN (") ++ Fragment.join ", " (slots.map Fragment.slot) ++ Fragment.text ")") :=
    (bindOperands_alike h).map fun _ _ hslots => by rw [hslots]
  rw [membership, membership, hempty, h]
  cases vs'.isEmpty with
  | true => exact fun b c _ => .error _ _ b c
  | false =>
    cases d.maxInList? with
    | none => exact hslots
    | some max =>
      by_cases hmax : max < vs'.length
      · simp only [if_pos hmax]
        exact fun b c _ => .error _ _ b c
      · simp only [if_neg hmax]
        exact hslots

/-- Conditions of one shape are compiled alike. -/
theorem condition_alike {folding : Folding} (hfolding : ∀ target, d.lower? target = none → folding = .casings)
    (hfield : d.Agrees T field field') {c c' : Condition} (h : c.shape folding mode = c'.shape folding mode) :
    Alike T Eq (condition d field mode c) (condition d field' mode c') := by
  refine (reference_alike hfield).bind fun target _ htarget => ?_
  subst htarget
  cases c with
  | compare op v =>
    cases c' with
    | compare op' v' =>
      cases h
      exact (bindOperand_alike v v').map fun _ _ hslot => by rw [hslot]
    | text t part => cases h
    | member negated vs => cases h
  | text t part =>
    cases c' with
    | compare op v => cases h
    | text t' part' =>
      obtain ⟨rfl, hparts⟩ := Condition.Shape.text.inj h
      exact textTest_alike hfolding t hparts
    | member negated vs => cases h
  | member negated vs =>
    cases c' with
    | compare op v => cases h
    | text t part => cases h
    | member negated' vs' =>
      obtain ⟨rfl, hlength⟩ := Condition.Shape.member.inj h
      cases negated with
      | false => exact membership_alike hlength
      | true => exact (membership_alike hlength).map fun _ _ hf => by rw [hf]

/-- The conditions of a field are compiled alike with those of a field of the same shape. -/
theorem field_alike {folding : Folding} (hfolding : ∀ target, d.lower? target = none → folding = .casings)
    (hfield : d.Agrees T field field') {f f' : FieldFilter} (h : f.shape folding = f'.shape folding) :
    Alike T Eq (Compile.field d field f) (Compile.field d field' f') := by
  obtain ⟨hmode, hconditions⟩ := Prod.mk.inj h
  rw [← hmode] at hconditions
  rw [Compile.field, Compile.field, ← hmode]
  have hfragments := Alike.mapM (T := T) (V := Eq) (forall₂_of_map_eq hconditions) fun c c' hc =>
    condition_alike hfolding hfield hc
  rwa [List.forall₂_eq_eq_eq] at hfragments

/-- Valid filters of one shape, the fields of which a dialect refers to alike, are compiled to the same fragment. -/
theorem filter_alike {folding : Folding} (hfolding : ∀ target, d.lower? target = none → folding = .casings) {w w' : Where}
    (hv : w.Valid) (hv' : w'.Valid)
    (h : List.Forall₂ (fun e e' => d.Agrees T e.1 e'.1 ∧ e.2.shape folding = e'.2.shape folding) w.entries w'.entries) :
    Alike T Eq (filter d w) (filter d w') := by
  rw [filter, filter, hv, hv']
  refine Alike.bind (V := Eq) (.pure rfl) fun _ _ _ => ?_
  have hfields := Alike.mapM (T := T) (V := Eq) h fun e e' he => field_alike hfolding he.1 he.2
  refine hfields.bind fun predicates predicates' hpredicates => ?_
  rw [List.forall₂_eq_eq_eq] at hpredicates
  subst hpredicates
  split <;> exact .pure rfl

/-! ## Steps that succeed -/

/-- A step that succeeds whatever was bound before. -/
def Succeeds {α : Type} (step : Compile σ α) : Prop := ∀ b, ∃ a b', step.Yields b a b'

section

variable {α β : Type}

theorem Succeeds.pure (a : α) : Succeeds (Pure.pure a : Compile σ α) := fun b => ⟨a, b, .pure a b⟩

/-- One step after another. -/
theorem Succeeds.bind {step : Compile σ α} {next : α → Compile σ β} (h : step.Succeeds) (hnext : ∀ a, (next a).Succeeds) :
    Succeeds (step >>= next) := by
  intro b
  obtain ⟨a, b', ha⟩ := h b
  obtain ⟨c, b'', hc⟩ := hnext a b'
  exact ⟨c, b'', ha.bind hc⟩

/-- A step for each of several items. -/
theorem Succeeds.mapM {xs : List α} {step : α → Compile σ β} (h : ∀ x ∈ xs, (step x).Succeeds) : Succeeds (xs.mapM step) := by
  induction xs with
  | nil => exact .pure []
  | cons x xs ih =>
    obtain ⟨hx, hxs⟩ := List.forall_mem_cons.1 h
    rw [List.mapM_cons]
    exact hx.bind fun a => (ih hxs).bind fun as => .pure (a :: as)

end

theorem call_succeeds (function target part : String) : Succeeds (call function target part : Compile σ Fragment) :=
  fun b => ⟨_, _, Dialect.Reading.call_yields function target part b⟩

theorem textTest_succeeds (t : TextTest) (target part : String) (mode : Mode) : Succeeds (textTest d t target part mode) := by
  cases mode with
  | sensitive => exact call_succeeds _ _ _
  | insensitive =>
    cases hlower : d.lower? target with
    | some lowered =>
      simp only [textTest, hlower]
      exact call_succeeds _ _ _
    | none =>
      simp only [textTest, hlower]
      refine (Succeeds.mapM fun q _ => call_succeeds _ _ q).bind fun calls => ?_
      split <;> exact .pure _

theorem membership_succeeds {vs : List Operand} (hne : vs ≠ []) (hmax : ∀ m ∈ d.maxInList?, vs.length ≤ m) :
    Succeeds (membership d field target vs) := by
  rw [membership_eq hne hmax]
  exact (Succeeds.mapM fun v _ b => ⟨_, _, bindOperand_yields v b⟩).bind fun _ => .pure _

/-- A condition that the dialect can compile is compiled. -/
theorem condition_succeeds {c : Condition} (h : c.Compilable d.maxInList?) : Succeeds (condition d field mode c) := by
  refine Succeeds.bind (fun b => ⟨_, _, reference_yields d field b⟩) fun target => ?_
  cases c with
  | compare op v => exact Succeeds.bind (fun b => ⟨_, _, bindOperand_yields v b⟩) fun slot => .pure _
  | text t part => exact textTest_succeeds t target part mode
  | member negated vs =>
    obtain ⟨hne, hmax⟩ := h negated vs rfl
    cases negated with
    | false => exact membership_succeeds hne hmax
    | true => exact (membership_succeeds hne hmax).bind fun f => .pure _

/-- A valid filter whose conditions the dialect can compile is compiled. -/
theorem filter_succeeds {w : Where} (hv : w.Valid) (h : ∀ e ∈ w.entries, ∀ c ∈ e.2.conditions, c.Compilable d.maxInList?) :
    Succeeds (filter d w) := by
  rw [filter, hv]
  refine (Succeeds.pure ()).bind fun _ => ?_
  have hfields : Succeeds (w.entries.mapM fun e => Compile.field d e.1 e.2) :=
    Succeeds.mapM fun e he => Succeeds.mapM fun c hc => condition_succeeds (h e he c hc)
  refine hfields.bind fun predicates => ?_
  split <;> exact .pure _

end Compile

end DocQuery
