import DocQuery.Proofs.Compile.Clause
import DocQuery.Proofs.Expression.Texts
import DocQuery.Proofs.Filter.Valid

/-!
# Compiled texts

A dialect has a reading if its references, placeholders and names are what the grammar takes them for. Then every condition is
compiled to a text that is its clause's formula (`condition_stands`), and a filter to the conjunction of its clauses
(`filter_stands`), whatever was bound before.
-/

namespace DocQuery

open Expression

/-! ## Rendering -/

namespace Fragment

variable (fill : Nat → String)

theorem render_glue (s : String) (slots : List (Nat × String)) (g : Fragment) :
    (glue s slots g).render fill = s ++ renderTail fill slots ++ g.render fill := by
  induction slots generalizing s with
  | nil => simp [glue, render, renderTail, String.append_assoc]
  | cons e rest ih =>
    obtain ⟨i, t⟩ := e
    have := ih t
    simp only [render] at this
    simp only [glue, render, renderTail, this, String.append_assoc]

theorem render_append (f g : Fragment) : (f ++ g).render fill = f.render fill ++ g.render fill :=
  render_glue fill f.head f.tail g

theorem render_text (s : String) : (text s).render fill = s := String.append_empty

theorem render_slot (i : Nat) : (slot i).render fill = fill i := by
  simp [slot, render, renderTail]

/-- Fragments with a separator between them, as characters. -/
theorem render_join (separator : String) (f : Fragment) (fs : List Fragment) :
    ((join separator (f :: fs)).render fill).toList =
      (f.render fill).toList ++ (fs.map fun g => (g.render fill).toList).flatMap (separator.toList ++ ·) := by
  induction fs generalizing f with
  | nil => simp [join]
  | cons g fs ih =>
    rw [join, render_append, render_append, render_text, String.toList_append, String.toList_append, ih, List.map_cons,
      List.flatMap_cons, List.append_assoc]
    exact List.cons_ne_nil _ _

end Fragment

/-! ## Steps of compiling -/

namespace Compile

variable {σ α β : Type}

/-- A step that succeeds with a result between the bindings before and after it. -/
def Yields (step : Compile σ α) (b : Bindings σ) (a : α) (b' : Bindings σ) : Prop := step.run.run b = (.ok a, b')

theorem Yields.pure (a : α) (b : Bindings σ) : Yields (Pure.pure a) b a b := rfl

/-- One step after another. -/
theorem Yields.bind {step : Compile σ α} {next : α → Compile σ β} {b b' b'' : Bindings σ} {a : α} {c : β}
    (h : step.Yields b a b') (hn : (next a).Yields b' c b'') : Yields (step >>= next) b c b'' := by
  unfold Yields at *
  rw [ExceptT.run_bind, StateT.run_bind, h]
  exact hn

/-- A step and then a result made of its result. -/
theorem Yields.map {step : Compile σ α} {b b' : Bindings σ} {a : α} (h : step.Yields b a b') (f : α → β) :
    Yields (step >>= fun a => Pure.pure (f a)) b (f a) b' :=
  h.bind (.pure (f a) b')

theorem reference_yields (d : Dialect σ) (field : String) (b : Bindings σ) :
    (reference d field).Yields b (d.reference b.table field).1 ⟨(d.reference b.table field).2, b.params⟩ := rfl

theorem bindOperand_yields (v : Operand) (b : Bindings σ) :
    (bindOperand v : Compile σ Nat).Yields b b.params.length ⟨b.table, b.params ++ [v]⟩ := rfl

/-- A step for each of several items, each of which binds one operand. -/
theorem mapM_yields {step : α → Compile σ β} (operand : α → Operand) (made : Nat → β)
    (h : ∀ x b, (step x).Yields b (made b.params.length) ⟨b.table, b.params ++ [operand x]⟩) (xs : List α) (b : Bindings σ) :
    (xs.mapM step).Yields b ((List.range' b.params.length xs.length).map made) ⟨b.table, b.params ++ xs.map operand⟩ := by
  induction xs generalizing b with
  | nil => rw [List.mapM_nil, List.map_nil, List.append_nil]; exact .pure [] b
  | cons x xs ih =>
    rw [List.mapM_cons, List.length_cons, List.range'_succ, List.map_cons, List.map_cons, List.append_cons]
    have hrest := ih ⟨b.table, b.params ++ [operand x]⟩
    rw [List.length_append, List.length_singleton] at hrest
    exact (h x b).bind (hrest.map _)

/-- A membership binds its values, unless their list is empty or too long. -/
theorem membership_eq {d : Dialect σ} {field target : String} {vs : List Operand} (hne : vs ≠ [])
    (hmax : ∀ m ∈ d.maxInList?, vs.length ≤ m) : membership d field target vs = (do
      let slots ← vs.mapM bindOperand
      return Fragment.text (target ++ " IN (") ++ Fragment.join ", " (slots.map Fragment.slot) ++ Fragment.text ")") := by
  have hempty : vs.isEmpty = false := by simpa using hne
  rw [membership, hempty]
  cases hm : d.maxInList? with
  | none => rfl
  | some m =>
    have hle : ¬m < vs.length := Nat.not_lt.2 (hmax m hm)
    simp only [if_neg hle]
    rfl

end Compile

/-! ## Readings of a dialect -/

/-- How the grammar reads the texts of a dialect: which names stand for which fields after a table has come about, and which
tables can come about later. -/
structure Dialect.Reading {σ : Type} (d : Dialect σ) where
  /-- What insensitive text tests compare. -/
  folding : Folding
  /-- The fields that the aliases of a table stand for. -/
  names : σ → Names
  /-- Whether a table can come about after another one. -/
  Leads : σ → σ → Prop
  /-- Whether a field can be referred to. -/
  Fits : String → Prop
  leads_refl : ∀ t, Leads t t
  leads_trans : ∀ {t u v}, Leads t u → Leads u v → Leads t v
  leads_reference : ∀ t field, Leads t (d.reference t field).2
  /-- A reference stands for its field from then on. -/
  reference : ∀ {t u field}, Fits field → Leads (d.reference t field).2 u →
    TermText (names u) (d.reference t field).1.toList (.path field)
  placeholder : ∀ (names : Names) i, TermText names (d.placeholder i).toList (.param (d.placeholder i))
  contains : IsAsciiWord d.contains.toList ∧ Function.ofName? d.contains = some .contains
  startsWith : IsAsciiWord d.startsWith.toList ∧ Function.ofName? d.startsWith = some .beginsWith
  notEqual : Spells (' ' :: (d.notEqual.toList ++ [' '])) [.relation .ne]
  lower? : ∀ target, d.lower? target = match folding with
    | .small => some ("LOWER(" ++ target ++ ")")
    | .casings => none

namespace Dialect.Reading

variable {σ : Type} {d : Dialect σ} (r : d.Reading)

/-- Fragments that stand for clauses, between the bindings before and after them. -/
structure Stand (cs : List (Clause d.placeholder)) (b b' : Bindings σ) (fs : List Fragment) : Prop where
  params : b'.params = b.params ++ Clause.allOperands cs
  leads : r.Leads b.table b'.table
  texts : ∀ {u}, r.Leads b'.table u →
    List.Forall₂ (FormulaText (r.names u) .factor) (fs.map fun f => (f.render d.placeholder).toList)
      (Clause.formulas b.params.length cs)

variable {r}

theorem Stand.nil (b : Bindings σ) : r.Stand [] b b [] :=
  ⟨(List.append_nil _).symm, r.leads_refl _, fun _ => .nil⟩

/-- Fragments after one another stand for clauses after one another. -/
theorem Stand.append {cs ds : List (Clause d.placeholder)} {b b' b'' : Bindings σ} {fs gs : List Fragment}
    (h : r.Stand cs b b' fs) (h' : r.Stand ds b' b'' gs) : r.Stand (cs ++ ds) b b'' (fs ++ gs) where
  params := by rw [h'.params, h.params, Clause.allOperands_append, List.append_assoc]
  leads := r.leads_trans h.leads h'.leads
  texts := fun hu => by
    have hl := h.texts (r.leads_trans h'.leads hu)
    have hr := h'.texts hu
    rw [h.params, List.length_append] at hr
    rw [List.map_append, Clause.formulas_append]
    exact List.rel_append hl hr

/-- A single fragment that is the formula of a clause. -/
theorem Stand.single {c : Clause d.placeholder} {b : Bindings σ} {t : σ} {f : Fragment} (hl : r.Leads b.table t)
    (hf : ∀ {u}, r.Leads t u →
      FormulaText (r.names u) .factor (f.render d.placeholder).toList (c.formula b.params.length)) :
    r.Stand [c] b ⟨t, b.params ++ c.operands⟩ [f] where
  params := by rw [Clause.allOperands_cons, Clause.allOperands, List.flatMap_nil, List.append_nil]
  leads := hl
  texts := fun hu => .cons (hf hu) .nil

/-- Only no fragments stand for no clauses. -/
theorem Stand.ne_nil {cs : List (Clause d.placeholder)} {b b' : Bindings σ} {fs : List Fragment} (h : r.Stand cs b b' fs)
    (hne : cs ≠ []) : fs ≠ [] := by
  rintro rfl
  obtain ⟨c, cs, rfl⟩ := List.exists_cons_of_ne_nil hne
  cases h.texts (r.leads_refl _)

/-- What stands for clauses, joined by `AND`, is their conjunction. -/
theorem Stand.joined {cs : List (Clause d.placeholder)} {b b' : Bindings σ} {fs : List Fragment} (h : r.Stand cs b b' fs)
    (hne : fs ≠ []) {u : σ} (hu : r.Leads b'.table u) :
    ∃ f, conjoin (Clause.formulas b.params.length cs) = some f ∧
      FormulaText (r.names u) .disjunction ((Fragment.join " AND " fs).render d.placeholder).toList f := by
  obtain ⟨g, fs, rfl⟩ := List.exists_cons_of_ne_nil hne
  have htexts := h.texts hu
  rw [List.map_cons] at htexts
  generalize Clause.formulas b.params.length cs = formulas at htexts
  cases htexts with
  | cons h' hs =>
    refine ⟨_, rfl, ?_⟩
    rw [Fragment.render_join]
    exact (h'.ofFactor.all hs).ofConjunction

/-! ## Conditions -/

/-- The sign of a comparison between blanks is its relation. -/
theorem spells_symbol (r : d.Reading) (op : Comparison) :
    Spells (' ' :: ((d.symbol op).toList ++ [' '])) [.relation (relationOf op)] := by
  cases op with
  | not => exact r.notEqual
  | equals => exact Spells.between_blanks "=" '=' [] rfl (by decide) fun _ => rfl
  | lt => exact Spells.between_blanks "<" '<' [] rfl (by decide) fun _ => rfl
  | lte => exact Spells.between_blanks "<=" '<' ['='] rfl (by decide) fun _ => rfl
  | gt => exact Spells.between_blanks ">" '>' [] rfl (by decide) fun _ => rfl
  | gte => exact Spells.between_blanks ">=" '>' ['='] rfl (by decide) fun _ => rfl

/-- The function of a text test is the function that its name stands for. -/
theorem function_eq (r : d.Reading) (t : TextTest) :
    IsAsciiWord (d.function t).toList ∧ Function.ofName? (d.function t) = some (functionOf t) := by
  cases t with
  | contains => exact r.contains
  | endsWith => exact r.contains
  | startsWith => exact r.startsWith

/-- A function applied to a term and a placeholder, as a fragment. -/
def callFragment (function target : String) (slot : Nat) : Fragment :=
  Fragment.text (function ++ "(" ++ target ++ ", ") ++ Fragment.slot slot ++ Fragment.text ")"

theorem call_yields (function target part : String) (b : Bindings σ) :
    (Compile.call function target part).Yields b (callFragment function target b.params.length)
      ⟨b.table, b.params ++ [.text part]⟩ := rfl

/-- The text of a function applied to a term and a placeholder. -/
theorem callFragment_text (r : d.Reading) {names : Names} (t : TextTest) {target : String} {term : Term}
    (h : TermText names target.toList term) (slot : Nat) :
    FormulaText names .factor ((callFragment (d.function t) target slot).render d.placeholder).toList
      (.call (functionOf t) [term, .param (d.placeholder slot)]) := by
  obtain ⟨hword, hf⟩ := r.function_eq t
  have hcall := FormulaText.call hword hf (TermsText.ofList h (.cons (r.placeholder names slot) .nil))
  rw [callFragment, Fragment.render_append, Fragment.render_append, Fragment.render_text, Fragment.render_text,
    Fragment.render_slot]
  simp only [String.toList_append, List.append_assoc]
  simpa using hcall

/-- A step that compiles a condition on the field which a target refers to. -/
def Renders (r : d.Reading) (step : Compile σ Fragment) (target field : String) (mode : Mode) (c : Condition) : Prop :=
  ∀ b, ∃ f, step.Yields b f ⟨b.table, b.params ++ c.operands r.folding mode⟩ ∧
    ∀ {names : Names}, TermText names target.toList (.path field) →
      FormulaText names .factor (f.render d.placeholder).toList
        (c.formula r.folding d.placeholder field mode b.params.length)

/-- A comparison is compiled. -/
theorem renders_compare (r : d.Reading) (target field : String) (mode : Mode) (op : Comparison) (v : Operand) :
    r.Renders (do
      let slot ← Compile.bindOperand v
      return Fragment.text (target ++ " " ++ d.symbol op ++ " ") ++ Fragment.slot slot) target field mode (.compare op v) := by
  intro b
  refine ⟨_, (Compile.bindOperand_yields v b).map _, fun {names} ht => ?_⟩
  have htext := FormulaText.compare ht (r.placeholder names b.params.length) (r.spells_symbol op) (apart_cons rfl)
    (List.cons_ne_nil _ _)
  rw [Fragment.render_append, Fragment.render_text, Fragment.render_slot, Condition.formula]
  simpa using htext

/-- A text test with a single operand is compiled. -/
theorem renders_call (r : d.Reading) {target seen field part q : String} {mode : Mode} (t : TextTest)
    (hq : r.folding.parts mode part = [q])
    (hseen : ∀ {names : Names}, TermText names target.toList (.path field) →
      TermText names seen.toList (r.folding.target mode field)) :
    r.Renders (Compile.call (d.function t) seen q) target field mode (.text t part) := by
  intro b
  rw [Condition.operands, hq]
  refine ⟨_, call_yields _ _ q b, fun ht => ?_⟩
  rw [Condition.formula, hq]
  exact r.callFragment_text t (hseen ht) b.params.length

/-- Text tests with one operand after the other are alternatives. -/
theorem callFragments_text (r : d.Reading) {names : Names} {target : String} {term : Term} (t : TextTest)
    (h : TermText names target.toList term) (slots : List Nat) :
    List.Forall₂ (FormulaText names .factor)
      ((slots.map (callFragment (d.function t) target)).map fun f => (f.render d.placeholder).toList)
      (slots.map fun i => .call (functionOf t) [term, .param (d.placeholder i)]) := by
  induction slots with
  | nil => exact .nil
  | cons i slots ih => exact .cons (r.callFragment_text t h i) ih

/-- A text test with several operands is compiled to alternatives in parentheses. -/
theorem renders_calls (r : d.Reading) (target field part : String) (mode : Mode) (t : TextTest)
    (htarget : r.folding.target mode field = .path field) :
    r.Renders (do
      match ← (r.folding.parts mode part).mapM (Compile.call (d.function t) target) with
      | [single] => return single
      | calls => return Fragment.text "(" ++ Fragment.join " OR " calls ++ Fragment.text ")") target field mode
      (.text t part) := by
  intro b
  obtain ⟨q, qs, hq⟩ := List.exists_cons_of_ne_nil (r.folding.parts_ne_nil mode part)
  have hcalls := Compile.mapM_yields _ _ (call_yields (σ := σ) (d.function t) target) (q :: qs) b
  rw [List.length_cons, List.range'_succ, List.map_cons] at hcalls
  simp only [Condition.operands, Condition.formula, htarget, hq, List.length_cons, Nat.add_sub_cancel]
  cases qs with
  | nil =>
    exact ⟨_, hcalls.bind (.pure _ _), fun ht => r.callFragment_text t ht b.params.length⟩
  | cons q' qs =>
    refine ⟨_, hcalls.bind (.pure _ _), fun ht => ?_⟩
    have htext := FormulaText.any (r.callFragment_text t ht b.params.length).formula
      (r.callFragments_text t ht (List.range' (b.params.length + 1) (qs.length + 1)))
    rw [Fragment.render_append, Fragment.render_append, Fragment.render_text, Fragment.render_text, String.toList_append,
      String.toList_append, Fragment.render_join]
    exact htext.paren

/-- A text test is compiled. -/
theorem renders_text (r : d.Reading) (target field : String) (mode : Mode) (t : TextTest) (part : String) :
    r.Renders (Compile.textTest d t target part mode) target field mode (.text t part) := by
  cases mode with
  | sensitive => exact r.renders_call t rfl id
  | insensitive =>
    have hlower := r.lower? target
    cases hfolding : r.folding with
    | small =>
      simp only [hfolding] at hlower
      simp only [Compile.textTest, hlower]
      refine r.renders_call t (by rw [hfolding]; rfl) fun ht => ?_
      rw [hfolding, Folding.target]
      simpa using ht.lower
    | casings =>
      simp only [hfolding] at hlower
      simp only [Compile.textTest, hlower]
      have hcalls := r.renders_calls target field part .insensitive t (by rw [hfolding]; rfl)
      rw [hfolding] at hcalls
      exact hcalls

/-- Placeholders are terms. -/
theorem placeholders_text (r : d.Reading) (names : Names) (slots : List Nat) :
    List.Forall₂ (TermText names) ((slots.map Fragment.slot).map fun f => (f.render d.placeholder).toList)
      (slots.map fun i => .param (d.placeholder i)) := by
  induction slots with
  | nil => exact .nil
  | cons i slots ih =>
    rw [List.map_cons, List.map_cons, Fragment.render_slot]
    exact .cons (r.placeholder names i) ih

/-- A membership is compiled, unless its list is empty or too long. -/
theorem renders_member (r : d.Reading) (name target field : String) (mode : Mode) {vs : List Operand} (hne : vs ≠ [])
    (hmax : ∀ m ∈ d.maxInList?, vs.length ≤ m) :
    r.Renders (Compile.membership d name target vs) target field mode (.member false vs) := by
  intro b
  obtain ⟨v, vs, rfl⟩ := List.exists_cons_of_ne_nil hne
  have hslots := Compile.mapM_yields id id (Compile.bindOperand_yields (σ := σ)) (v :: vs) b
  rw [List.map_id, List.map_id] at hslots
  rw [Compile.membership_eq hne hmax]
  refine ⟨_, hslots.map _, fun {names} ht => ?_⟩
  have hlist := TermsText.ofList (r.placeholder names b.params.length)
    (r.placeholders_text names (List.range' (b.params.length + 1) vs.length))
  rw [List.length_cons, List.range'_succ, List.map_cons, Fragment.render_append, Fragment.render_append,
    String.toList_append, String.toList_append, Fragment.render_join, Fragment.render_text, Fragment.render_text,
    Fragment.render_slot, Condition.formula, List.length_cons, List.range'_succ, List.map_cons]
  simpa using FormulaText.member ht hlist

/-- A negated membership is compiled. -/
theorem renders_not (r : d.Reading) {step : Compile σ Fragment} {target field : String} {mode : Mode} {vs : List Operand}
    (h : r.Renders step target field mode (.member false vs)) :
    r.Renders (do return Fragment.text "NOT (" ++ (← step) ++ Fragment.text ")") target field mode (.member true vs) := by
  intro b
  obtain ⟨f, hf, htext⟩ := h b
  refine ⟨_, hf.map _, fun ht => ?_⟩
  rw [Fragment.render_append, Fragment.render_append, Fragment.render_text, Fragment.render_text, String.toList_append,
    String.toList_append, List.append_assoc]
  exact (htext ht).formula.not

/-- A reference to a field that stands for the path of a field, that one or another, from then on. -/
def RefersTo (r : d.Reading) (field seen : String) : Prop :=
  ∀ t u, r.Leads (d.reference t field).2 u → TermText (r.names u) (d.reference t field).1.toList (.path seen)

/-- A condition is compiled to its clause on the field that it is read as. -/
theorem condition_stands_under (r : d.Reading) {field seen : String} (hseen : r.RefersTo field seen) (mode : Mode) {c : Condition}
    (hc : c.Compilable d.maxInList?) (b : Bindings σ) :
    ∃ f b', (Compile.condition d field mode c).Yields b f b' ∧
      r.Stand [c.clause r.folding d.placeholder seen mode] b b' [f] := by
  have hstep : ∃ step, (Compile.condition d field mode c = Compile.reference d field >>= step) ∧
      ∀ target, r.Renders (step target) target seen mode c := by
    cases c with
    | compare op v => exact ⟨_, rfl, fun target => r.renders_compare target seen mode op v⟩
    | text t part => exact ⟨_, rfl, fun target => r.renders_text target seen mode t part⟩
    | member negated vs =>
      obtain ⟨hne, hmax⟩ := hc negated vs rfl
      cases negated with
      | false => exact ⟨_, rfl, fun target => r.renders_member field target seen mode hne hmax⟩
      | true => exact ⟨_, rfl, fun target => r.renders_not (r.renders_member field target seen mode hne hmax)⟩
  obtain ⟨step, heq, hstep⟩ := hstep
  obtain ⟨f, hf, htext⟩ := hstep (d.reference b.table field).1 ⟨(d.reference b.table field).2, b.params⟩
  refine ⟨f, _, heq ▸ (Compile.reference_yields d field b).bind hf, ?_⟩
  exact Stand.single (r.leads_reference b.table field) fun {u} hu => htext (hseen b.table u hu)

/-- A condition on a field that fits is compiled to its clause. -/
theorem condition_stands (r : d.Reading) {field : String} (hfits : r.Fits field) (mode : Mode) {c : Condition}
    (hc : c.Compilable d.maxInList?) (b : Bindings σ) :
    ∃ f b', (Compile.condition d field mode c).Yields b f b' ∧
      r.Stand [c.clause r.folding d.placeholder field mode] b b' [f] :=
  r.condition_stands_under (fun _ _ => r.reference hfits) mode hc b

/-! ## Filters -/

/-- Items that are each compiled to a clause are compiled to their clauses. -/
theorem mapM_stands (r : d.Reading) {α : Type} (step : α → Compile σ Fragment) (clause : α → Clause d.placeholder) {xs : List α}
    (h : ∀ x ∈ xs, ∀ b, ∃ f b', (step x).Yields b f b' ∧ r.Stand [clause x] b b' [f]) (b : Bindings σ) :
    ∃ fs b', Compile.Yields (xs.mapM step) b fs b' ∧ r.Stand (xs.map clause) b b' fs := by
  induction xs generalizing b with
  | nil => exact ⟨[], b, .pure [] b, .nil b⟩
  | cons x xs ih =>
    obtain ⟨f, b₁, hf, hs⟩ := h x List.mem_cons_self b
    obtain ⟨fs, b₂, hfs, hss⟩ := ih (fun x' h' => h x' (List.mem_cons_of_mem x h')) b₁
    rw [List.mapM_cons]
    exact ⟨f :: fs, b₂, hf.bind (hfs.map _), hs.append hss⟩

/-- The conditions of a field are compiled to their clauses. -/
theorem conditions_stand (r : d.Reading) {field seen : String} (hseen : r.RefersTo field seen) (mode : Mode) {cs : List Condition}
    (hc : ∀ c ∈ cs, c.Compilable d.maxInList?) (b : Bindings σ) :
    ∃ fs b', Compile.Yields (cs.mapM (Compile.condition d field mode)) b fs b' ∧
      r.Stand (cs.map (Condition.clause r.folding d.placeholder seen mode)) b b' fs :=
  r.mapM_stands _ _ (fun c h => r.condition_stands_under hseen mode (hc c h)) b

/-- What a dialect can compile: fields that fit, and conditions within its bounds. -/
def Compilable (r : d.Reading) (w : Where) : Prop :=
  ∀ e ∈ w.entries, r.Fits e.1 ∧ ∀ c ∈ e.2.conditions, c.Compilable d.maxInList?

/-- The fields of a filter are compiled to their clauses on the fields that they are read as. -/
theorem fields_stand (r : d.Reading) {seen : String → String} {entries : List (String × FieldFilter)}
    (h : ∀ e ∈ entries, r.RefersTo e.1 (seen e.1) ∧ ∀ c ∈ e.2.conditions, c.Compilable d.maxInList?) (b : Bindings σ) :
    ∃ fs b', Compile.Yields (entries.mapM fun (name, f) => Compile.field d name f) b fs b' ∧
      r.Stand (entries.flatMap fun e => e.2.clauses r.folding d.placeholder (seen e.1)) b b' fs.flatten := by
  induction entries generalizing b with
  | nil => exact ⟨[], b, .pure [] b, .nil b⟩
  | cons e entries ih =>
    obtain ⟨hseen, hc⟩ := h e List.mem_cons_self
    obtain ⟨f, b₁, hf, hs⟩ := r.conditions_stand hseen e.2.mode hc b
    obtain ⟨fs, b₂, hfs, hss⟩ := ih (fun e' h' => h e' (List.mem_cons_of_mem e h')) b₁
    rw [List.mapM_cons]
    exact ⟨f :: fs, b₂, hf.bind (hfs.map _), hs.append hss⟩

/-- The fragment of a filter, if there is one, is the conjunction of its clauses, if there are any. -/
structure FilterStand (r : d.Reading) (w : Where) (b b' : Bindings σ) (f : Option Fragment) : Prop where
  params : b'.params = b.params ++ Clause.allOperands (w.clauses r.folding d.placeholder)
  leads : r.Leads b.table b'.table
  text : ∀ {u}, r.Leads b'.table u →
    Option.Rel (fun g formula => FormulaText (r.names u) .disjunction (g.render d.placeholder).toList formula) f
      (conjoin (Clause.formulas b.params.length (w.clauses r.folding d.placeholder)))

/-- A fragment that is a formula, rendered. -/
theorem rendered_of_text {names : Names} {f : Option Fragment} {formula : Option Formula}
    (h : Option.Rel (fun g formula => FormulaText names .disjunction (g.render d.placeholder).toList formula) f formula) :
    Option.Rel (fun text formula => FormulaText names .disjunction text.toList formula) (f.map (Bindings.render d)) formula := by
  cases h with
  | none => exact .none
  | some hg => exact .some hg

/-- The rendered text of a filter is the conjunction of its clauses. -/
theorem FilterStand.rendered {r : d.Reading} {w : Where} {b b' : Bindings σ} {f : Option Fragment}
    (h : r.FilterStand w b b' f) {u : σ} (hu : r.Leads b'.table u) :
    Option.Rel (fun text formula => FormulaText (r.names u) .disjunction text.toList formula)
      (f.map (Bindings.render d)) (conjoin (Clause.formulas b.params.length (w.clauses r.folding d.placeholder))) :=
  rendered_of_text (h.text hu)

/-- A valid filter is compiled to the conjunction of its clauses on the fields that its own are read as. -/
theorem filter_stands_under (r : d.Reading) (seen : String → String) {w : Where} (hv : w.Valid)
    (h : ∀ e ∈ w.entries, r.RefersTo e.1 (seen e.1) ∧ ∀ c ∈ e.2.conditions, c.Compilable d.maxInList?) (b : Bindings σ) :
    ∃ f b', (Compile.filter d w).Yields b f b' ∧
      b'.params = b.params ++ Clause.allOperands (w.clausesUnder seen r.folding d.placeholder) ∧ r.Leads b.table b'.table ∧
      ∀ u, r.Leads b'.table u →
        Option.Rel (fun g formula => FormulaText (r.names u) .disjunction (g.render d.placeholder).toList formula) f
          (conjoin (Clause.formulas b.params.length (w.clausesUnder seen r.folding d.placeholder))) := by
  obtain ⟨fs, b', hfs, hs⟩ := r.fields_stand h b
  have hvalid : Compile.Yields (MonadExcept.ofExcept w.validate : Compile σ Unit) b () b := by
    rw [hv]
    exact .pure () b
  cases hflat : fs.flatten with
  | nil =>
    refine ⟨none, b', hvalid.bind (hfs.bind ?_), hs.params, hs.leads, fun u hu => ?_⟩
    · rw [hflat]
      exact .pure none b'
    · have htexts := hs.texts hu
      rw [hflat] at htexts
      cases htexts' : Clause.formulas b.params.length (w.clausesUnder seen r.folding d.placeholder) with
      | nil => exact .none
      | cons f rest =>
        rw [Where.clausesUnder] at htexts'
        rw [htexts'] at htexts
        cases htexts
  | cons g gs =>
    rw [hflat] at hs
    refine ⟨some (Fragment.join " AND " (g :: gs)), b', hvalid.bind (hfs.bind ?_), hs.params, hs.leads, fun u hu => ?_⟩
    · rw [hflat]
      exact .pure _ b'
    · obtain ⟨f, hf, htext⟩ := hs.joined (List.cons_ne_nil g gs) hu
      rw [Where.clausesUnder, hf]
      exact .some htext

/-- A valid filter that the dialect can compile is compiled to the conjunction of its clauses. -/
theorem filter_stands (r : d.Reading) {w : Where} (hv : w.Valid) (h : r.Compilable w) (b : Bindings σ) :
    ∃ f b', (Compile.filter d w).Yields b f b' ∧ r.FilterStand w b b' f := by
  obtain ⟨f, b', hf, hparams, hleads, htext⟩ :=
    r.filter_stands_under id hv (fun e he => ⟨fun _ _ => r.reference (h e he).1, (h e he).2⟩) b
  exact ⟨f, b', hf, hparams, hleads, fun {u} => htext u⟩

end Dialect.Reading

end DocQuery
