import DocQuery.Dynamo.Dialect
import DocQuery.Proofs.Compile.Faults

/-!
# Where operands stand

A passage is text with operands in it, and its fragment from a slot on has a slot in the place of each operand, one after the
other. Every condition that a dialect can compile is compiled to the fragment of its passage, from the next free slot on, and binds
the operands of the passage (`condition_lays`). Main statement: the slots of a compiled filter are the ones that compiling it took,
in order and each of them once, and in the place of each slot there belongs the operand that is bound to it (`filter_lays_out`).
-/

namespace DocQuery

/-! ## Fragments after one another -/

namespace Fragment

theorem slots_glue (s : String) (slots : List (Nat × String)) (g : Fragment) :
    (glue s slots g).slots = slots.map (·.1) ++ g.slots := by
  induction slots generalizing s with
  | nil => rfl
  | cons e rest ih =>
    obtain ⟨i, t⟩ := e
    have hrest := ih t
    rw [Fragment.slots] at hrest
    rw [glue, Fragment.slots, List.map_cons, List.map_cons, List.cons_append, hrest]

theorem slots_append (f g : Fragment) : (f ++ g).slots = f.slots ++ g.slots := slots_glue f.head f.tail g

theorem empty_append (f : Fragment) : empty ++ f = f := by
  show glue "" [] f = f
  rw [glue, String.empty_append]

theorem append_empty (f : Fragment) : f ++ empty = f := by
  have hglue : ∀ (s : String) (slots : List (Nat × String)), glue s slots empty = ⟨s, slots⟩ := by
    intro s slots
    induction slots generalizing s with
    | nil => rw [glue, empty, String.append_empty]
    | cons e rest ih => rw [glue, ih]
  exact hglue f.head f.tail

/-- Text before a fragment whose slots go on is text before all of it. -/
theorem glue_append_text (s t : String) (slots : List (Nat × String)) (g : Fragment) :
    glue (s ++ t) slots g = ⟨s ++ (glue t slots g).head, (glue t slots g).tail⟩ := by
  cases slots with
  | nil => rw [glue, glue, String.append_assoc]
  | cons e rest => rfl

theorem glue_append (s : String) (slots : List (Nat × String)) (g h : Fragment) :
    glue s slots g ++ h = glue s slots (g ++ h) := by
  induction slots generalizing s with
  | nil => exact glue_append_text s g.head g.tail h
  | cons e rest ih =>
    obtain ⟨i, t⟩ := e
    show (⟨s, (i, (glue t rest g ++ h).head) :: (glue t rest g ++ h).tail⟩ : Fragment) = _
    rw [ih, glue]

theorem append_assoc (f g h : Fragment) : f ++ g ++ h = f ++ (g ++ h) := glue_append f.head f.tail g h

end Fragment

/-! ## Passages -/

/-- A stretch of text, or an operand in its place. -/
inductive Piece where
  | text (s : String)
  | operand (v : Operand)

/-- Text with operands in it. -/
abbrev Passage := List Piece

namespace Passage

/-- The operands in order of appearance. -/
def operands : Passage → List Operand
  | [] => []
  | .text _ :: p => operands p
  | .operand v :: p => v :: operands p

/-- The text with the operands written into it. -/
def written (write : Operand → String) : Passage → String
  | [] => ""
  | .text s :: p => s ++ written write p
  | .operand v :: p => write v ++ written write p

/-- The fragment with slots from a number on in the places of the operands. -/
def fragment : Nat → Passage → Fragment
  | _, [] => .empty
  | slot, .text s :: p => Fragment.text s ++ fragment slot p
  | slot, .operand _ :: p => Fragment.slot slot ++ fragment (slot + 1) p

/-- Passages in order, with a separator between them. -/
def join (separator : String) : List Passage → Passage
  | [] => []
  | [p] => p
  | p :: rest => p ++ Piece.text separator :: join separator rest

/-- A passage between two texts. -/
def enclosed (before after : String) (p : Passage) : Passage := Piece.text before :: p ++ [.text after]

/-- The fragments of passages, each with the slots after those of the one before. -/
def fragments : Nat → List Passage → List Fragment
  | _, [] => []
  | slot, p :: rest => fragment slot p :: fragments (slot + (operands p).length) rest

theorem operands_append (p q : Passage) : operands (p ++ q) = operands p ++ operands q := by
  induction p with
  | nil => rfl
  | cons piece p ih => cases piece with
    | text s => exact ih
    | operand v => exact congrArg (v :: ·) ih

theorem fragment_append (slot : Nat) (p q : Passage) :
    fragment slot (p ++ q) = fragment slot p ++ fragment (slot + (operands p).length) q := by
  induction p generalizing slot with
  | nil => exact (Fragment.empty_append _).symm
  | cons piece p ih => cases piece with
    | text s => rw [List.cons_append, fragment, fragment, operands, ih, Fragment.append_assoc]
    | operand v =>
      rw [List.cons_append, fragment, fragment, operands, ih, Fragment.append_assoc, List.length_cons, Nat.add_assoc,
        Nat.add_comm 1]

theorem operands_enclosed (before after : String) (p : Passage) : operands (enclosed before after p) = operands p := by
  rw [enclosed, List.cons_append, operands, operands_append]
  exact List.append_nil _

theorem fragment_enclosed (slot : Nat) (before after : String) (p : Passage) :
    fragment slot (enclosed before after p) = Fragment.text before ++ fragment slot p ++ Fragment.text after := by
  rw [enclosed, List.cons_append, fragment, fragment_append, fragment, fragment, Fragment.append_empty, Fragment.append_assoc]

theorem fragments_append (slot : Nat) (ps qs : List Passage) :
    fragments slot (ps ++ qs) = fragments slot ps ++ fragments (slot + (ps.flatMap operands).length) qs := by
  induction ps generalizing slot with
  | nil => rfl
  | cons p ps ih =>
    rw [List.cons_append, fragments, fragments, ih, List.cons_append, List.flatMap_cons, List.length_append, Nat.add_assoc]

theorem operands_join (separator : String) (ps : List Passage) : operands (join separator ps) = ps.flatMap operands := by
  induction ps with
  | nil => rfl
  | cons p ps ih => cases ps with
    | nil => rw [join, List.flatMap_singleton]
    | cons q qs =>
      have hjoin : join separator (p :: q :: qs) = p ++ Piece.text separator :: join separator (q :: qs) := rfl
      rw [hjoin, operands_append, operands, ih]
      exact List.flatMap_cons.symm

/-- Fragments of passages with a separator between them are the fragment of the passages with it between them. -/
theorem join_fragments (separator : String) (slot : Nat) (ps : List Passage) :
    Fragment.join separator (fragments slot ps) = fragment slot (join separator ps) := by
  induction ps generalizing slot with
  | nil => rfl
  | cons p ps ih => cases ps with
    | nil => rfl
    | cons q qs =>
      have hfragments : Fragment.join separator (fragments slot (p :: q :: qs)) = fragment slot p ++
          (Fragment.text separator ++ Fragment.join separator (fragments (slot + (operands p).length) (q :: qs))) := rfl
      have hjoin : join separator (p :: q :: qs) = p ++ Piece.text separator :: join separator (q :: qs) := rfl
      rw [hfragments, ih, hjoin, fragment_append, fragment]

/-- Passages with one operand each have consecutive slots. -/
theorem fragments_map {α : Type} {p : α → Passage} (operand : α → Operand) (made : Nat → Fragment)
    (ho : ∀ x, operands (p x) = [operand x]) (hf : ∀ x slot, fragment slot (p x) = made slot) (slot : Nat) (xs : List α) :
    fragments slot (xs.map p) = (List.range' slot xs.length).map made := by
  induction xs generalizing slot with
  | nil => rfl
  | cons x xs ih =>
    rw [List.map_cons, fragments, hf, ho, ih, List.length_singleton, List.length_cons, List.range'_succ, List.map_cons]

theorem flatMap_operands {α : Type} {p : α → Passage} (operand : α → Operand) (ho : ∀ x, operands (p x) = [operand x])
    (xs : List α) : (xs.map p).flatMap operands = xs.map operand := by
  induction xs with
  | nil => rfl
  | cons x xs ih => rw [List.map_cons, List.flatMap_cons, ho, ih, List.map_cons, List.singleton_append]

/-- The slots of the fragment of a passage count up, one for each operand. -/
theorem slots_fragment (slot : Nat) (p : Passage) : (fragment slot p).slots = List.range' slot (operands p).length := by
  induction p generalizing slot with
  | nil => rfl
  | cons piece p ih => cases piece with
    | text s =>
      rw [fragment, Fragment.slots_append, ih, operands]
      exact List.nil_append _
    | operand v =>
      rw [fragment, Fragment.slots_append, ih, operands, List.length_cons, List.range'_succ]
      exact List.singleton_append

/-- With the operands written into the slots that they are bound to, the fragment of a passage is the passage. -/
theorem render_fragment {params : List Operand} {slot : Nat} {p : Passage} (h : operands p <+: params.drop slot)
    (write : Operand → String) : ((fragment slot p).render fun i => (params[i]?).elim "" write) = written write p := by
  induction p generalizing slot with
  | nil => exact String.append_empty
  | cons piece p ih => cases piece with
    | text s => rw [fragment, Fragment.render_append, Fragment.render_text, ih h, written]
    | operand v =>
      obtain ⟨rest, hrest⟩ := h
      rw [operands, List.cons_append] at hrest
      have hfirst : params[slot]? = some v := by
        rw [← Nat.add_zero slot, ← List.getElem?_drop, ← hrest, List.getElem?_cons_zero]
      have hothers : operands p <+: params.drop (slot + 1) := by
        refine ⟨rest, ?_⟩
        rw [← List.drop_drop, ← hrest, List.drop_succ_cons, List.drop_zero]
      rw [fragment, Fragment.render_append, Fragment.render_slot, ih hothers, hfirst, written, Option.elim_some]

end Passage

/-! ## The passages of a filter -/

/-- A condition with what it is on. -/
structure Test where
  /-- The name of the field, or a reference to it. -/
  subject : String
  /-- The mode of the field. -/
  mode : Mode
  /-- The condition. -/
  condition : Condition

/-- The conditions of a filter, field by field, and on each field in order. -/
def Where.tests (w : Where) : List Test := w.entries.flatMap fun e => e.2.conditions.map (Test.mk e.1 e.2.mode)

namespace Dialect

variable {σ : Type} (d : Dialect σ)

/-- Conditions on fields as conditions on references to them, the first of which draws on a table. -/
def referred : σ → List Test → List Test
  | _, [] => []
  | t, x :: rest => { x with subject := (d.reference t x.subject).1 } :: referred (d.reference t x.subject).2 rest

/-- The table after references to the fields of conditions. -/
def tableAfter (t : σ) (xs : List Test) : σ := xs.foldl (fun t x => (d.reference t x.subject).2) t

theorem referred_append (t : σ) (xs ys : List Test) :
    d.referred t (xs ++ ys) = d.referred t xs ++ d.referred (d.tableAfter t xs) ys := by
  induction xs generalizing t with
  | nil => rfl
  | cons x xs ih => exact congrArg (_ :: ·) (ih _)

theorem tableAfter_append (t : σ) (xs ys : List Test) :
    d.tableAfter t (xs ++ ys) = d.tableAfter (d.tableAfter t xs) ys :=
  List.foldl_append

/-- What an insensitive text test compares, on a reference. -/
def folding (target : String) : Folding := if (d.lower? target).isSome then .small else .casings

end Dialect

namespace Test

variable {σ : Type} (d : Dialect σ)

/-- The operands of a condition on a reference, or the casings that stand for its operand. -/
def operands (x : Test) : List Operand := x.condition.operands (d.folding x.subject) x.mode

/-- The reference of a text test, in small letters where the test does not regard case and the language has them. -/
def seen (x : Test) : String :=
  match x.mode with
  | .sensitive => x.subject
  | .insensitive => (d.lower? x.subject).getD x.subject

/-- A function applied to a reference and a text. -/
def callPassage (function target part : String) : Passage :=
  [.text (function ++ "(" ++ target ++ ", "), .operand (.text part), .text ")"]

/-- Alternatives, in parentheses where there are several. -/
def alternatives : List Passage → Passage
  | [p] => p
  | ps => Passage.enclosed "(" ")" (Passage.join " OR " ps)

/-- A reference and a list of values. -/
def memberPassage (target : String) (vs : List Operand) : Passage :=
  Passage.enclosed (target ++ " IN (") ")" (Passage.join ", " (vs.map fun v => [.operand v]))

/-- The text of a condition on a reference with its operands in their places. -/
def passage (x : Test) : Passage :=
  match x.condition with
  | .compare op v => [.text (x.subject ++ " " ++ d.symbol op ++ " "), .operand v]
  | .text t part =>
    alternatives (((d.folding x.subject).parts x.mode part).map (callPassage (d.function t) (x.seen d)))
  | .member false vs => memberPassage x.subject vs
  | .member true vs => Passage.enclosed "NOT (" ")" (memberPassage x.subject vs)

theorem operands_alternatives (ps : List Passage) : Passage.operands (alternatives ps) = ps.flatMap Passage.operands := by
  have hjoined : Passage.operands (Passage.enclosed "(" ")" (Passage.join " OR " ps)) = ps.flatMap Passage.operands := by
    rw [Passage.operands_enclosed, Passage.operands_join]
  cases ps with
  | nil => exact hjoined
  | cons p ps => cases ps with
    | nil => exact (List.flatMap_singleton _ _).symm
    | cons q qs => exact hjoined

theorem operands_memberPassage (target : String) (vs : List Operand) : Passage.operands (memberPassage target vs) = vs := by
  rw [memberPassage, Passage.operands_enclosed, Passage.operands_join, Passage.flatMap_operands id fun _ => rfl, List.map_id]

/-- The operands in the text of a condition are its operands. -/
theorem operands_passage (x : Test) : Passage.operands (x.passage d) = x.operands d := by
  obtain ⟨subject, mode, c⟩ := x
  cases c with
  | compare op v => rfl
  | text t part =>
    rw [passage, operands_alternatives, Passage.flatMap_operands .text fun _ => rfl, operands, Condition.operands]
  | member negated vs => cases negated with
    | false => exact operands_memberPassage subject vs
    | true =>
      rw [passage, Passage.operands_enclosed, operands_memberPassage]
      rfl

end Test

/-! ## Compiling to passages -/

namespace Compile

variable {σ : Type} {d : Dialect σ}

/-- A step that makes the fragment of a passage, from the next slot on, and binds its operands. -/
def Lays (step : Compile σ Fragment) (p : Passage) : Prop :=
  ∀ b, step.Yields b (p.fragment b.params.length) ⟨b.table, b.params ++ Passage.operands p⟩

/-- A step and then text around its fragment. -/
theorem Lays.enclosed {step : Compile σ Fragment} {p : Passage} (h : Lays step p) (before after : String) :
    Lays (do return Fragment.text before ++ (← step) ++ Fragment.text after) (p.enclosed before after) := by
  intro b
  rw [Passage.operands_enclosed, Passage.fragment_enclosed]
  exact (h b).map _

theorem call_lays (function target part : String) :
    Lays (call function target part : Compile σ Fragment) (Test.callPassage function target part) := by
  intro b
  exact Dialect.Reading.call_yields function target part b

/-- Calls with one operand after the other are made to the fragments of their passages. -/
theorem calls_yield (function target : String) (parts : List String) (b : Bindings σ) :
    Compile.Yields (parts.mapM (call function target)) b
      (Passage.fragments b.params.length (parts.map (Test.callPassage function target)))
      ⟨b.table, b.params ++ (parts.map (Test.callPassage function target)).flatMap Passage.operands⟩ := by
  rw [Passage.flatMap_operands .text fun _ => rfl,
    Passage.fragments_map .text (Dialect.Reading.callFragment function target) (fun _ => rfl) fun _ _ => rfl]
  exact mapM_yields _ _ (Dialect.Reading.call_yields function target) parts b

/-- Calls with one operand after the other are laid out as alternatives. -/
theorem alternatives_lay (function target : String) (parts : List String) :
    Lays (do
      match ← parts.mapM (call function target) with
      | [single] => return single
      | calls => return Fragment.text "(" ++ Fragment.join " OR " calls ++ Fragment.text ")" : Compile σ Fragment)
      (Test.alternatives (parts.map (Test.callPassage function target))) := by
  intro b
  rw [Test.operands_alternatives]
  refine (calls_yield function target parts b).bind ?_
  generalize parts.map (Test.callPassage function target) = ps
  have hseveral : Passage.fragment b.params.length (Passage.enclosed "(" ")" (Passage.join " OR " ps)) =
      Fragment.text "(" ++ Fragment.join " OR " (Passage.fragments b.params.length ps) ++ Fragment.text ")" := by
    rw [Passage.fragment_enclosed, Passage.join_fragments]
  cases ps with
  | nil => exact hseveral ▸ .pure _ _
  | cons p ps => cases ps with
    | nil => exact .pure _ _
    | cons q qs => exact hseveral ▸ .pure _ _

/-- A text test is laid out on its reference, or on that in small letters where it does not regard case. -/
theorem textTest_lays (t : TextTest) (target part : String) (mode : Mode) :
    Lays (textTest d t target part mode) (Test.passage d ⟨target, mode, .text t part⟩) := by
  cases mode with
  | sensitive => exact call_lays (d.function t) target part
  | insensitive =>
    cases hlower : d.lower? target with
    | some lowered =>
      have hpassage : Test.passage d ⟨target, .insensitive, .text t part⟩ =
          Test.callPassage (d.function t) lowered (Text.lower part) := by
        simp only [Test.passage, Test.seen, Dialect.folding, hlower]
        rfl
      rw [hpassage]
      simp only [textTest, hlower]
      exact call_lays (d.function t) lowered (Text.lower part)
    | none =>
      have hpassage : Test.passage d ⟨target, .insensitive, .text t part⟩ =
          Test.alternatives ((casings part).map (Test.callPassage (d.function t) target)) := by
        simp only [Test.passage, Test.seen, Dialect.folding, hlower]
        rfl
      rw [hpassage]
      simp only [textTest, hlower]
      exact alternatives_lay (d.function t) target (casings part)

/-- A membership is laid out as its list, unless that is empty or too long. -/
theorem membership_lays (name target : String) {vs : List Operand} (hne : vs ≠ []) (hmax : ∀ m ∈ d.maxInList?, vs.length ≤ m) :
    Lays (membership d name target vs) (Test.memberPassage target vs) := by
  intro b
  have hslots := mapM_yields id id (bindOperand_yields (σ := σ)) vs b
  rw [List.map_id, List.map_id] at hslots
  rw [membership_eq hne hmax, Test.operands_memberPassage, Test.memberPassage, Passage.fragment_enclosed,
    ← Passage.join_fragments, Passage.fragments_map id Fragment.slot (fun _ => rfl) fun v slot => ?_]
  · exact hslots.map _
  · exact Fragment.append_empty _

/-- A condition that the dialect can compile is laid out, on the reference to its field. -/
theorem condition_lays (field : String) (mode : Mode) {c : Condition} (hc : c.Compilable d.maxInList?) (b : Bindings σ) :
    (condition d field mode c).Yields b
      ((Test.passage d ⟨(d.reference b.table field).1, mode, c⟩).fragment b.params.length)
      ⟨(d.reference b.table field).2, b.params ++ Test.operands d ⟨(d.reference b.table field).1, mode, c⟩⟩ := by
  rw [← Test.operands_passage]
  generalize htarget : (d.reference b.table field).1 = target
  have hreference := reference_yields d field b
  rw [htarget] at hreference
  refine hreference.bind ?_
  cases c with
  | compare op v =>
    have hstep := (bindOperand_yields v ⟨(d.reference b.table field).2, b.params⟩).map fun slot =>
      Fragment.text (target ++ " " ++ d.symbol op ++ " ") ++ Fragment.slot slot
    rw [← Fragment.append_empty (Fragment.slot _)] at hstep
    exact hstep
  | text t part => exact textTest_lays t target part mode ⟨(d.reference b.table field).2, b.params⟩
  | member negated vs =>
    obtain ⟨hne, hmax⟩ := hc negated vs rfl
    have hmember := membership_lays (d := d) field target hne hmax
    cases negated with
    | false => exact hmember ⟨(d.reference b.table field).2, b.params⟩
    | true => exact hmember.enclosed "NOT (" ")" ⟨(d.reference b.table field).2, b.params⟩

/-- The fragments of conditions on fields, between the bindings before and after them. -/
structure Laid (d : Dialect σ) (xs : List Test) (b b' : Bindings σ) (fs : List Fragment) : Prop where
  table : b'.table = d.tableAfter b.table xs
  params : b'.params = b.params ++ (d.referred b.table xs).flatMap (Test.operands d)
  fragments : fs = Passage.fragments b.params.length ((d.referred b.table xs).map (Test.passage d))

theorem Laid.nil (b : Bindings σ) : Laid d [] b b [] := ⟨rfl, (List.append_nil _).symm, rfl⟩

/-- The conditions of a filter bind the operands that stand in their texts. -/
theorem flatMap_operands_passage (xs : List Test) :
    (xs.map (Test.passage d)).flatMap Passage.operands = xs.flatMap (Test.operands d) := by
  rw [List.flatMap_map]
  exact congrArg xs.flatMap (funext (Test.operands_passage d))

/-- Conditions after one another are laid out after one another. -/
theorem Laid.append {xs ys : List Test} {b b' b'' : Bindings σ} {fs gs : List Fragment} (h : Laid d xs b b' fs)
    (h' : Laid d ys b' b'' gs) : Laid d (xs ++ ys) b b'' (fs ++ gs) where
  table := by rw [h'.table, h.table, Dialect.tableAfter_append]
  params := by rw [h'.params, h.params, h.table, Dialect.referred_append, List.flatMap_append, List.append_assoc]
  fragments := by
    rw [h.fragments, h'.fragments, h.table, h.params, List.length_append, Dialect.referred_append, List.map_append,
      Passage.fragments_append, flatMap_operands_passage]

/-- Items that are each laid out as conditions are laid out as all of these. -/
theorem mapM_laid {α β : Type} (step : α → Compile σ β) (tests : α → List Test) (made : β → List Fragment) {xs : List α}
    (h : ∀ x ∈ xs, ∀ b, ∃ y b', (step x).Yields b y b' ∧ Laid d (tests x) b b' (made y)) (b : Bindings σ) :
    ∃ ys b', Compile.Yields (xs.mapM step) b ys b' ∧ Laid d (xs.flatMap tests) b b' (ys.flatMap made) := by
  induction xs generalizing b with
  | nil => exact ⟨[], b, .pure [] b, .nil b⟩
  | cons x xs ih =>
    obtain ⟨y, b₁, hy, hlaid⟩ := h x List.mem_cons_self b
    obtain ⟨ys, b₂, hys, hrest⟩ := ih (fun x' hx' => h x' (List.mem_cons_of_mem x hx')) b₁
    refine ⟨y :: ys, b₂, ?_, ?_⟩
    · rw [List.mapM_cons]
      exact hy.bind (hys.map _)
    · rw [List.flatMap_cons, List.flatMap_cons]
      exact hlaid.append hrest

/-- The conditions of a field are laid out in order. -/
theorem field_laid (e : String × FieldFilter) (hc : ∀ c ∈ e.2.conditions, c.Compilable d.maxInList?) (b : Bindings σ) :
    ∃ fs b', (Compile.field d e.1 e.2).Yields b fs b' ∧ Laid d (e.2.conditions.map (Test.mk e.1 e.2.mode)) b b' fs := by
  have hconditions := mapM_laid (condition d e.1 e.2.mode) (fun c => [Test.mk e.1 e.2.mode c]) (fun f => [f])
    (fun c hmem b => ⟨_, _, condition_lays e.1 e.2.mode (hc c hmem) b, rfl, ?_, rfl⟩) b
  · obtain ⟨fs, b', hfs, hlaid⟩ := hconditions
    rw [List.flatMap_singleton', ← List.map_eq_flatMap] at hlaid
    exact ⟨fs, b', hfs, hlaid⟩
  · exact (congrArg (b.params ++ ·) (List.flatMap_singleton _ _)).symm

/-- A valid filter that the dialect can compile is laid out as its conditions, with `AND` between them, if it has any. -/
theorem filter_laid {w : Where} (hv : w.Valid) (hc : ∀ e ∈ w.entries, ∀ c ∈ e.2.conditions, c.Compilable d.maxInList?)
    (b : Bindings σ) :
    ∃ fs b', Laid d w.tests b b' fs ∧
      (filter d w).Yields b (if fs.isEmpty then none else some (Fragment.join " AND " fs)) b' := by
  obtain ⟨predicates, b', hpredicates, hlaid⟩ := mapM_laid (fun e : String × FieldFilter => Compile.field d e.1 e.2)
    (fun e => e.2.conditions.map (Test.mk e.1 e.2.mode)) id (fun e he => field_laid e (hc e he)) b
  have hvalid : Compile.Yields (MonadExcept.ofExcept w.validate : Compile σ Unit) b () b := by
    rw [hv]
    exact .pure () b
  refine ⟨predicates.flatten, b', ?_, hvalid.bind (hpredicates.bind ?_)⟩
  · rw [List.flatMap_id] at hlaid
    exact hlaid
  · cases predicates.flatten with
    | nil => exact .pure none b'
    | cons f fs => exact .pure _ b'

/-- The text of a filter with its operands in their places, its fields referred to from a table on. -/
def passage (d : Dialect σ) (t : σ) (w : Where) : Passage :=
  Passage.join " AND " ((d.referred t w.tests).map (Test.passage d))

theorem operands_passage (d : Dialect σ) (t : σ) (w : Where) :
    Passage.operands (passage d t w) = (d.referred t w.tests).flatMap (Test.operands d) := by
  rw [passage, Passage.operands_join, flatMap_operands_passage]

/-- A filter that was compiled has become the fragment of its text, unless it has no conditions, and has bound the operands in it. -/
theorem passage_of_yields {w : Where} {b b' : Bindings σ} {f : Option Fragment} (h : (filter d w).Yields b f b') :
    f = (if w.tests.isEmpty then none else some ((passage d b.table w).fragment b.params.length)) ∧
      b'.params = b.params ++ Passage.operands (passage d b.table w) := by
  obtain ⟨hv, hc⟩ := accepted_of_yields h
  obtain ⟨fs, b'', hlaid, hyields⟩ := filter_laid hv hc b
  obtain ⟨hf, rfl⟩ : Except.ok f = Except.ok _ ∧ b' = b'' := Prod.mk.inj (h.symm.trans hyields)
  have hempty : fs.isEmpty = w.tests.isEmpty := by
    rw [hlaid.fragments]
    cases w.tests <;> rfl
  refine ⟨?_, ?_⟩
  · rw [Except.ok.inj hf, hempty, hlaid.fragments, Passage.join_fragments, passage]
  · rw [hlaid.params, operands_passage]

/-- The slots of a compiled filter count up from the first free one, as many as operands were bound, and the operands are those of
its conditions: field by field, on each field in order, and for each condition its operand, its casings or its list in order. With
the operands that are bound written into their slots, the filter reads as its conditions, each on the reference to its field and
with its own operands in their places. -/
theorem filter_lays_out {w : Where} {b b' : Bindings σ} {f : Option Fragment} (h : (filter d w).Yields b f b') :
    b.params.length ≤ b'.params.length ∧
    (f.getD .empty).slots = List.range' b.params.length (b'.params.length - b.params.length) ∧
    b'.params = b.params ++ (d.referred b.table w.tests).flatMap (Test.operands d) ∧
    ∀ write : Operand → String, ((f.getD .empty).render fun i => (b'.params[i]?).elim "" write) =
      Passage.written write (Passage.join " AND " ((d.referred b.table w.tests).map (Test.passage d))) := by
  obtain ⟨hf, hparams⟩ := passage_of_yields h
  have hfragment : f.getD .empty = (passage d b.table w).fragment b.params.length := by
    rw [hf, passage]
    cases w.tests <;> rfl
  refine ⟨?_, ?_, operands_passage d b.table w ▸ hparams, fun write => ?_⟩
  · rw [hparams, List.length_append]
    exact Nat.le_add_right _ _
  · rw [hfragment, Passage.slots_fragment, hparams, List.length_append, Nat.add_sub_cancel_left]
  · rw [hfragment]
    refine Passage.render_fragment ?_ write
    rw [hparams, List.drop_left]

/-- After an operand that is bound already, a text in its three casings and then the values of a negated list, in an expression
with aliases. -/
theorem filter_lays_out_of_casings :
    let w : Where := Keyed.ofList [("name", ⟨[.text .contains "Ab"], .insensitive⟩),
      ("age", ⟨[.member true [.integer 1, .integer 2]], .sensitive⟩)]
    ∃ f b', (filter Dynamo.dialect w).Yields ⟨["age"], [.integer 7]⟩ (some f) b' ∧ f.slots = [1, 2, 3, 4, 5] ∧
      b'.params = [.integer 7, .text "Ab", .text "ab", .text "AB", .integer 1, .integer 2] ∧
      (f.render fun i => (b'.params[i]?).elim "" Operand.literal) =
        "(contains(#n1, \"Ab\") OR contains(#n1, \"ab\") OR contains(#n1, \"AB\")) AND NOT (#n0 IN (1, 2))" := by
  intro w
  have hv : w.Valid := by rfl
  have hfault : w.fault? Dynamo.dialect.maxInList? = none := by rfl
  obtain ⟨f, b', hf⟩ := filter_succeeds hv (Where.compilable_of_fault? hfault) ⟨["age"], [.integer 7]⟩
  obtain ⟨-, hslots, hparams, hwritten⟩ := filter_lays_out hf
  have hbound : b'.params = [.integer 7, .text "Ab", .text "ab", .text "AB", .integer 1, .integer 2] := by
    rw [hparams]
    decide +kernel
  rw [hbound] at hslots
  cases f with
  | none => cases hslots
  | some f =>
    refine ⟨f, b', hf, hslots, hbound, ?_⟩
    rw [show f = (some f).getD .empty from rfl, hwritten]
    decide +kernel

end Compile

end DocQuery
