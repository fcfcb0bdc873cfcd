import DocQuery.Proofs.Dynamo.Projection

/-!
# What an expression mentions

An expression mentions an alias or a placeholder wherever its mark stands in the text, followed by the parts of a name. Nothing here
reads the grammar: what is mentioned is a matter of characters. Main statement: what is taken into the tables of
a request is what their texts mention (`compileTexts_takes`, `assign_uses`).
-/

namespace DocQuery.Dynamo

open Expression

/-! ## Marked words -/

/-- The words of a text that begin with a mark: each mark with the parts of a name after it. -/
def marked (mark : Char) : List Char → List String
  | [] => []
  | c :: cs => if c = mark then String.ofList (c :: cs.takeWhile isNamePart) :: marked mark cs else marked mark cs

/-- The aliases and the placeholders that a text mentions, in the order of the text. -/
structure Mentions (cs : List Char) (aliases slots : List String) : Prop where
  aliases : marked '#' cs = aliases
  slots : marked ':' cs = slots

/-- A text without marks. -/
def Unmarked (cs : List Char) : Prop := '#' ∉ cs ∧ ':' ∉ cs

instance (cs : List Char) : Decidable (Unmarked cs) := inferInstanceAs (Decidable (_ ∧ _))

theorem takeWhile_append (cs : List Char) {rest : List Char} (h : Apart rest) :
    (cs ++ rest).takeWhile isNamePart = cs.takeWhile isNamePart := by
  induction cs with
  | nil => exact takeWhile_append_apart (List.forall_mem_nil _) h
  | cons c cs ih => rw [List.cons_append, List.takeWhile_cons, List.takeWhile_cons, ih]

/-- The marked words of a text and of one after it, into which no name goes on. -/
theorem marked_append (mark : Char) (cs : List Char) {rest : List Char} (h : Apart rest) :
    marked mark (cs ++ rest) = marked mark cs ++ marked mark rest := by
  induction cs with
  | nil => rfl
  | cons c cs ih =>
    rw [List.cons_append, marked, marked, takeWhile_append cs h, ih]
    split <;> rfl

/-- A text without the mark before another one. -/
theorem marked_of_not_mem {mark : Char} {cs : List Char} (h : mark ∉ cs) (rest : List Char) :
    marked mark (cs ++ rest) = marked mark rest := by
  induction cs with
  | nil => rfl
  | cons c cs ih =>
    rw [List.mem_cons, not_or] at h
    rw [List.cons_append, marked, if_neg (Ne.symm h.1), ih h.2]

theorem marked_eq_nil {mark : Char} {cs : List Char} (h : mark ∉ cs) : marked mark cs = [] := by
  have happend := marked_of_not_mem h []
  rwa [List.append_nil] at happend

/-- A mark with nothing but parts of a name after it is one marked word. -/
theorem marked_word {mark : Char} {cs : List Char} (h : ∀ c ∈ cs, isNamePart c = true) (hmark : isNamePart mark = false) :
    marked mark (mark :: cs) = [String.ofList (mark :: cs)] := by
  have hno : mark ∉ cs := fun hm => Bool.false_ne_true (hmark.symm.trans (h mark hm))
  have htake := takeWhile_append_apart h apart_nil
  rw [List.append_nil] at htake
  rw [marked, if_pos rfl, marked_eq_nil hno, htake]

/-- Another mark with nothing but parts of a name after it is no marked word. -/
theorem marked_other {mark other : Char} {cs : List Char} (h : ∀ c ∈ cs, isNamePart c = true) (hmark : isNamePart mark = false)
    (hne : mark ≠ other) : marked mark (other :: cs) = [] := by
  refine marked_eq_nil fun hm => ?_
  rcases List.mem_cons.1 hm with rfl | hm
  · exact hne rfl
  · exact Bool.false_ne_true (hmark.symm.trans (h mark hm))

namespace Mentions

variable {cs ds : List Char} {as bs ps qs : List String}

/-- One text after the other, into which no name goes on. -/
theorem append (hc : Mentions cs as ps) (hd : Mentions ds bs qs) (h : Apart ds) : Mentions (cs ++ ds) (as ++ bs) (ps ++ qs) where
  aliases := by rw [marked_append '#' cs h, hc.aliases, hd.aliases]
  slots := by rw [marked_append ':' cs h, hc.slots, hd.slots]

/-- A text after one without marks. -/
theorem after (cs : List Char) (hc : Unmarked cs) (hd : Mentions ds bs qs) : Mentions (cs ++ ds) bs qs where
  aliases := by rw [marked_of_not_mem hc.1, hd.aliases]
  slots := by rw [marked_of_not_mem hc.2, hd.slots]

theorem unmarked (h : Unmarked cs) : Mentions cs [] [] := ⟨marked_eq_nil h.1, marked_eq_nil h.2⟩

/-- A text before one without marks. -/
theorem before (hc : Mentions cs as ps) (ds : List Char) (hd : Unmarked ds) (h : Apart ds) : Mentions (cs ++ ds) as ps := by
  have happend := hc.append (unmarked hd) h
  rwa [List.append_nil, List.append_nil] at happend

/-- An alias mentions itself. -/
theorem aliasName (n : Nat) : Mentions (Dynamo.aliasName n).toList [Dynamo.aliasName n] [] where
  aliases := by
    rw [aliasName_toList, marked_word (isNamePart_of_numbered rfl n) rfl, ← aliasName_toList, String.ofList_toList]
  slots := by rw [aliasName_toList, marked_other (isNamePart_of_numbered rfl n) rfl (by decide)]

/-- A placeholder mentions itself. -/
theorem placeholder (n : Nat) : Mentions (Dynamo.placeholder n).toList [] [Dynamo.placeholder n] where
  aliases := by rw [placeholder_toList, marked_other (isNamePart_of_numbered rfl n) rfl (by decide)]
  slots := by
    rw [placeholder_toList, marked_word (isNamePart_of_numbered rfl n) rfl, ← placeholder_toList, String.ofList_toList]

end Mentions

/-- The marked words of texts with a separator between them. -/
theorem marked_joined {mark : Char} {separator : List Char} (hs : mark ∉ separator) (ha : Apart separator) (hne : separator ≠ [])
    (cs : List Char) (css : List (List Char)) :
    marked mark (cs ++ css.flatMap (separator ++ ·)) = (cs :: css).flatMap (marked mark) := by
  induction css generalizing cs with
  | nil => rw [List.flatMap_nil, List.append_nil, List.flatMap_cons, List.flatMap_nil, List.append_nil]
  | cons ds css ih =>
    have happart : Apart (separator ++ (ds ++ css.flatMap (separator ++ ·))) := ha.append hne _
    rw [List.flatMap_cons, List.append_assoc, marked_append mark cs happart, marked_of_not_mem hs, ih, List.flatMap_cons,
      List.flatMap_cons, List.flatMap_cons]

/-- What texts mention with a separator between them is what they mention. -/
theorem Mentions.joined {separator : List Char} (hs : Unmarked separator) (ha : Apart separator) (hne : separator ≠ [])
    (cs : List Char) (css : List (List Char)) :
    Mentions (cs ++ css.flatMap (separator ++ ·)) ((cs :: css).flatMap (marked '#')) ((cs :: css).flatMap (marked ':')) :=
  ⟨marked_joined hs.1 ha hne cs css, marked_joined hs.2 ha hne cs css⟩

/-- No name goes on into a placeholder. -/
theorem apart_placeholder (n : Nat) : Apart (placeholder n).toList := by
  rw [placeholder_toList]
  exact apart_cons rfl

/-! ## What goes into the tables -/

/-- From fields with aliases and a number of placeholders on to others, texts mention no alias that is not given out, every alias
that is given out meanwhile, and just the placeholders that are bound meanwhile, each once and in order. -/
structure Uses (fields fields' : List String) (n n' : Nat) (aliases slots : List String) : Prop where
  grows : fields <+: fields'
  distinct : fields.Nodup → fields'.Nodup
  known : ∀ a ∈ aliases, ∃ i < fields'.length, a = aliasName i
  used : ∀ i, fields.length ≤ i → i < fields'.length → aliasName i ∈ aliases
  le : n ≤ n'
  slots : slots = (List.range' n (n' - n)).map placeholder

namespace Uses

variable {fields fields' fields'' : List String} {n n' n'' : Nat} {as bs ps qs : List String}

theorem refl (fields : List String) (n : Nat) : Uses fields fields n n [] [] where
  grows := List.prefix_refl _
  distinct := id
  known := List.forall_mem_nil _
  used := fun i hle hlt => absurd hlt (Nat.not_lt.2 hle)
  le := Nat.le_refl n
  slots := by rw [Nat.sub_self]; rfl

/-- One use after the other. -/
theorem append (h : Uses fields fields' n n' as ps) (h' : Uses fields' fields'' n' n'' bs qs) :
    Uses fields fields'' n n'' (as ++ bs) (ps ++ qs) where
  grows := h.grows.trans h'.grows
  distinct := fun hd => h'.distinct (h.distinct hd)
  known := by
    intro a ha
    rcases List.mem_append.1 ha with ha | ha
    · obtain ⟨i, hi, rfl⟩ := h.known a ha
      exact ⟨i, Nat.lt_of_lt_of_le hi h'.grows.length_le, rfl⟩
    · exact h'.known a ha
  used := by
    intro i hle hlt
    rcases Nat.lt_or_ge i fields'.length with hi | hi
    · exact List.mem_append_left _ (h.used i hle hi)
    · exact List.mem_append_right _ (h'.used i hi hlt)
  le := h.le.trans h'.le
  slots := by
    have hle := h.le
    have hle' := h'.le
    have hsum : n'' - n = (n' - n) + (n'' - n') := by omega
    have hstart : n + 1 * (n' - n) = n' := by omega
    rw [h.slots, h'.slots, hsum, ← List.range'_append, List.map_append, hstart]

/-- A use of an alias that is mentioned anyway. -/
theorem absorb (h : Uses fields fields' n n' as ps) (h' : Uses fields' fields'' n' n'' bs qs) (hsub : as ⊆ bs) :
    Uses fields fields'' n n'' bs (ps ++ qs) where
  grows := (h.append h').grows
  distinct := (h.append h').distinct
  known := h'.known
  used := by
    intro i hle hlt
    rcases List.mem_append.1 ((h.append h').used i hle hlt) with hi | hi
    · exact hsub hi
    · exact hi
  le := (h.append h').le
  slots := (h.append h').slots

/-- The alias of a field that is referred to. -/
theorem reference (fields : List String) (field : String) (n : Nat) :
    Uses fields (aliasFor fields field).2 n n [(aliasFor fields field).1] [] := by
  obtain ⟨i, halias, hi, hgrows⟩ := aliasFor_spec fields field
  have hlt : i < (aliasFor fields field).2.length := (List.getElem?_eq_some_iff.1 hi).1
  refine ⟨hgrows, fun hd => ?_, List.forall_mem_singleton.2 ⟨i, hlt, halias⟩, fun j hle hj => ?_, Nat.le_refl n, ?_⟩
  · rw [aliasFor]
    cases hfind : fields.findIdx? (· == field) with
    | some j => exact hd
    | none =>
      have hnew : field ∉ fields := fun hm => absurd (List.findIdx?_eq_none_iff.1 hfind field hm) (by simp)
      exact hd.append (List.nodup_singleton _) (List.disjoint_singleton.2 hnew)
  · rw [aliasFor] at hj ⊢
    cases hfind : fields.findIdx? (· == field) with
    | some k =>
      rw [hfind] at hj
      exact absurd hj (Nat.not_lt.2 hle)
    | none =>
      simp only [hfind, List.length_append, List.length_singleton] at hj ⊢
      rw [Nat.le_antisymm (Nat.lt_succ_iff.1 hj) hle]
      exact List.mem_singleton_self _
  · rw [Nat.sub_self]
    rfl

/-- Placeholders that are bound, beside aliases that are given out already. -/
theorem bound {k : Nat} (hknown : ∀ a ∈ as, ∃ i < fields.length, a = aliasName i) :
    Uses fields fields n (n + k) as ((List.range' n k).map placeholder) where
  grows := List.prefix_refl _
  distinct := id
  known := hknown
  used := fun i hle hlt => absurd hlt (Nat.not_lt.2 hle)
  le := Nat.le_add_right n k
  slots := by rw [Nat.add_sub_cancel_left]

end Uses

/-! ## Compiled conditions -/

/-- A fragment as a text with placeholders. -/
def written (f : Fragment) : List Char := (f.render placeholder).toList

@[simp] theorem written_append (f g : Fragment) : written (f ++ g) = written f ++ written g := by
  rw [written, Fragment.render_append, String.toList_append, written, written]

@[simp] theorem written_text (s : String) : written (Fragment.text s) = s.toList := by
  rw [written, Fragment.render_text]

@[simp] theorem written_slot (i : Nat) : written (Fragment.slot i) = (placeholder i).toList := by
  rw [written, Fragment.render_slot]

/-- Fragments with a separator between them mention what they mention. -/
theorem mentions_join (separator : String) (hs : Unmarked separator.toList) (ha : Apart separator.toList)
    (hne : separator.toList ≠ []) (fs : List Fragment) :
    Mentions (written (Fragment.join separator fs)) ((fs.map written).flatMap (marked '#'))
      ((fs.map written).flatMap (marked ':')) := by
  cases fs with
  | nil => exact ⟨rfl, rfl⟩
  | cons f fs =>
    rw [written, Fragment.render_join]
    exact Mentions.joined hs ha hne (written f) (fs.map written)

/-- What steps of compiling take into the tables from bindings on to others is what texts mention. -/
def Takes (b b' : Bindings (List String)) (texts : List (List Char)) : Prop :=
  Uses b.table b'.table b.params.length b'.params.length (texts.flatMap (marked '#')) (texts.flatMap (marked ':'))

/-- A step that says something of the field with an alias: its text mentions no other alias, and the placeholders of the operands
that it binds. -/
def Tests (step : Compile (List String) Fragment) (a : String) : Prop :=
  ∀ b f b', step.Yields b f b' → ∃ k as, b'.table = b.table ∧ b'.params.length = b.params.length + k ∧ a ∈ as ∧
    (∀ x ∈ as, x = a) ∧ Mentions (written f) as ((List.range' b.params.length k).map placeholder)

/-- A step comes to one result. -/
theorem yields_unique {α : Type} {step : Compile (List String) α} {b b' b'' : Bindings (List String)} {x y : α}
    (h : step.Yields b x b') (h' : step.Yields b y b'') : x = y ∧ b' = b'' := by
  have heq := h.symm.trans h'
  exact ⟨Except.ok.inj (Prod.mk.inj heq).1, (Prod.mk.inj heq).2⟩

/-- What comes of one step after another. -/
theorem of_yields_bind {α β : Type} {step : Compile (List String) α} {next : α → Compile (List String) β}
    {b b'' : Bindings (List String)} {y : β} (h : (step >>= next).Yields b y b'') :
    ∃ x b', step.Yields b x b' ∧ (next x).Yields b' y b'' := by
  unfold Compile.Yields at h ⊢
  rw [ExceptT.run_bind, StateT.run_bind] at h
  rcases hstep : step.run.run b with ⟨_ | x, b'⟩
  · rw [hstep] at h
    cases h
  · rw [hstep] at h
    exact ⟨x, b', rfl, h⟩

/-- What comes of a step whose outcome is known. -/
theorem Tests.of_yields {step : Compile (List String) Fragment} {a : String} {f : Bindings (List String) → Fragment}
    (operands : List Operand) (h : ∀ b, step.Yields b (f b) ⟨b.table, b.params ++ operands⟩)
    (hmentions : ∀ b, ∃ as, a ∈ as ∧ (∀ x ∈ as, x = a) ∧
      Mentions (written (f b)) as ((List.range' b.params.length operands.length).map placeholder)) : Tests step a := by
  intro b g b' hg
  obtain ⟨rfl, rfl⟩ := yields_unique (h b) hg
  obtain ⟨as, hmem, hall, htext⟩ := hmentions b
  exact ⟨operands.length, as, rfl, List.length_append, hmem, hall, htext⟩

section

variable (i : Nat)

/-- A sign between an alias and a placeholder. -/
theorem mentions_compare (op : Comparison) (slot : Nat) :
    Mentions (written (Fragment.text (aliasName i ++ " " ++ dialect.symbol op ++ " ") ++ Fragment.slot slot)) [aliasName i]
      [placeholder slot] := by
  have hsign : Unmarked (' ' :: ((dialect.symbol op).toList ++ [' '])) := by cases op <;> decide
  have htext := ((Mentions.aliasName i).before _ hsign (apart_cons rfl)).append (.placeholder slot) (apart_placeholder slot)
  simpa [String.toList_append] using htext

/-- A function of an alias and a placeholder. -/
theorem mentions_call (t : TextTest) (slot : Nat) :
    Mentions (written (Dialect.Reading.callFragment (dialect.function t) (aliasName i) slot)) [aliasName i] [placeholder slot] := by
  have hname : Unmarked ((dialect.function t).toList ++ ['(']) := by cases t <;> decide
  have hargument := ((Mentions.aliasName i).before [',', ' '] (by decide) (apart_cons rfl)).append (.placeholder slot)
    (apart_placeholder slot)
  have htext := Mentions.after _ hname (hargument.before [')'] (by decide) (apart_cons rfl))
  simpa [Dialect.Reading.callFragment, String.toList_append] using htext

/-- Fragments for several slots mention what each of them does. -/
theorem flatMap_marked {mark : Char} {fragment : Nat → Fragment} {word : Nat → String}
    (h : ∀ slot, marked mark (written (fragment slot)) = [word slot]) (slots : List Nat) :
    ((slots.map fragment).map written).flatMap (marked mark) = slots.map word := by
  rw [List.map_map, List.flatMap_map, List.map_eq_flatMap]
  simp only [Function.comp_apply, h]

/-- Several functions of an alias, each with a placeholder, are alternatives in parentheses. -/
theorem mentions_calls (t : TextTest) (slots : List Nat) :
    Mentions (written (Fragment.text "(" ++
        Fragment.join " OR " (slots.map (Dialect.Reading.callFragment (dialect.function t) (aliasName i))) ++ Fragment.text ")"))
      (slots.map fun _ => aliasName i) (slots.map placeholder) := by
  have hcalls := mentions_join " OR " (by decide) (apart_cons rfl) (by decide)
    (slots.map (Dialect.Reading.callFragment (dialect.function t) (aliasName i)))
  rw [flatMap_marked fun slot => (mentions_call i t slot).aliases, flatMap_marked fun slot => (mentions_call i t slot).slots]
    at hcalls
  have htext := Mentions.after ['('] (by decide) (hcalls.before [')'] (by decide) (apart_cons rfl))
  simpa using htext

/-- An alias before a list of placeholders. -/
theorem mentions_member (slots : List Nat) :
    Mentions (written (Fragment.text (aliasName i ++ " IN (") ++ Fragment.join ", " (slots.map Fragment.slot) ++ Fragment.text ")"))
      [aliasName i] (slots.map placeholder) := by
  have hslots := mentions_join ", " (by decide) (apart_cons rfl) (by decide) (slots.map Fragment.slot)
  have haliases : ((slots.map Fragment.slot).map written).flatMap (marked '#') = [] := by
    rw [List.map_map, List.flatMap_map, List.flatMap_eq_nil_iff]
    intro slot _
    rw [Function.comp_apply, written_slot, (Mentions.placeholder slot).aliases]
  have hplaceholders : ((slots.map Fragment.slot).map written).flatMap (marked ':') = slots.map placeholder :=
    flatMap_marked (fun slot => (congrArg (marked ':') (written_slot slot)).trans (Mentions.placeholder slot).slots) slots
  rw [haliases, hplaceholders] at hslots
  have htext := (Mentions.aliasName i).append
    (Mentions.after " IN (".toList (by decide) (hslots.before [')'] (by decide) (apart_cons rfl)))
    (apart_cons rfl)
  simpa [String.toList_append] using htext

/-- An alias before two placeholders. -/
theorem mentions_between (low high : Nat) :
    Mentions (written (Fragment.text (aliasName i ++ " BETWEEN ") ++ Fragment.slot low ++ Fragment.text " AND " ++
        Fragment.slot high)) [aliasName i] [placeholder low, placeholder high] := by
  have hlow := ((Mentions.aliasName i).before " BETWEEN ".toList (by decide) (apart_cons rfl)).append
    (.placeholder low) (apart_placeholder low)
  have htext := (hlow.before " AND ".toList (by decide) (apart_cons rfl)).append (.placeholder high)
    (apart_placeholder high)
  simpa [String.toList_append] using htext

end

/-! ## Steps of compiling -/

/-- A comparison of a field. -/
theorem compare_tests (i : Nat) (op : Comparison) (v : Operand) :
    Tests (do
      let slot ← Compile.bindOperand v
      return Fragment.text (aliasName i ++ " " ++ dialect.symbol op ++ " ") ++ Fragment.slot slot) (aliasName i) :=
  Tests.of_yields [v] (fun b => (Compile.bindOperand_yields v b).map _) fun b =>
    ⟨_, List.mem_singleton_self _, fun _ => List.eq_of_mem_singleton, mentions_compare i op b.params.length⟩

/-- A text test of a field. -/
theorem textTest_tests (i : Nat) (t : TextTest) (part : String) (mode : Mode) :
    Tests (Compile.textTest dialect t (aliasName i) part mode) (aliasName i) := by
  cases mode with
  | sensitive =>
    exact Tests.of_yields [.text part] (Dialect.Reading.call_yields _ _ part) fun b =>
      ⟨_, List.mem_singleton_self _, fun _ => List.eq_of_mem_singleton, mentions_call i t b.params.length⟩
  | insensitive =>
    obtain ⟨q, qs, hq⟩ := List.exists_cons_of_ne_nil (Folding.parts_ne_nil .casings .insensitive part)
    have hcasings : Compile.casings part = q :: qs := hq
    have hcalls := Compile.mapM_yields _ _ (Dialect.Reading.call_yields (σ := List String) (dialect.function t) (aliasName i))
      (q :: qs)
    simp only [Compile.textTest, show dialect.lower? (aliasName i) = none from rfl, hcasings]
    cases qs with
    | nil =>
      exact Tests.of_yields [.text q] (fun b => (hcalls b).bind (.pure _ _)) fun b =>
        ⟨_, List.mem_singleton_self _, fun _ => List.eq_of_mem_singleton, mentions_call i t b.params.length⟩
    | cons q' qs =>
      intro b f b' hf
      obtain ⟨calls, b₁, hb, hrest⟩ := of_yields_bind hf
      obtain ⟨rfl, rfl⟩ := yields_unique (hcalls b) hb
      have htext := mentions_calls i t (List.range' b.params.length (q :: q' :: qs).length)
      have hmem : aliasName i ∈ (List.range' b.params.length (q :: q' :: qs).length).map fun _ => aliasName i := List.mem_cons_self
      generalize hslots : List.range' b.params.length (q :: q' :: qs).length = slots at hrest htext hmem
      obtain ⟨rfl, rfl⟩ : f = Fragment.text "(" ++ Fragment.join " OR "
          (slots.map (Dialect.Reading.callFragment (dialect.function t) (aliasName i))) ++ Fragment.text ")" ∧
            b' = ⟨b.table, b.params ++ (q :: q' :: qs).map .text⟩ := by
        subst hslots
        exact (yields_unique (.pure _ _) hrest).imp Eq.symm Eq.symm
      refine ⟨(q :: q' :: qs).length, _, rfl, by rw [List.length_append, List.length_map], hmem, ?_, hslots ▸ htext⟩
      intro x hx
      obtain ⟨_, -, rfl⟩ := List.mem_map.1 hx
      rfl

/-- A membership test of a field. -/
theorem membership_tests (i : Nat) (field : String) (values : List Operand) :
    Tests (Compile.membership dialect field (aliasName i) values) (aliasName i) := by
  by_cases hne : values = []
  · intro b f b' hf
    rw [hne] at hf
    cases hf
  by_cases hmax : values.length ≤ maxInList
  · have hslots := Compile.mapM_yields id id (Compile.bindOperand_yields (σ := List String)) values
    rw [Compile.membership_eq hne (by rintro m ⟨⟩; exact hmax)]
    refine Tests.of_yields values (fun b => ?_) fun b =>
      ⟨_, List.mem_singleton_self _, fun _ => List.eq_of_mem_singleton, mentions_member i _⟩
    have hyields := (hslots b).map fun slots => Fragment.text (aliasName i ++ " IN (") ++
      Fragment.join ", " (slots.map Fragment.slot) ++ Fragment.text ")"
    rwa [List.map_id, List.map_id] at hyields
  · intro b f b' hf
    have hempty : values.isEmpty = false := by simpa using hne
    simp only [Compile.membership, hempty, show dialect.maxInList? = some maxInList from rfl, if_pos (Nat.not_le.1 hmax)] at hf
    cases hf

/-- A negated step. -/
theorem Tests.negated {step : Compile (List String) Fragment} {a : String} (h : Tests step a) :
    Tests (do return Fragment.text "NOT (" ++ (← step) ++ Fragment.text ")") a := by
  intro b f b' hf
  obtain ⟨g, b₁, hg, hrest⟩ := of_yields_bind hf
  obtain ⟨rfl, rfl⟩ := yields_unique (.pure _ b₁) hrest
  obtain ⟨k, as, htable, hparams, hmem, hall, htext⟩ := h b g b₁ hg
  refine ⟨k, as, htable, hparams, hmem, hall, ?_⟩
  have hnot := Mentions.after "NOT (".toList (by decide) (htext.before [')'] (by decide) (apart_cons rfl))
  simpa using hnot

/-- A step about a field after the field has been referred to. -/
theorem Takes.reference {step : String → Compile (List String) Fragment} (h : ∀ i, Tests (step (aliasName i)) (aliasName i))
    {field : String} {b b' : Bindings (List String)} {f : Fragment}
    (hf : (Compile.reference dialect field >>= step).Yields b f b') : Takes b b' [written f] := by
  obtain ⟨a, b₁, ha, hrest⟩ := of_yields_bind hf
  obtain ⟨rfl, rfl⟩ := yields_unique (Compile.reference_yields dialect field b) ha
  have huse := Uses.reference b.table field b.params.length
  obtain ⟨i, hi, heq⟩ := huse.known _ (List.mem_singleton_self _)
  have hstep := h i
  rw [← heq] at hstep
  obtain ⟨k, as, htable, hparams, hmem, hall, htext⟩ := hstep _ f b' hrest
  have hbound : Uses (aliasFor b.table field).2 (aliasFor b.table field).2 b.params.length (b.params.length + k) as
      ((List.range' b.params.length k).map placeholder) := .bound fun x hx => ⟨i, hi, (hall x hx).trans heq⟩
  have htakes := huse.absorb hbound fun x hx => List.eq_of_mem_singleton hx ▸ hmem
  rw [List.nil_append, ← htext.aliases, ← htext.slots] at htakes
  rw [Takes, htable, hparams, List.flatMap_singleton, List.flatMap_singleton]
  exact htakes

/-- A condition of a field. -/
theorem condition_takes {field : String} {mode : Mode} {c : Condition} {b b' : Bindings (List String)} {f : Fragment}
    (h : (Compile.condition dialect field mode c).Yields b f b') : Takes b b' [written f] := by
  cases c with
  | compare op v => exact Takes.reference (fun i => compare_tests i op v) h
  | text t part => exact Takes.reference (fun i => textTest_tests i t part mode) h
  | member negated values =>
    cases negated with
    | false => exact Takes.reference (fun i => membership_tests i field values) h
    | true => exact Takes.reference (fun i => (membership_tests i field values).negated) h

namespace Takes

variable {b b' b'' : Bindings (List String)} {texts more : List (List Char)}

theorem nil (b : Bindings (List String)) : Takes b b [] := Uses.refl b.table b.params.length

/-- One step after another. -/
theorem append (h : Takes b b' texts) (h' : Takes b' b'' more) : Takes b b'' (texts ++ more) := by
  have huses := Uses.append h h'
  rwa [← List.flatMap_append, ← List.flatMap_append] at huses

/-- One text that mentions what several do. -/
theorem merge (h : Takes b b' texts) {text : List Char}
    (htext : Mentions text (texts.flatMap (marked '#')) (texts.flatMap (marked ':'))) : Takes b b' [text] := by
  rw [Takes, List.flatMap_singleton, List.flatMap_singleton, htext.aliases, htext.slots]
  exact h

/-- A step for each of several items. -/
theorem mapM {α β : Type} {step : α → Compile (List String) β} (texts : β → List (List Char))
    (h : ∀ x {b y b'}, (step x).Yields b y b' → Takes b b' (texts y)) {xs : List α} {ys : List β}
    (hys : Compile.Yields (xs.mapM step) b ys b') : Takes b b' (ys.flatMap texts) := by
  induction xs generalizing b ys with
  | nil =>
    rw [List.mapM_nil] at hys
    obtain ⟨rfl, rfl⟩ := yields_unique (.pure [] b) hys
    exact nil b
  | cons x xs ih =>
    rw [List.mapM_cons] at hys
    obtain ⟨y, b₁, hy, hrest⟩ := of_yields_bind hys
    obtain ⟨zs, b₂, hzs, hrest⟩ := of_yields_bind hrest
    obtain ⟨rfl, rfl⟩ := yields_unique (.pure _ b₂) hrest
    rw [List.flatMap_cons]
    exact (h x hy).append (ih hzs)

end Takes

/-- The conditions of a field. -/
theorem field_takes {name : String} {filter : FieldFilter} {b b' : Bindings (List String)} {fs : List Fragment}
    (h : (Compile.field dialect name filter).Yields b fs b') : Takes b b' (fs.map written) := by
  rw [List.map_eq_flatMap]
  exact Takes.mapM (fun f => [written f]) (fun _ _ _ _ hf => condition_takes hf) h

/-- The filter of a request. -/
theorem filter_takes {w : Where} {b b' : Bindings (List String)} {o : Option Fragment}
    (h : (Compile.filter dialect w).Yields b o b') : Takes b b' (o.toList.map written) := by
  obtain ⟨u, b₁, hvalid, hrest⟩ := of_yields_bind h
  obtain ⟨predicates, b₂, hpredicates, hlast⟩ := of_yields_bind hrest
  have hstart : b = b₁ := by
    cases hw : w.validate with
    | error e => rw [hw] at hvalid; cases hvalid
    | ok u => rw [hw] at hvalid; cases hvalid; rfl
  subst hstart
  have hall := Takes.mapM (fun fs => fs.map written) (fun _ _ _ _ hfs => field_takes hfs) hpredicates
  rw [List.flatMap_def, ← List.map_flatten] at hall
  generalize predicates.flatten = fs at hall hlast
  cases fs with
  | nil =>
    obtain ⟨rfl, rfl⟩ := yields_unique (.pure none b₂) hlast
    exact hall
  | cons f fs =>
    obtain ⟨rfl, rfl⟩ := yields_unique (.pure (some (Fragment.join " AND " (f :: fs))) b₂) hlast
    exact hall.merge (mentions_join " AND " (by decide) (apart_cons rfl) (by decide) (f :: fs))

/-- A condition on a key. -/
theorem compileKey_takes {field : String} {c : KeyCondition} {b b' : Bindings (List String)} {f : Fragment}
    (h : (compileKey field c).Yields b f b') : Takes b b' [written f] := by
  cases c with
  | single c => exact condition_takes h
  | between low high =>
    refine Takes.reference (fun i => Tests.of_yields [low, high] (fun b => ?_) fun b =>
      ⟨_, List.mem_singleton_self _, fun _ => List.eq_of_mem_singleton, mentions_between i b.params.length (b.params.length + 1)⟩) h
    have hparams : b.params ++ [low, high] = b.params ++ [low] ++ [high] := List.append_cons _ _ _
    have hlength : (b.params ++ [low]).length = b.params.length + 1 := List.length_append
    have hhigh := (Compile.bindOperand_yields high ⟨b.table, b.params ++ [low]⟩).map fun slot =>
      Fragment.text (aliasName i ++ " BETWEEN ") ++ Fragment.slot b.params.length ++ Fragment.text " AND " ++ Fragment.slot slot
    rw [hparams, ← hlength]
    exact (Compile.bindOperand_yields low b).bind hhigh

/-! ## Lists with commas -/

/-- A separator between texts is one before each of them but the first. -/
theorem intercalate_cons {α : Type} (separator xs : List α) (xss : List (List α)) :
    separator.intercalate (xs :: xss) = xs ++ xss.flatMap (separator ++ ·) := by
  induction xss generalizing xs with
  | nil => rw [List.intercalate_singleton, List.flatMap_nil, List.append_nil]
  | cons ys xss ih => rw [List.intercalate_cons_cons, ih, List.flatMap_cons, List.append_assoc, List.append_assoc]

/-- Texts with commas between them mention what they mention. -/
theorem mentions_commas (texts : List String) :
    Mentions (String.intercalate ", " texts).toList ((texts.map String.toList).flatMap (marked '#'))
      ((texts.map String.toList).flatMap (marked ':')) := by
  rw [String.toList_intercalate]
  cases texts with
  | nil => exact ⟨rfl, rfl⟩
  | cons s texts =>
    rw [List.map_cons, intercalate_cons]
    exact Mentions.joined (by decide) (apart_cons rfl) (by decide) s.toList (texts.map String.toList)

/-- The aliases of several fields. -/
theorem aliasesFor_uses (fields names : List String) (n : Nat) :
    Uses names (aliasesFor names fields).2 n n (((aliasesFor names fields).1.map String.toList).flatMap (marked '#'))
      (((aliasesFor names fields).1.map String.toList).flatMap (marked ':')) := by
  induction fields generalizing names with
  | nil => exact .refl names n
  | cons field rest ih =>
    have halias := Uses.reference names field n
    obtain ⟨i, -, heq⟩ := halias.known _ (List.mem_singleton_self _)
    have hmentions := Mentions.aliasName i
    rw [← heq] at hmentions
    have huses := halias.append (ih (aliasFor names field).2)
    rw [← hmentions.aliases, ← hmentions.slots] at huses
    exact huses

/-- A projection. -/
theorem projection_uses (select : Select) (names : List String) (n : Nat) :
    Uses names (projection names select).2 n n (((projection names select).1.toList.map String.toList).flatMap (marked '#'))
      (((projection names select).1.toList.map String.toList).flatMap (marked ':')) := by
  rw [projection]
  cases select.selected? with
  | none => exact .refl names n
  | some fields =>
    have huses := aliasesFor_uses fields names n
    have hmentions := mentions_commas (aliasesFor names fields).1
    rw [← hmentions.aliases, ← hmentions.slots] at huses
    simpa using huses

/-- The texts that there are of a read. -/
def Texts.all (texts : Texts) : List String := texts.projection.toList ++ texts.keyCondition :: texts.filter.toList

/-- The texts of a read. -/
theorem compileTexts_takes {select : Select} {keys : List (String × KeyCondition)} {remaining : Where}
    {b b' : Bindings (List String)} {texts : Texts} (h : (compileTexts select keys remaining).Yields b texts b') :
    Takes b b' (texts.all.map String.toList) := by
  obtain ⟨projected, b₁, hprojected, hrest⟩ := of_yields_bind h
  obtain ⟨fragments, b₂, hfragments, hrest⟩ := of_yields_bind hrest
  obtain ⟨filter, b₃, hfilter, hlast⟩ := of_yields_bind hrest
  obtain ⟨rfl, rfl⟩ := yields_unique (.pure _ b₃) hlast
  obtain ⟨rfl, rfl⟩ := yields_unique (compileProjection_yields select b) hprojected
  have hprojection : Takes b ⟨(projection b.table select).2, b.params⟩ ((projection b.table select).1.toList.map String.toList) :=
    projection_uses select b.table b.params.length
  have hkeys := Takes.mapM (fun f => [written f]) (fun _ _ _ _ hf => compileKey_takes hf) hfragments
  rw [← List.map_eq_flatMap] at hkeys
  have hcondition := hkeys.merge (mentions_join " AND " (by decide) (apart_cons rfl) (by decide) fragments)
  have hall := hprojection.append (hcondition.append (filter_takes hfilter))
  have htexts : (filter.map (Bindings.render dialect)).toList.map String.toList = filter.toList.map written := by
    cases filter <;> rfl
  rw [Texts.all, List.map_append, List.map_cons, htexts]
  exact hall

/-! ## Tables of writes -/

/-- Assignments. -/
theorem assign_uses (tables : Tables) (changes : Document) :
    Uses tables.fields (assign tables changes).2.fields tables.attributes.length (assign tables changes).2.attributes.length
      (((assign tables changes).1.map String.toList).flatMap (marked '#'))
      (((assign tables changes).1.map String.toList).flatMap (marked ':')) := by
  induction changes generalizing tables with
  | nil => exact .refl tables.fields tables.attributes.length
  | cons e rest ih =>
    obtain ⟨field, value⟩ := e
    have halias := Uses.reference tables.fields field tables.attributes.length
    obtain ⟨i, -, heq⟩ := halias.known _ (List.mem_singleton_self _)
    have hslot : Uses (aliasFor tables.fields field).2 (aliasFor tables.fields field).2 tables.attributes.length
        (tables.attributes.length + 1) [] [placeholder tables.attributes.length] := .bound (List.forall_mem_nil _)
    have htext := ((Mentions.aliasName i).before " = ".toList (by decide) (apart_cons rfl)).append
      (.placeholder tables.attributes.length) (apart_placeholder _)
    rw [← heq, List.append_assoc] at htext
    have hrest := ih ((tables.refer field).2.bind (ofJson value)).2
    have hlength : ((tables.refer field).2.bind (ofJson value)).2.attributes.length = tables.attributes.length + 1 :=
      List.length_append
    rw [hlength] at hrest
    have huses := (halias.append hslot).append hrest
    rw [← htext.aliases, ← htext.slots] at huses
    have hwritten : ((aliasFor tables.fields field).1 ++ " = " ++ placeholder tables.attributes.length).toList =
        (aliasFor tables.fields field).1.toList ++ (" = ".toList ++ (placeholder tables.attributes.length).toList) := by
      rw [String.toList_append, String.toList_append, List.append_assoc]
    rw [← hwritten] at huses
    exact huses

/-- The condition of a write. -/
theorem existence_uses (t : Table) (tables : Tables) (policy : WritePolicy) {function : String}
    (h : Unmarked (function.toList ++ ['('])) :
    Uses tables.fields (existence t tables policy function).2.fields tables.attributes.length
      (existence t tables policy function).2.attributes.length
      (((existence t tables policy function).1.toList.map String.toList).flatMap (marked '#'))
      (((existence t tables policy function).1.toList.map String.toList).flatMap (marked ':')) := by
  cases policy with
  | unchecked => exact .refl tables.fields tables.attributes.length
  | existenceChecked =>
    have halias := Uses.reference tables.fields t.partitionKey tables.attributes.length
    obtain ⟨i, -, heq⟩ := halias.known _ (List.mem_singleton_self _)
    have htext := Mentions.after _ h ((Mentions.aliasName i).before [')'] (by decide) (apart_cons rfl))
    rw [← heq] at htext
    rw [← htext.aliases, ← htext.slots] at halias
    simpa [existence, Tables.refer, String.toList_append] using halias

end DocQuery.Dynamo
