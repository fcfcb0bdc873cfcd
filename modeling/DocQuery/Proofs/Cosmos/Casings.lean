import DocQuery.Proofs.Cosmos.FindMany
import DocQuery.Proofs.Text.Casing

/-!
# Text tests without regard to case

In SQL a text test that disregards case compares both texts in small letters. A stored array has no small letters, so an item of
it is found by the test that regards case only. And the small form of a text is not put together from the small forms of its
parts: a capital sigma at the end of a word is another letter in small. Main statement: `insensitive_keeps_matches_in_texts`,
which says what the test that disregards case keeps of what the other one finds.
-/

namespace DocQuery

namespace TextTest

/-- Whether a test finds a part in a text between these characters: nothing stands before it where its beginning is tested. -/
def Occurs (t : TextTest) (part s : String) (pre post : List Char) : Prop :=
  s.toList = pre ++ part.toList ++ post ∧ (t = .startsWith → pre = [])

/-- A text passes a test that regards case where it has an occurrence of the part. -/
theorem passes_str_iff {t : TextTest} {part s : String} : t.Passes part (.str s) ↔ ∃ pre post, t.Occurs part s pre post := by
  by_cases ht : t = .startsWith
  · simp only [Passes, Occurs, ht, forall_const]
    constructor
    · rintro ⟨post, hpost⟩
      exact ⟨[], post, hpost.symm, rfl⟩
    · rintro ⟨_, post, hs, rfl⟩
      exact ⟨post, hs.symm⟩
  · simp only [Passes, Occurs, ht, false_implies, and_true]
    exact exists₂_congr fun _ _ => eq_comm

/-- An occurrence whose sigmas keep their forms is one in small letters. -/
theorem Occurs.passes_lower {t : TextTest} {part s : String} {pre post : List Char} (h : t.Occurs part s pre post)
    (hsame : Text.SameSigmas pre part.toList post) : t.Passes (Text.lower part) (.str (Text.lower s)) := by
  obtain ⟨hs, hpre⟩ := h
  simp only [Passes, Text.lower, String.toList_ofList, hs]
  split
  · next ht =>
    obtain rfl := hpre ht
    exact hsame.prefix
  · exact hsame.infix

/-- Whether the sigmas of a part keep their forms wherever a test may find the part. -/
def Steady (t : TextTest) (part : String) : Prop :=
  Text.SteadyBehind part.toList ∧ (t ≠ .startsWith → Text.SteadyBefore part.toList)

instance (t : TextTest) (part : String) : Decidable (t.Steady part) :=
  inferInstanceAs (Decidable (_ ∧ (t ≠ .startsWith → Text.SteadyBefore part.toList)))

/-- A part without a capital sigma is steady. -/
theorem steady_of_not_mem {part : String} (h : Text.capitalSigma ∉ part.toList) (t : TextTest) : t.Steady part :=
  ⟨Text.forallSigmas_of_not_mem h _, fun _ => Text.forallSigmas_of_not_mem h _⟩

/-- The sigmas of a steady part keep their forms in every occurrence. -/
theorem Steady.same {t : TextTest} {part s : String} (h : t.Steady part) {pre post : List Char}
    (hoccurs : t.Occurs part s pre post) : Text.SameSigmas pre part.toList post := by
  by_cases ht : t = .startsWith
  · rw [hoccurs.2 ht]
    exact h.1.same post
  · exact (h.2 ht).same h.1 pre post

/-- A steady part is kept in small letters by every text that has it, and only a steady one is. -/
theorem steady_iff {t : TextTest} {part : String} :
    t.Steady part ↔ ∀ s, t.Passes part (.str s) → t.Passes (Text.lower part) (.str (Text.lower s)) := by
  constructor
  · intro h s hs
    obtain ⟨pre, post, hoccurs⟩ := passes_str_iff.1 hs
    exact hoccurs.passes_lower (h.same hoccurs)
  · intro h
    refine ⟨?_, fun ht => ?_⟩
    · by_contra hsteady
      have hoccurs : t.Occurs part (String.ofList (part.toList ++ ['A'])) [] ['A'] := ⟨String.toList_ofList, fun _ => rfl⟩
      have hpasses := h _ (passes_str_iff.2 ⟨_, _, hoccurs⟩)
      simp only [Passes, Text.lower, String.toList_ofList] at hpasses
      refine Text.not_infix_append hsteady ?_
      split at hpasses
      · exact hpasses.isInfix
      · exact hpasses
    · by_contra hsteady
      have hoccurs : t.Occurs part (String.ofList (['A'] ++ part.toList)) ['A'] [] :=
        ⟨by rw [String.toList_ofList, List.append_nil], fun hstarts => absurd hstarts ht⟩
      have hpasses := h _ (passes_str_iff.2 ⟨_, _, hoccurs⟩)
      simp only [Passes, Text.lower, String.toList_ofList, if_neg ht] at hpasses
      exact Text.not_infix_cons hsteady hpasses

end TextTest

namespace Cosmos

variable {field part : String} {t : TextTest} {select : Select} {order : Order} {d : Document}

/-- What a text test finds: documents whose field, as its name is read, passes the test. -/
theorem finds_text_iff {mode : Mode} : Finds ((Condition.text t part).on field mode) select order d ↔
    field ≠ "" ∧ ∃ s, Fields.get? d (seenName field) = some s ∧ t.PassesIn .small mode part s :=
  finds_on_iff Condition.valid_text_iff

/-- What a text test finds in a stored text. -/
theorem finds_text_str_iff {s : String} (hs : Fields.get? d (seenName field) = some (.str s)) {mode : Mode} :
    Finds ((Condition.text t part).on field mode) select order d ↔ field ≠ "" ∧ t.PassesIn .small mode part (.str s) := by
  rw [finds_text_iff, hs]
  simp only [Option.some.injEq, exists_eq_left']

/-- A text test that disregards case is met by a text that meets it in small letters. -/
theorem passesIn_insensitive_str {s : String} :
    t.PassesIn .small .insensitive part (.str s) ↔ t.Passes (Text.lower part) (.str (Text.lower s)) := by
  simp only [TextTest.PassesIn, TextTest.PassesFolded, Json.str.injEq, exists_eq_left']

/-- Of what a text test finds with regard to case, the same test without regard to case finds every stored text that has an
occurrence of the part in which the capital sigmas of the part have the same small forms as in the part alone. So it loses no
stored text, whatever it is, exactly if the part is steady: casing meets no letter before a sigma that only ignored characters
follow, and, unless the beginning is tested, it meets a letter behind a sigma that only ignored characters precede. Where no text
is stored it finds nothing, while the test that regards case finds the arrays that have the part as an item. -/
theorem insensitive_keeps_matches_in_texts (field : String) (t : TextTest) (part : String) (select : Select) (order : Order) :
    (∀ (d : Document) (s : String) (pre post : List Char), Fields.get? d (seenName field) = some (.str s) →
      t.Occurs part s pre post → Text.SameSigmas pre part.toList post →
      Finds ((Condition.text t part).on field .sensitive) select order d →
      Finds ((Condition.text t part).on field .insensitive) select order d) ∧
    (field ≠ "" → (t.Steady part ↔
      ∀ (d : Document) (s : String), Fields.get? d (seenName field) = some (.str s) →
        Finds ((Condition.text t part).on field .sensitive) select order d →
        Finds ((Condition.text t part).on field .insensitive) select order d)) ∧
    ∀ d : Document, (∀ s, Fields.get? d (seenName field) ≠ some (.str s)) →
      ¬Finds ((Condition.text t part).on field .insensitive) select order d ∧
      (Finds ((Condition.text t part).on field .sensitive) select order d ↔
        field ≠ "" ∧ t ≠ .startsWith ∧
          ∃ items, Fields.get? d (seenName field) = some (.arr items) ∧ Json.str part ∈ items) := by
  refine ⟨fun d s pre post hs hoccurs hsame hfinds => ?_, fun hfield => ?_, fun d hd => ⟨fun hfinds => ?_, ?_⟩⟩
  · rw [finds_text_str_iff hs] at hfinds ⊢
    exact ⟨hfinds.1, passesIn_insensitive_str.2 (hoccurs.passes_lower hsame)⟩
  · rw [TextTest.steady_iff]
    constructor
    · intro h d s hs hfinds
      rw [finds_text_str_iff hs] at hfinds ⊢
      exact ⟨hfinds.1, passesIn_insensitive_str.2 (h s hfinds.2)⟩
    · intro h s hpasses
      have hs : Fields.get? [(seenName field, Json.str s)] (seenName field) = some (.str s) := by simp [Fields.get?]
      have hfinds := h _ s hs ((finds_text_str_iff hs).2 ⟨hfield, hpasses⟩)
      exact passesIn_insensitive_str.1 ((finds_text_str_iff hs).1 hfinds).2
  · obtain ⟨-, s, hs, text, rfl, -⟩ := finds_text_iff.1 hfinds
    exact hd text hs
  · rw [finds_text_iff]
    refine and_congr_right fun _ => ?_
    cases hstored : Fields.get? d (seenName field) with
    | none => simp
    | some stored =>
      cases stored with
      | str s => exact absurd hstored (hd s)
      | _ => simp [TextTest.PassesIn, TextTest.Passes]

/-- A part without a sigma inside a word, and one whose sigma ends a word in the text as it does alone. -/
theorem insensitive_keeps_matches_in_words :
    Finds ((Condition.text .contains "Straße").on "street" .insensitive) Select.all Keyed.empty
      [("street", .str "Ringstraße, Straße 7")] ∧
    Finds ((Condition.text .startsWith "ΟΔΟΣ").on "street" .insensitive) Select.all Keyed.empty
      [("street", .str "ΟΔΟΣ 7")] := by
  constructor
  · have hsteady : TextTest.contains.Steady "Straße" := TextTest.steady_of_not_mem (by decide) _
    refine ((insensitive_keeps_matches_in_texts "street" .contains "Straße" _ _).2.1 (by decide)).1 hsteady _ _ rfl ?_
    exact finds_text_iff.2 (by decide +kernel)
  · refine (insensitive_keeps_matches_in_texts "street" .startsWith "ΟΔΟΣ" _ _).1 _ _ [] " 7".toList rfl
      ⟨by decide, fun _ => rfl⟩ (by decide +kernel) ?_
    exact finds_text_iff.2 (by decide +kernel)

/-- The test that disregards case loses an item of an array, and a text in which a sigma of the part does not end a word. -/
theorem insensitive_loses_matches :
    (Finds ((Condition.text .contains "a").on "tags" .sensitive) Select.all Keyed.empty [("tags", .arr [.str "a"])] ∧
      ¬Finds ((Condition.text .contains "a").on "tags" .insensitive) Select.all Keyed.empty [("tags", .arr [.str "a"])]) ∧
    Finds ((Condition.text .startsWith "ΟΔΟΣ").on "street" .sensitive) Select.all Keyed.empty [("street", .str "ΟΔΟΣΑ")] ∧
    ¬Finds ((Condition.text .startsWith "ΟΔΟΣ").on "street" .insensitive) Select.all Keyed.empty
      [("street", .str "ΟΔΟΣΑ")] := by
  simp only [finds_text_iff]
  decide +kernel

end Cosmos

end DocQuery
