import DocQuery.Proofs.Expression.Grammar
import DocQuery.Proofs.Expression.Spelling
import Mathlib.Data.List.Forall2

/-!
# Texts of terms and formulas

A text is a term or a formula if it spells tokens in which the grammar writes it. The laws follow the ways in which expressions
are put together from texts, so that nobody who builds a text has to look at its tokens.
-/

namespace DocQuery.Expression

open DocQuery.Text (equalIgnoringCase)

variable {names : Names}

/-- Characters that are a term. -/
def TermText (names : Names) (cs : List Char) (t : Term) : Prop := ∃ ts, SpellsApart cs ts ∧ TermWritten names ts t

/-- Characters that are a formula at a level. -/
def FormulaText (names : Names) (level : Level) (cs : List Char) (f : Formula) : Prop :=
  ∃ ts, SpellsApart cs ts ∧ Written names level ts f

/-- Characters that are terms with commas between them, up to the closing parenthesis. -/
def TermsText (names : Names) (cs : List Char) (list : List Term) : Prop := ∃ ts, Spells cs ts ∧ TermsWritten names ts list

/-! ## Small pieces -/

/-- A keyword between blanks. -/
theorem Spells.keyword {k : String} (h : IsAsciiWord k.toList) : Spells (' ' :: (k.toList ++ [' '])) [.word k] :=
  Spells.space.append ((SpellsApart.ofWord h).append_spells Spells.space rfl)

/-- A comma and a blank. -/
theorem Spells.commaSpace : Spells [',', ' '] [.comma] := Spells.comma.append Spells.space

/-- A text in small letters by its characters. -/
theorem lowerAscii_of_map {s t : String} (h : s.toList.map Text.asciiLower = t.toList) : Text.lowerAscii s = t := by
  rw [Text.lowerAscii, h, String.ofList_toList]

/-- The test for a part by its name. -/
theorem ofName?_contains {s : String} (h : s.toList.map Text.asciiLower = "contains".toList) :
    Function.ofName? s = some .contains := by
  simp [Function.ofName?, lowerAscii_of_map h]

/-- The test for a beginning by its name. -/
theorem ofName?_beginsWith {s : String}
    (h : s.toList.map Text.asciiLower = "begins_with".toList ∨ s.toList.map Text.asciiLower = "startswith".toList) :
    Function.ofName? s = some .beginsWith := by
  rcases h with h | h <;> simp [Function.ofName?, lowerAscii_of_map h]

/-- A name right before an opening parenthesis. -/
theorem Spells.opening {s : String} (h : IsAsciiWord s.toList) :
    Spells (s.toList ++ ['(']) [.word s, .leftParen] :=
  (SpellsApart.ofWord h).append_spells Spells.leftParen rfl

/-! ## Terms -/

/-- A placeholder is a term. -/
theorem TermText.placeholder {c : Char} {cs : List Char} (hc : c = ':' ∨ c = '@')
    (h : ∀ d ∈ cs, isNamePart d = true) (hne : cs ≠ []) :
    TermText names (c :: cs) (.param (String.ofList (c :: cs))) :=
  ⟨_, SpellsApart.ofPlaceholder hc h hne, .placeholder _⟩

/-- An alias is the attribute that the table gives it. -/
theorem TermText.named {cs : List Char} {field : String} (h : ∀ c ∈ cs, isNamePart c = true) (hne : cs ≠ [])
    (hn : names.bind (·.get? (String.ofList ('#' :: cs))) = some field) : TermText names ('#' :: cs) (.path field) :=
  ⟨_, SpellsApart.ofAlias h hne, .named hn⟩

/-- A term in the function for small letters. -/
theorem TermText.lower {cs : List Char} {t : Term} (h : TermText names cs t) :
    TermText names ("LOWER(".toList ++ (cs ++ [')'])) (.lower t) := by
  obtain ⟨ts, hs, hw⟩ := h
  have hclose := hs.append_spells Spells.rightParen rfl
  exact ⟨_, ((Spells.opening (s := "LOWER") (by decide)).append hclose).apart, .lower (by decide) hw⟩

/-- The last term before the closing parenthesis. -/
theorem TermsText.last {cs : List Char} {t : Term} (h : TermText names cs t) : TermsText names (cs ++ [')']) [t] := by
  obtain ⟨ts, hs, hw⟩ := h
  exact ⟨_, hs.append_spells Spells.rightParen rfl, .last hw⟩

/-- A term before others. -/
theorem TermsText.cons {cs ds : List Char} {t : Term} {list : List Term} (h : TermText names cs t)
    (hs : TermsText names ds list) : TermsText names (cs ++ ([',', ' '] ++ ds)) (t :: list) := by
  obtain ⟨ts, hs₁, hw₁⟩ := h
  obtain ⟨us, hs₂, hw₂⟩ := hs
  exact ⟨_, hs₁.append_spells (Spells.commaSpace.append hs₂) rfl, .cons hw₁ hw₂⟩

/-- Terms with commas between them. -/
theorem TermsText.ofList {cs : List Char} {t : Term} {css : List (List Char)} {list : List Term} (h : TermText names cs t)
    (hs : List.Forall₂ (TermText names) css list) :
    TermsText names (cs ++ (css.flatMap ([',', ' '] ++ ·) ++ [')'])) (t :: list) := by
  induction hs generalizing cs t with
  | nil => exact .last h
  | cons h' _ ih =>
    rw [List.flatMap_cons, List.append_assoc, List.append_assoc]
    exact .cons h (ih h')

/-! ## Formulas -/

/-- A comparison, with the relation between blanks. -/
theorem FormulaText.compare {cs ds sign : List Char} {left right : Term} {r : Relation} (hl : TermText names cs left)
    (hr : TermText names ds right) (hs : Spells sign [.relation r]) (ha : Apart sign) (hne : sign ≠ []) :
    FormulaText names .factor (cs ++ (sign ++ ds)) (.compare left r right) := by
  obtain ⟨ts, hs₁, hw₁⟩ := hl
  obtain ⟨us, hs₂, hw₂⟩ := hr
  exact ⟨_, hs₁.append (hs.append_apart hs₂) (ha.append hne ds), .compare r hw₁ hw₂⟩

/-- A test by function. -/
theorem FormulaText.call {s : String} {f : Function} {cs : List Char} {args : List Term} (h : IsAsciiWord s.toList)
    (hf : Function.ofName? s = some f) (ha : TermsText names cs args) :
    FormulaText names .factor (s.toList ++ ('(' :: cs)) (.call f args) := by
  obtain ⟨ts, hs, hw⟩ := ha
  have hspells := ((Spells.opening h).append hs).apart
  rw [List.append_assoc] at hspells
  exact ⟨_, hspells, .call hf hw⟩

/-- A membership. -/
theorem FormulaText.member {cs ds : List Char} {t : Term} {list : List Term} (h : TermText names cs t)
    (hl : TermsText names ds list) : FormulaText names .factor (cs ++ (" IN (".toList ++ ds)) (.member t list) := by
  obtain ⟨ts, hs₁, hw₁⟩ := h
  obtain ⟨us, hs₂, hw₂⟩ := hl
  have hopen := (Spells.keyword (k := "IN") (by decide)).append Spells.leftParen
  exact ⟨_, (hs₁.append_spells (hopen.append hs₂) rfl).apart,
    .member (by decide) hw₁ hw₂⟩

/-- A range. -/
theorem FormulaText.between {cs ds es : List Char} {t low high : Term} (h : TermText names cs t)
    (hl : TermText names ds low) (hh : TermText names es high) :
    FormulaText names .factor (cs ++ (" BETWEEN ".toList ++ (ds ++ (" AND ".toList ++ es)))) (.between t low high) := by
  obtain ⟨ts, hs₁, hw₁⟩ := h
  obtain ⟨us, hs₂, hw₂⟩ := hl
  obtain ⟨vs, hs₃, hw₃⟩ := hh
  have hand := (Spells.keyword (k := "AND") (by decide)).append_apart hs₃
  have hrange := hs₂.append hand (apart_cons rfl)
  have hbetween := (Spells.keyword (k := "BETWEEN") (by decide)).append_apart hrange
  exact ⟨_, hs₁.append hbetween (apart_cons rfl), .between (by decide) (by decide) hw₁ hw₂ hw₃⟩

/-- A formula in parentheses. -/
theorem FormulaText.paren {cs : List Char} {f : Formula} (h : FormulaText names .disjunction cs f) :
    FormulaText names .factor ('(' :: (cs ++ [')'])) f := by
  obtain ⟨ts, hs, hw⟩ := h
  have hclose := hs.append_spells Spells.rightParen rfl
  exact ⟨_, (Spells.leftParen.append hclose).apart, .paren hw⟩

/-- A negation of a formula in parentheses. -/
theorem FormulaText.not {cs : List Char} {f : Formula} (h : FormulaText names .disjunction cs f) :
    FormulaText names .factor ("NOT (".toList ++ (cs ++ [')'])) (.not f) := by
  obtain ⟨ts, hs, hw⟩ := h.paren
  have hword := (SpellsApart.ofWord (s := "NOT") (by decide)).append_spells Spells.space rfl
  exact ⟨_, hword.append_apart hs, .not (by decide) hw⟩

theorem FormulaText.ofFactor {cs : List Char} {f : Formula} (h : FormulaText names .factor cs f) :
    FormulaText names .conjunction cs f :=
  h.imp fun _ h => ⟨h.1, .ofFactor h.2⟩

theorem FormulaText.ofConjunction {cs : List Char} {f : Formula} (h : FormulaText names .conjunction cs f) :
    FormulaText names .disjunction cs f :=
  h.imp fun _ h => ⟨h.1, .ofConjunction h.2⟩

/-- A factor is a formula. -/
theorem FormulaText.formula {cs : List Char} {f : Formula} (h : FormulaText names .factor cs f) :
    FormulaText names .disjunction cs f :=
  h.ofFactor.ofConjunction

/-- Factors with `AND` between them, grouped to the left. -/
theorem FormulaText.all {cs : List Char} {f : Formula} {css : List (List Char)} {fs : List Formula}
    (h : FormulaText names .conjunction cs f) (hs : List.Forall₂ (FormulaText names .factor) css fs) :
    FormulaText names .conjunction (cs ++ css.flatMap (" AND ".toList ++ ·)) (fs.foldl .and f) := by
  induction hs generalizing cs f with
  | nil => rw [List.flatMap_nil, List.append_nil]; exact h
  | cons h' _ ih =>
    obtain ⟨ts, hs₁, hw₁⟩ := h
    obtain ⟨us, hs₂, hw₂⟩ := h'
    have hnext := (Spells.keyword (k := "AND") (by decide)).append_apart hs₂
    rw [List.flatMap_cons, ← List.append_assoc]
    exact ih ⟨_, hs₁.append hnext (apart_cons rfl), .and (by decide) hw₁ hw₂⟩

/-- Factors with `OR` between them, grouped to the left. -/
theorem FormulaText.any {cs : List Char} {f : Formula} {css : List (List Char)} {fs : List Formula}
    (h : FormulaText names .disjunction cs f) (hs : List.Forall₂ (FormulaText names .factor) css fs) :
    FormulaText names .disjunction (cs ++ css.flatMap (" OR ".toList ++ ·)) (fs.foldl .or f) := by
  induction hs generalizing cs f with
  | nil => rw [List.flatMap_nil, List.append_nil]; exact h
  | cons h' _ ih =>
    obtain ⟨ts, hs₁, hw₁⟩ := h
    obtain ⟨us, hs₂, hw₂⟩ := h'
    have hnext := (Spells.keyword (k := "OR") (by decide)).append_apart hs₂
    rw [List.flatMap_cons, ← List.append_assoc]
    exact ih ⟨_, hs₁.append hnext (apart_cons rfl), .or (by decide) hw₁ (.ofFactor hw₂)⟩

/-- A text that is a formula is parsed as it. -/
theorem FormulaText.parse {s : String} {f : Formula} (h : FormulaText names .disjunction s.toList f) :
    parseFormula s names = .ok f := by
  obtain ⟨ts, hs, hw⟩ := h
  exact parseFormula_of_written hs.tokenize_eq hw

end DocQuery.Expression
