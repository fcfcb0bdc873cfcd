import DocQuery.Expression.Parser
import Mathlib.Tactic

/-!
# The grammar of expressions

How terms and formulas are written as tokens, with the precedence of the connectives as levels. Main statement: what the grammar
writes is read back (`Written.reads`), whatever follows that could not be a part of it.
-/

namespace DocQuery.Expression

open DocQuery.Text (equalIgnoringCase)

variable {names : Names}

/-- Tokens that cannot turn a word before them into something else. -/
def AfterTerm (rest : List Token) : Prop := ∀ t ∈ rest.head?, t ≠ .leftParen ∧ t ≠ .dot ∧ t ≠ .leftBracket

/-- How a term is written. -/
inductive TermWritten (names : Names) : List Token → Term → Prop where
  | named {s field : String} (h : names.bind (·.get? s) = some field) : TermWritten names [.alias s] (.path field)
  | placeholder (s : String) : TermWritten names [.placeholder s] (.param s)
  | text (s : String) : TermWritten names [.text s] (.literal (.text s))
  | number (n : Number) : TermWritten names [.number n] (.literal (.number n))
  | word {s : String} (h : equalIgnoringCase s "NOT" = false) : TermWritten names [.word s] (wordTerm s)
  | property {c : String} (h : equalIgnoringCase c "NOT" = false) (field : String) :
      TermWritten names [.word c, .dot, .word field] (.path field)
  | quoted {c : String} (h : equalIgnoringCase c "NOT" = false) (field : String) :
      TermWritten names [.word c, .leftBracket, .text field, .rightBracket] (.path field)
  | lower {s : String} {ts : List Token} {t : Term} (h : equalIgnoringCase s "LOWER" = true) :
      TermWritten names ts t → TermWritten names (.word s :: .leftParen :: (ts ++ [.rightParen])) (.lower t)

/-- How terms are written with commas between them, up to the closing parenthesis. -/
inductive TermsWritten (names : Names) : List Token → List Term → Prop where
  | last {ts : List Token} {t : Term} : TermWritten names ts t → TermsWritten names (ts ++ [.rightParen]) [t]
  | cons {ts us : List Token} {t : Term} {more : List Term} :
      TermWritten names ts t → TermsWritten names us more → TermsWritten names (ts ++ .comma :: us) (t :: more)

/-- How tightly the parts of a formula hold together. -/
inductive Level where
  | factor | conjunction | disjunction

/-- How a formula is written at a level. -/
inductive Written (names : Names) : Level → List Token → Formula → Prop where
  | compare {ts us : List Token} {left right : Term} (r : Relation) :
      TermWritten names ts left → TermWritten names us right →
      Written names .factor (ts ++ .relation r :: us) (.compare left r right)
  | member {k : String} {ts us : List Token} {t : Term} {list : List Term} (h : equalIgnoringCase k "IN" = true) :
      TermWritten names ts t → TermsWritten names us list →
      Written names .factor (ts ++ .word k :: .leftParen :: us) (.member t list)
  | between {k k' : String} {ts us vs : List Token} {t low high : Term} (h : equalIgnoringCase k "BETWEEN" = true)
      (h' : equalIgnoringCase k' "AND" = true) :
      TermWritten names ts t → TermWritten names us low → TermWritten names vs high →
      Written names .factor (ts ++ .word k :: (us ++ .word k' :: vs)) (.between t low high)
  | call {s : String} {f : Function} {ts : List Token} {args : List Term} (h : Function.ofName? s = some f) :
      TermsWritten names ts args → Written names .factor (.word s :: .leftParen :: ts) (.call f args)
  | paren {ts : List Token} {f : Formula} :
      Written names .disjunction ts f → Written names .factor (.leftParen :: (ts ++ [.rightParen])) f
  | not {k : String} {ts : List Token} {f : Formula} (h : equalIgnoringCase k "NOT" = true) :
      Written names .factor ts f → Written names .factor (.word k :: ts) (.not f)
  | ofFactor {ts : List Token} {f : Formula} : Written names .factor ts f → Written names .conjunction ts f
  | and {k : String} {ts us : List Token} {f g : Formula} (h : equalIgnoringCase k "AND" = true) :
      Written names .conjunction ts f → Written names .factor us g →
      Written names .conjunction (ts ++ .word k :: us) (.and f g)
  | ofConjunction {ts : List Token} {f : Formula} :
      Written names .conjunction ts f → Written names .disjunction ts f
  | or {k : String} {ts us : List Token} {f g : Formula} (h : equalIgnoringCase k "OR" = true) :
      Written names .disjunction ts f → Written names .conjunction us g →
      Written names .disjunction (ts ++ .word k :: us) (.or f g)

/-! ## Terms -/

theorem afterTerm_nil : AfterTerm [] := by
  intro t ht
  simp at ht

theorem afterTerm_cons {t : Token} {ts : List Token} (h : t ≠ .leftParen ∧ t ≠ .dot ∧ t ≠ .leftBracket) :
    AfterTerm (t :: ts) := by
  intro u hu
  simp only [List.head?_cons, Option.mem_def, Option.some.injEq] at hu
  exact hu ▸ h

theorem afterTerm_word (s : String) (ts : List Token) : AfterTerm (.word s :: ts) := afterTerm_cons (by simp)

theorem expect_self (t : Token) (rest : List Token) : expect t (t :: rest) = .ok rest := by
  rw [expect, if_pos rfl]

theorem keyword?_word {keyword s : String} (h : equalIgnoringCase s keyword = true) (rest : List Token) :
    keyword? keyword (.word s :: rest) = some rest := by
  rw [keyword?, if_pos h]

/-- A written term is read back. -/
theorem TermWritten.reads {ts : List Token} {t : Term} (h : TermWritten names ts t) :
    ∀ rest, AfterTerm rest → readTerm names (ts ++ rest) = .ok (t, rest) := by
  induction h with
  | named h =>
    intro rest _
    simp only [List.cons_append, List.nil_append, readTerm, h]
  | placeholder s => intro rest _; rw [List.cons_append, List.nil_append, readTerm]
  | text s => intro rest _; rw [List.cons_append, List.nil_append, readTerm]
  | number n => intro rest _; rw [List.cons_append, List.nil_append, readTerm]
  | word h =>
    intro rest hr
    cases rest with
    | nil => rw [List.append_nil, readTerm] <;> simp
    | cons u rest =>
      obtain ⟨h₁, h₂, h₃⟩ := hr u rfl
      rw [List.cons_append, List.nil_append, readTerm] <;> simp_all
  | property h field => intro rest _; simp only [List.cons_append, List.nil_append, readTerm]
  | quoted h field =>
    intro rest _
    simp only [List.cons_append, List.nil_append, readTerm, expect_self]
    rfl
  | lower h _ ih =>
    intro rest _
    simp only [List.cons_append, List.append_assoc, List.nil_append, readTerm, if_pos h]
    rw [ih (.rightParen :: rest) (afterTerm_cons (by simp))]
    simp only [bind, Except.bind, expect_self]

/-- What is written has at least one token. -/
theorem TermWritten.length_pos {ts : List Token} {t : Term} (h : TermWritten names ts t) : 0 < ts.length := by
  cases h <;> simp

/-- Written terms are read back up to the closing parenthesis. -/
theorem TermsWritten.reads {ts : List Token} {list : List Term} (h : TermsWritten names ts list) :
    ∀ fuel rest, ts.length ≤ fuel → readTerms names fuel (ts ++ rest) = .ok (list, rest) := by
  induction h with
  | @last ts t ht =>
    intro fuel rest hf
    rw [List.length_append, List.length_singleton] at hf
    obtain ⟨n, rfl⟩ := Nat.exists_eq_add_of_le' (Nat.le_trans (Nat.le_add_left 1 _) hf)
    rw [List.append_assoc, List.singleton_append, readTerms, ht.reads _ (afterTerm_cons (by simp))]
    simp only [bind, Except.bind, expect_self]
  | @cons ts us t more ht _ ih =>
    intro fuel rest hf
    rw [List.length_append, List.length_cons] at hf
    obtain ⟨n, rfl⟩ := Nat.exists_eq_add_of_le' (show 1 ≤ fuel by omega)
    rw [List.append_assoc, List.cons_append, readTerms, ht.reads _ (afterTerm_cons (by simp))]
    simp only [bind, Except.bind]
    rw [ih n rest (by omega)]

/-! ## Formulas -/

/-- What reading at a level makes of tokens that a formula is written in. A loop over connectives comes to its next round with
the formula read so far; every token pays for the rounds and calls it takes. -/
def Reads (names : Names) : Level → List Token → Formula → Prop
  | .factor, ts, f => ∀ fuel rest, 4 * ts.length ≤ fuel → AfterTerm rest →
      readNegation names fuel (ts ++ rest) = .ok (f, rest)
  | .conjunction, ts, f => ∀ n rest, 4 * ts.length ≤ n → AfterTerm rest →
      ∃ m, n ≤ m + ts.length ∧ readConjunction names (n + 1) (ts ++ rest) = readFactors names m f rest
  | .disjunction, ts, f => ∀ n rest, 4 * ts.length + 2 ≤ n → AfterTerm rest → keyword? "AND" rest = none →
      ∃ m, n ≤ m + ts.length ∧ readFormula names (n + 1) (ts ++ rest) = readAlternatives names m f rest

theorem lowerAscii_eq {s t : String} (h : equalIgnoringCase s t = true) : Text.lowerAscii s = Text.lowerAscii t :=
  congrArg String.ofList (beq_iff_eq.1 h)

/-- A word that is not a negation does not begin one. -/
theorem keyword?_not_word {s : String} (h : equalIgnoringCase s "NOT" = false) (rest : List Token) :
    keyword? "NOT" (.word s :: rest) = none := by
  rw [keyword?, if_neg (by simp [h])]

/-- A name that is a function's in no case is no function's. -/
theorem ofName?_eq_none {s t : String} (h : equalIgnoringCase s t = true)
    (ht : Text.lowerAscii t ∉ ["begins_with", "startswith", "contains", "endswith", "attribute_exists", "is_defined",
      "attribute_not_exists"]) : Function.ofName? s = none := by
  rw [Function.ofName?, lowerAscii_eq h]
  simp_all

/-- A word for small letters is no negation. -/
theorem not_of_lower {s : String} (h : equalIgnoringCase s "LOWER" = true) : equalIgnoringCase s "NOT" = false := by
  have hl := beq_iff_eq.1 h
  rw [equalIgnoringCase, hl]
  decide

/-- A term does not begin like a negation, a formula in parentheses or a function. -/
theorem TermWritten.readNegation_eq {ts : List Token} {t : Term} (h : TermWritten names ts t) (fuel : Nat)
    {rest : List Token} (hr : AfterTerm rest) :
    readNegation names (fuel + 2) (ts ++ rest) = readTest names fuel (ts ++ rest) := by
  cases h with
  | named h => rw [List.cons_append, readNegation, keyword?, readPrimary] <;> simp
  | placeholder s => rw [List.cons_append, readNegation, keyword?, readPrimary] <;> simp
  | text s => rw [List.cons_append, readNegation, keyword?, readPrimary] <;> simp
  | number n => rw [List.cons_append, readNegation, keyword?, readPrimary] <;> simp
  | word h =>
    rw [List.cons_append, List.nil_append, readNegation, keyword?_not_word h]
    cases rest with
    | nil => rw [readPrimary] <;> simp
    | cons u rest =>
      have hu := (hr u rfl).1
      rw [readPrimary] <;> simp_all
  | property h field =>
    rw [List.cons_append, readNegation, keyword?_not_word h, readPrimary] <;> simp
  | quoted h field =>
    rw [List.cons_append, readNegation, keyword?_not_word h, readPrimary] <;> simp
  | lower h _ =>
    rw [List.cons_append, readNegation, keyword?_not_word (not_of_lower h), List.cons_append]
    simp only [readPrimary, ofName?_eq_none h (by decide)]

/-- A test on terms is a factor where `readTest` reads it. -/
theorem reads_factor_of_test {ts us : List Token} {t : Term} {f : Formula} (h : TermWritten names ts t)
    (ha : ∀ rest, AfterTerm (us ++ rest))
    (hf : ∀ fuel rest, us.length ≤ fuel → AfterTerm rest → readTest names fuel (ts ++ (us ++ rest)) = .ok (f, rest)) :
    Reads names .factor (ts ++ us) f := by
  intro fuel rest hfuel hr
  have := h.length_pos
  rw [List.length_append] at hfuel
  obtain ⟨n, rfl⟩ := Nat.exists_eq_add_of_le' (show 2 ≤ fuel by omega)
  rw [List.append_assoc, h.readNegation_eq n (ha rest), hf n rest (by omega) hr]

theorem keyword?_relation (keyword : String) (r : Relation) (rest : List Token) :
    keyword? keyword (.relation r :: rest) = none := rfl

/-- A comparison is read back. -/
theorem reads_compare {ts us : List Token} {left right : Term} (r : Relation) (hl : TermWritten names ts left)
    (hr : TermWritten names us right) : Reads names .factor (ts ++ .relation r :: us) (.compare left r right) := by
  refine reads_factor_of_test hl (fun rest => afterTerm_cons (by simp)) fun fuel rest _ ha => ?_
  rw [List.cons_append, readTest, hl.reads _ (afterTerm_cons (by simp))]
  simp only [bind, Except.bind, keyword?_relation]
  rw [hr.reads rest ha]

/-- A word that is one keyword is no other one. -/
theorem keyword?_other {k a b : String} (h : equalIgnoringCase k a = true)
    (hab : a.toList.map Text.asciiLower ≠ b.toList.map Text.asciiLower) (rest : List Token) :
    keyword? b (.word k :: rest) = none := by
  have hk : equalIgnoringCase k b = false := by
    rw [equalIgnoringCase, beq_iff_eq.1 h]
    exact beq_false_of_ne hab
  rw [keyword?, hk]
  rfl

/-- A membership is read back. -/
theorem reads_member {k : String} {ts us : List Token} {t : Term} {list : List Term}
    (h : equalIgnoringCase k "IN" = true) (ht : TermWritten names ts t) (hl : TermsWritten names us list) :
    Reads names .factor (ts ++ .word k :: .leftParen :: us) (.member t list) := by
  refine reads_factor_of_test ht (fun rest => afterTerm_word k _) fun fuel rest hf _ => ?_
  rw [List.length_cons, List.length_cons] at hf
  rw [List.cons_append, readTest, ht.reads _ (afterTerm_word k _)]
  simp only [bind, Except.bind, List.cons_append, keyword?_word h, expect_self]
  rw [hl.reads fuel rest (by omega)]

/-- A range is read back. -/
theorem reads_between {k k' : String} {ts us vs : List Token} {t low high : Term}
    (h : equalIgnoringCase k "BETWEEN" = true) (h' : equalIgnoringCase k' "AND" = true) (ht : TermWritten names ts t)
    (hl : TermWritten names us low) (hh : TermWritten names vs high) :
    Reads names .factor (ts ++ .word k :: (us ++ .word k' :: vs)) (.between t low high) := by
  refine reads_factor_of_test ht (fun rest => afterTerm_word k _) fun fuel rest _ ha => ?_
  rw [List.cons_append, readTest, ht.reads _ (afterTerm_word k _)]
  simp only [bind, Except.bind, List.cons_append, List.append_assoc, keyword?_other h (b := "IN") (by decide),
    keyword?_word h]
  rw [hl.reads _ (afterTerm_word k' _)]
  simp only [expectKeyword, keyword?_word h']
  rw [hh.reads rest ha]

/-- A test by function is read back. -/
theorem reads_call {s : String} {f : Function} {ts : List Token} {args : List Term} (h : Function.ofName? s = some f)
    (hn : equalIgnoringCase s "NOT" = false) (ha : TermsWritten names ts args) :
    Reads names .factor (.word s :: .leftParen :: ts) (.call f args) := by
  intro fuel rest hf _
  rw [List.length_cons, List.length_cons] at hf
  obtain ⟨n, rfl⟩ := Nat.exists_eq_add_of_le' (show 2 ≤ fuel by omega)
  rw [List.cons_append, readNegation, keyword?_not_word hn, List.cons_append]
  simp only [readPrimary, h, bind, Except.bind]
  rw [ha.reads n rest (by omega)]

/-- A formula in parentheses is read back. -/
theorem Reads.paren {ts : List Token} {f : Formula} (h : Reads names .disjunction ts f) :
    Reads names .factor (.leftParen :: (ts ++ [.rightParen])) f := by
  intro fuel rest hf _
  rw [List.length_cons, List.length_append, List.length_singleton] at hf
  obtain ⟨n, rfl⟩ := Nat.exists_eq_add_of_le' (show 3 ≤ fuel by omega)
  obtain ⟨m, hm, hr⟩ := h n (.rightParen :: rest) (by omega) (afterTerm_cons (by simp)) rfl
  obtain ⟨m, rfl⟩ := Nat.exists_eq_add_of_le' (show 1 ≤ m by omega)
  rw [List.cons_append, List.append_assoc, List.singleton_append, readNegation, keyword?]
  · simp only [readPrimary, hr, readAlternatives, keyword?, bind, Except.bind, expect_self]
  · simp

/-- A negation is read back. -/
theorem Reads.not {k : String} {ts : List Token} {f : Formula} (h : equalIgnoringCase k "NOT" = true)
    (hf : Reads names .factor ts f) : Reads names .factor (.word k :: ts) (.not f) := by
  intro fuel rest hfuel hr
  rw [List.length_cons] at hfuel
  obtain ⟨n, rfl⟩ := Nat.exists_eq_add_of_le' (show 1 ≤ fuel by omega)
  rw [List.cons_append, readNegation]
  simp only [keyword?_word h, hf n rest (by omega) hr, bind, Except.bind]

/-- A single factor is read as a conjunction up to its first `AND`. -/
theorem Reads.ofFactor {ts : List Token} {f : Formula} (h : Reads names .factor ts f) :
    Reads names .conjunction ts f := by
  intro n rest hn hr
  refine ⟨n, by omega, ?_⟩
  rw [readConjunction, h n rest hn hr]
  rfl

/-- One more factor after `AND`. -/
theorem Reads.and {k : String} {ts us : List Token} {f g : Formula} (h : equalIgnoringCase k "AND" = true)
    (hf : Reads names .conjunction ts f) (hg : Reads names .factor us g) :
    Reads names .conjunction (ts ++ .word k :: us) (.and f g) := by
  intro n rest hn hr
  rw [List.length_append, List.length_cons] at hn
  obtain ⟨m, hm, hread⟩ := hf n (.word k :: us ++ rest) (by omega) (afterTerm_word k _)
  obtain ⟨m, rfl⟩ := Nat.exists_eq_add_of_le' (show 1 ≤ m by omega)
  refine ⟨m, by rw [List.length_append, List.length_cons]; omega, ?_⟩
  rw [List.append_assoc, hread, List.cons_append, readFactors]
  simp only [keyword?_word h, hg m rest (by omega) hr, bind, Except.bind]

/-- A single conjunction is read as a formula up to its first `OR`. -/
theorem Reads.ofConjunction {ts : List Token} {f : Formula} (h : Reads names .conjunction ts f) :
    Reads names .disjunction ts f := by
  intro n rest hn hr hand
  obtain ⟨n, rfl⟩ := Nat.exists_eq_add_of_le' (show 1 ≤ n by omega)
  obtain ⟨m, hm, hread⟩ := h n rest (by omega) hr
  obtain ⟨m, rfl⟩ := Nat.exists_eq_add_of_le' (show 1 ≤ m by omega)
  refine ⟨n + 1, by omega, ?_⟩
  rw [readFormula, hread, readFactors, hand]
  rfl

/-- One more conjunction after `OR`. -/
theorem Reads.or {k : String} {ts us : List Token} {f g : Formula} (h : equalIgnoringCase k "OR" = true)
    (hf : Reads names .disjunction ts f) (hg : Reads names .conjunction us g) :
    Reads names .disjunction (ts ++ .word k :: us) (.or f g) := by
  intro n rest hn hr hand
  rw [List.length_append, List.length_cons] at hn
  obtain ⟨m, hm, hread⟩ := hf n (.word k :: us ++ rest) (by omega) (afterTerm_word k _)
    (keyword?_other h (by decide) _)
  obtain ⟨m, rfl⟩ := Nat.exists_eq_add_of_le' (show 2 ≤ m by omega)
  obtain ⟨l, hl, hread'⟩ := hg m rest (by omega) hr
  obtain ⟨l, rfl⟩ := Nat.exists_eq_add_of_le' (show 1 ≤ l by omega)
  refine ⟨m + 1, by rw [List.length_append, List.length_cons]; omega, ?_⟩
  rw [List.append_assoc, hread, List.cons_append, readAlternatives]
  simp only [keyword?_word h, hread', readFactors, hand, bind, Except.bind]

theorem Function.not_of_ofName? {s : String} {f : Function} (h : Function.ofName? s = some f) :
    equalIgnoringCase s "NOT" = false := by
  cases hn : equalIgnoringCase s "NOT" with
  | false => rfl
  | true =>
    rw [ofName?_eq_none hn (by decide)] at h
    cases h

/-- What the grammar writes is read back. -/
theorem Written.reads {level : Level} {ts : List Token} {f : Formula} (h : Written names level ts f) :
    Reads names level ts f := by
  induction h with
  | compare r hl hr => exact reads_compare r hl hr
  | member h ht hl => exact reads_member h ht hl
  | between h h' ht hl hh => exact reads_between h h' ht hl hh
  | call h ha => exact reads_call h (Function.not_of_ofName? h) ha
  | paren _ ih => exact ih.paren
  | not h _ ih => exact ih.not h
  | ofFactor _ ih => exact ih.ofFactor
  | and h _ _ ihf ihg => exact ihf.and h ihg
  | ofConjunction _ ih => exact ih.ofConjunction
  | or h _ _ ihf ihg => exact ihf.or h ihg

/-- A written formula is read back where no connective follows. -/
theorem Written.readFormula {ts : List Token} {f : Formula} (h : Written names .disjunction ts f) {fuel : Nat}
    {rest : List Token} (hfuel : 4 * ts.length + 3 ≤ fuel) (hr : AfterTerm rest) (hand : keyword? "AND" rest = none)
    (hor : keyword? "OR" rest = none) : Expression.readFormula names fuel (ts ++ rest) = .ok (f, rest) := by
  obtain ⟨n, rfl⟩ := Nat.exists_eq_add_of_le' (show 1 ≤ fuel by omega)
  obtain ⟨m, hm, hread⟩ := h.reads n rest (by omega) hr hand
  obtain ⟨m, rfl⟩ := Nat.exists_eq_add_of_le' (show 1 ≤ m by omega)
  rw [hread, readAlternatives, hor]

/-- The text of a written formula is that formula. -/
theorem parseFormula_of_written {s : String} {ts : List Token} {f : Formula} (hs : tokenize s.toList = .ok ts)
    (h : Written names .disjunction ts f) : parseFormula s names = .ok f := by
  have henough : 4 * ts.length + 3 ≤ enough ts := by
    rw [enough]
    omega
  have hread := h.readFormula henough afterTerm_nil rfl rfl
  rw [List.append_nil] at hread
  rw [parseFormula, tokens, hs]
  simp only [bind, Except.bind, Except.mapError, hread, expectEnd]

end DocQuery.Expression
