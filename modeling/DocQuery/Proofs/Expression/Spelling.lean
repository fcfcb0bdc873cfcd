import DocQuery.Expression.Token

/-!
# Spelling tokens

A stretch of text spells a sequence of tokens if a text that begins with it has those tokens first and then the tokens of what
follows. Punctuation and blanks do so whatever follows; a name does so only where no further character of a name follows.
-/

namespace DocQuery.Expression

open DocQuery.Text (isAsciiDigit isAsciiLetter isLetter isLetterOrNumber isBlank)

/-- Characters that spell tokens, whatever follows them. -/
def Spells (cs : List Char) (ts : List Token) : Prop :=
  ∀ rest, tokenize (cs ++ rest) = (tokenize rest).map (ts ++ ·)

/-- A text that does not go on with a part of a name. -/
def Apart (rest : List Char) : Prop := ∀ c ∈ rest.head?, isNamePart c = false

/-- Characters that spell tokens where no further part of a name follows them. -/
def SpellsApart (cs : List Char) (ts : List Token) : Prop :=
  ∀ rest, Apart rest → tokenize (cs ++ rest) = (tokenize rest).map (ts ++ ·)

theorem apart_nil : Apart [] := by
  intro c hc
  simp at hc

theorem apart_cons {c : Char} {cs : List Char} (h : isNamePart c = false) : Apart (c :: cs) := by
  intro d hd
  simp only [List.head?_cons, Option.mem_def, Option.some.injEq] at hd
  exact hd ▸ h

/-- Only the first character decides whether a text is apart. -/
theorem Apart.append {cs : List Char} (h : Apart cs) (hne : cs ≠ []) (rest : List Char) : Apart (cs ++ rest) := by
  cases cs with
  | nil => exact absurd rfl hne
  | cons c cs => exact apart_cons (h c rfl)

theorem Apart.append_apart {cs rest : List Char} (h : Apart cs) (hr : Apart rest) : Apart (cs ++ rest) := by
  cases cs with
  | nil => exact hr
  | cons c cs => exact apart_cons (h c rfl)

/-- The tokens of a text by its first character. -/
theorem tokenize_cons (c : Char) (cs : List Char) :
    tokenize (c :: cs) =
      if isBlank c then tokenize cs else (lexeme c cs).bind fun p => (tokenize p.2).map (p.1 :: ·) := by
  rw [tokenize]
  split
  · rfl
  · split
    · next fault h => simp only [h, Except.bind]
    · next t rest h => simp only [h, Except.bind]

theorem map_append_append {ε α : Type} (r : Except ε (List α)) (ts us : List α) :
    (r.map (us ++ ·)).map (ts ++ ·) = r.map (ts ++ us ++ ·) := by
  cases r with
  | error e => rfl
  | ok vs => exact congrArg Except.ok (List.append_assoc ts us vs).symm

namespace Spells

theorem nil : Spells [] [] := by
  intro rest
  cases h : tokenize rest <;> simp [h, Except.map]

theorem append {as bs : List Char} {ts us : List Token} (ha : Spells as ts) (hb : Spells bs us) :
    Spells (as ++ bs) (ts ++ us) := by
  intro rest
  rw [List.append_assoc, ha, hb, map_append_append]

/-- What spells tokens whatever follows does so in particular where no name goes on. -/
theorem apart {cs : List Char} {ts : List Token} (h : Spells cs ts) : SpellsApart cs ts :=
  fun rest _ => h rest

theorem append_apart {as bs : List Char} {ts us : List Token} (ha : Spells as ts) (hb : SpellsApart bs us) :
    SpellsApart (as ++ bs) (ts ++ us) := by
  intro rest hr
  rw [List.append_assoc, ha, hb rest hr, map_append_append]

/-- A blank spells no token. -/
theorem blank {c : Char} (h : isBlank c = true) : Spells [c] [] := by
  intro rest
  rw [List.cons_append, List.nil_append, tokenize_cons, if_pos h]
  cases tokenize rest <;> rfl

/-- A token that is read up to a fixed place spells itself. -/
theorem of_lexeme {c : Char} {cs : List Char} {t : Token} (hb : isBlank c = false)
    (h : ∀ rest, lexeme c (cs ++ rest) = .ok (t, rest)) : Spells (c :: cs) [t] := by
  intro rest
  rw [List.cons_append, tokenize_cons, if_neg (by simp [hb]), h rest]
  rfl

/-- A token that a blank ends spells itself together with the blank. -/
theorem of_lexeme_blank {c : Char} {cs : List Char} {t : Token} (hb : isBlank c = false)
    (h : ∀ rest, lexeme c (cs ++ ' ' :: rest) = .ok (t, ' ' :: rest)) : Spells (c :: (cs ++ [' '])) [t] := by
  intro rest
  rw [List.cons_append, List.append_assoc, List.singleton_append, tokenize_cons, if_neg (by simp [hb]), h rest, Except.bind,
    tokenize_cons]
  rfl

/-- Punctuation spells itself. -/
theorem punctuation {c : Char} {t : Token} (hb : isBlank c = false) (h : punctuation? c = some t) : Spells [c] [t] := by
  refine of_lexeme hb fun rest => ?_
  rw [lexeme, h]
  rfl

theorem leftParen : Spells ['('] [.leftParen] := punctuation (by decide) rfl
theorem rightParen : Spells [')'] [.rightParen] := punctuation (by decide) rfl
theorem leftBracket : Spells ['['] [.leftBracket] := punctuation (by decide) rfl
theorem rightBracket : Spells [']'] [.rightBracket] := punctuation (by decide) rfl
theorem comma : Spells [','] [.comma] := punctuation (by decide) rfl
theorem dot : Spells ['.'] [.dot] := punctuation (by decide) rfl
theorem star : Spells ['*'] [.star] := punctuation (by decide) rfl
theorem space : Spells [' '] [] := blank (by decide)

/-- A token between blanks. -/
theorem between_blanks (s : String) (c : Char) (cs : List Char) {t : Token} (hs : s.toList = c :: cs)
    (hb : isBlank c = false) (h : ∀ rest, lexeme c (cs ++ ' ' :: rest) = .ok (t, ' ' :: rest)) :
    Spells (' ' :: (s.toList ++ [' '])) [t] := by
  rw [hs]
  exact space.append (of_lexeme_blank hb h)

end Spells

namespace SpellsApart

/-- Names can be followed by what is apart from them. -/
theorem append {as bs : List Char} {ts us : List Token} (ha : SpellsApart as ts) (hb : SpellsApart bs us)
    (hs : Apart bs) : SpellsApart (as ++ bs) (ts ++ us) := by
  intro rest hr
  rw [List.append_assoc, ha (bs ++ rest) (hs.append_apart hr), hb rest hr, map_append_append]

/-- A name followed by something that ends by itself ends by itself. -/
theorem append_spells {as cs : List Char} {c : Char} {ts us : List Token} (ha : SpellsApart as ts)
    (hb : Spells (c :: cs) us) (hc : isNamePart c = false) : Spells (as ++ c :: cs) (ts ++ us) := by
  intro rest
  rw [List.append_assoc, ha (c :: cs ++ rest) ((apart_cons hc).append (List.cons_ne_nil _ _) rest), hb rest,
    map_append_append]

/-- The tokens of a text that ends there. -/
theorem tokenize_eq {cs : List Char} {ts : List Token} (h : SpellsApart cs ts) : tokenize cs = .ok ts := by
  have := h [] apart_nil
  rw [List.append_nil, tokenize] at this
  rw [this]
  simp [Except.map]

end SpellsApart

/-! ## Names -/

theorem takeWhile_append_apart {cs rest : List Char} (h : ∀ c ∈ cs, isNamePart c = true) (hr : Apart rest) :
    (cs ++ rest).takeWhile isNamePart = cs := by
  rw [List.takeWhile_append_of_pos h]
  cases rest with
  | nil => simp
  | cons c rest => simp [hr c rfl]

theorem dropWhile_append_apart {cs rest : List Char} (h : ∀ c ∈ cs, isNamePart c = true) (hr : Apart rest) :
    (cs ++ rest).dropWhile isNamePart = rest := by
  rw [List.dropWhile_append_of_pos h]
  cases rest with
  | nil => rfl
  | cons c rest => simp [hr c rfl]

/-- A word of ASCII: a letter or an underscore first, then letters, digits and underscores. -/
def IsAsciiWord (cs : List Char) : Prop :=
  match cs with
  | [] => False
  | c :: rest =>
    (isAsciiLetter c || c == '_') = true ∧ ∀ d ∈ rest, (isAsciiLetter d || isAsciiDigit d || d == '_') = true

instance : (cs : List Char) → Decidable (IsAsciiWord cs)
  | [] => instDecidableFalse
  | _ :: rest =>
    @instDecidableAnd _ _ _ (List.decidableBAll (fun d => (isAsciiLetter d || isAsciiDigit d || d == '_') = true) rest)

theorem toNat_lt_of_isAsciiLetter {c : Char} (h : isAsciiLetter c = true) : c.toNat < 0x80 := by
  simp only [isAsciiLetter, Bool.or_eq_true, Bool.and_eq_true, decide_eq_true_eq] at h
  omega

theorem toNat_lt_of_isAsciiDigit {c : Char} (h : isAsciiDigit c = true) : c.toNat < 0x80 := by
  simp only [isAsciiDigit, Bool.and_eq_true, decide_eq_true_eq] at h
  omega

/-- A letter, digit or underscore of ASCII is a part of a name. -/
theorem isNamePart_of_ascii {c : Char} (h : (isAsciiLetter c || isAsciiDigit c || c == '_') = true) :
    isNamePart c = true := by
  simp only [Bool.or_eq_true, beq_iff_eq] at h
  rcases h with (h | h) | rfl
  · simp [isNamePart, isLetterOrNumber, toNat_lt_of_isAsciiLetter h, h]
  · simp [isNamePart, isLetterOrNumber, toNat_lt_of_isAsciiDigit h, h]
  · rfl

theorem IsAsciiWord.all {cs : List Char} (h : IsAsciiWord cs) : ∀ c ∈ cs, isNamePart c = true := by
  cases cs with
  | nil => exact absurd h id
  | cons c rest =>
    intro d hd
    rcases List.mem_cons.1 hd with rfl | hd
    · exact isNamePart_of_ascii (by have := h.1; grind)
    · exact isNamePart_of_ascii (h.2 d hd)

/-- A character of ASCII by its code point. -/
theorem eq_ofNat_of_lt {c : Char} (h : c.toNat < 0x80) : ∃ n < 0x80, c = Char.ofNat n :=
  ⟨c.toNat, h, (Char.ofNat_toNat c).symm⟩

/-- A character of ASCII that can begin a numeral or a word begins no other token. -/
theorem lexeme_eq {c : Char} (h : (isAsciiDigit c || c == '-' || (isAsciiLetter c || c == '_')) = true) (cs : List Char) :
    isBlank c = false ∧ lexeme c cs =
      if isAsciiDigit c || c == '-' then numeric c cs
      else .ok (.word (String.ofList (c :: cs.takeWhile isNamePart)), cs.dropWhile isNamePart) := by
  have hlt : c.toNat < 0x80 := by
    simp only [Bool.or_eq_true, beq_iff_eq] at h
    rcases h with (h | rfl) | h | rfl
    · exact toNat_lt_of_isAsciiDigit h
    · decide
    · exact toNat_lt_of_isAsciiLetter h
    · decide
  have hall : ∀ n < 0x80,
      (isAsciiDigit (Char.ofNat n) || Char.ofNat n == '-' || (isAsciiLetter (Char.ofNat n) || Char.ofNat n == '_')) = true →
      isBlank (Char.ofNat n) = false ∧ punctuation? (Char.ofNat n) = none ∧
        ¬(Char.ofNat n = '!' ∨ Char.ofNat n = '<' ∨ Char.ofNat n = '>') ∧ ¬(Char.ofNat n = '"' ∨ Char.ofNat n = '\'') ∧
        ¬(Char.ofNat n = '#' ∨ Char.ofNat n = ':' ∨ Char.ofNat n = '@') ∧
        ((isAsciiDigit (Char.ofNat n) || Char.ofNat n == '-') = false →
          (isLetter (Char.ofNat n) || Char.ofNat n == '_') = true) := by decide
  obtain ⟨n, hn, rfl⟩ := eq_ofNat_of_lt hlt
  obtain ⟨hb, hp, h1, h2, h3, h4⟩ := hall n hn h
  refine ⟨hb, ?_⟩
  rw [lexeme, hp]
  simp only [if_neg h1, if_neg h2, if_neg h3]
  cases hdigit : isAsciiDigit (Char.ofNat n) || Char.ofNat n == '-' with
  | true => rfl
  | false => rw [h4 hdigit]; rfl

/-- What begins a word of ASCII begins no other token. -/
theorem lexeme_word {c : Char} (h : (isAsciiLetter c || c == '_') = true) (cs : List Char) :
    isBlank c = false ∧
      lexeme c cs = .ok (.word (String.ofList (c :: cs.takeWhile isNamePart)), cs.dropWhile isNamePart) := by
  have hdigit : (isAsciiDigit c || c == '-') = false := by
    simp only [Bool.or_eq_true, beq_iff_eq] at h
    rcases h with h | rfl
    · have hdash : c ≠ '-' := by rintro rfl; cases h
      simp only [isAsciiLetter, Bool.or_eq_true, Bool.and_eq_true, decide_eq_true_eq] at h
      simp only [isAsciiDigit, beq_false_of_ne hdash, Bool.or_false, Bool.and_eq_false_iff, decide_eq_false_iff_not]
      omega
    · rfl
  obtain ⟨hblank, hlexeme⟩ := lexeme_eq (c := c) (by rw [h, Bool.or_true]) cs
  exact ⟨hblank, hlexeme.trans (by rw [hdigit]; rfl)⟩

/-- A word of ASCII spells itself. -/
theorem SpellsApart.ofWord {s : String} (h : IsAsciiWord s.toList) : SpellsApart s.toList [.word s] := by
  intro rest hr
  have hall := h.all
  cases hs : s.toList with
  | nil =>
    rw [hs] at h
    exact absurd h id
  | cons c cs =>
    rw [hs] at h hall
    have hcs : ∀ d ∈ cs, isNamePart d = true := fun d hd => hall d (List.mem_cons_of_mem c hd)
    obtain ⟨hb, hl⟩ := lexeme_word h.1 (cs ++ rest)
    rw [List.cons_append, tokenize_cons, if_neg (by simp [hb]), hl, takeWhile_append_apart hcs hr,
      dropWhile_append_apart hcs hr, ← hs, String.ofList_toList]
    rfl

/-- An alias spells itself. -/
theorem SpellsApart.ofAlias {cs : List Char} (h : ∀ c ∈ cs, isNamePart c = true) (hne : cs ≠ []) :
    SpellsApart ('#' :: cs) [.alias (String.ofList ('#' :: cs))] := by
  intro rest hr
  have hl : lexeme '#' (cs ++ rest) = .ok (.alias (String.ofList ('#' :: cs)), rest) := by
    show marked '#' (cs ++ rest) = _
    rw [marked, takeWhile_append_apart h hr, dropWhile_append_apart h hr]
    simp [hne]
  rw [List.cons_append, tokenize_cons, hl]
  rfl

/-- A placeholder spells itself. -/
theorem SpellsApart.ofPlaceholder {c : Char} {cs : List Char} (hc : c = ':' ∨ c = '@')
    (h : ∀ d ∈ cs, isNamePart d = true) (hne : cs ≠ []) :
    SpellsApart (c :: cs) [.placeholder (String.ofList (c :: cs))] := by
  intro rest hr
  have hl : lexeme c (cs ++ rest) = .ok (.placeholder (String.ofList (c :: cs)), rest) := by
    have hm : lexeme c (cs ++ rest) = marked c (cs ++ rest) := by rcases hc with rfl | rfl <;> rfl
    rw [hm, marked, takeWhile_append_apart h hr, dropWhile_append_apart h hr]
    rcases hc with rfl | rfl <;> simp [hne]
  have hb : isBlank c = false := by rcases hc with rfl | rfl <;> rfl
  rw [List.cons_append, tokenize_cons, if_neg (by simp [hb]), hl]
  rfl

end DocQuery.Expression
