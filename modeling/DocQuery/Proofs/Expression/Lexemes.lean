import DocQuery.Proofs.Decimal.Digits
import DocQuery.Proofs.Expression.Texts
import Mathlib.Data.List.TakeWhile

/-!
# Lexemes

A lexeme is a stretch of text that is one token where a blank follows it, or nothing: a word in any case, an alias, a placeholder, a
sign, an integer, or a text between quotes. Main statement: a text of lexemes with blanks between them has their tokens
(`Spaced.tokenize_eq`).
-/

namespace DocQuery.Expression

open DocQuery.Text (asciiLower equalIgnoringCase isAsciiDigit isAsciiLetter isBlank)

/-! ## Blanks -/

/-- A blank is neither a part of a name nor one of a numeral. -/
theorem parts_of_isBlank {c : Char} (h : isBlank c = true) : isNamePart c = false ∧ isNumeralPart c = false := by
  have hall : ∀ n ∈ Text.blankRanges.flatMap fun range => List.range' range.1 (range.2 + 1 - range.1),
      isNamePart (Char.ofNat n) = false ∧ isNumeralPart (Char.ofNat n) = false := by decide +kernel
  rw [isBlank, Text.inRanges, List.any_eq_true] at h
  obtain ⟨range, hrange, hmem⟩ := h
  rw [Bool.and_eq_true, decide_eq_true_eq, decide_eq_true_eq] at hmem
  have hc := hall c.toNat (List.mem_flatMap.2 ⟨range, hrange, List.mem_range'_1.2 (by omega)⟩)
  rwa [Char.ofNat_toNat] at hc

/-- A text that goes on with a blank, if at all. -/
def Parted (rest : List Char) : Prop := ∀ c ∈ rest.head?, isBlank c = true

theorem parted_nil : Parted [] := by
  intro c hc
  cases hc

theorem Parted.apart {rest : List Char} (h : Parted rest) : Apart rest := fun c hc => (parts_of_isBlank (h c hc)).1

/-- Blanks before a text change nothing about its tokens. -/
theorem tokenize_blanks {gap : List Char} (h : ∀ c ∈ gap, isBlank c = true) (cs : List Char) :
    tokenize (gap ++ cs) = tokenize cs := by
  induction gap with
  | nil => rfl
  | cons c gap ih =>
    obtain ⟨hc, hgap⟩ := List.forall_mem_cons.1 h
    rw [List.cons_append, tokenize_cons, if_pos hc, ih hgap]

/-- Characters that are a token where a blank follows them, or nothing. -/
def IsLexeme (cs : List Char) (t : Token) : Prop :=
  ∀ rest, Parted rest → tokenize (cs ++ rest) = (tokenize rest).map (t :: ·)

theorem SpellsApart.lexeme {cs : List Char} {t : Token} (h : SpellsApart cs [t]) : IsLexeme cs t :=
  fun rest hr => h rest hr.apart

theorem Spells.lexeme {cs : List Char} {t : Token} (h : Spells cs [t]) : IsLexeme cs t := h.apart.lexeme

/-- What is read as a token by its first character is a lexeme. -/
theorem IsLexeme.of_lexeme {c : Char} {cs : List Char} {t : Token} (hb : isBlank c = false)
    (h : ∀ rest, Parted rest → lexeme c (cs ++ rest) = .ok (t, rest)) : IsLexeme (c :: cs) t := by
  intro rest hr
  rw [List.cons_append, tokenize_cons, if_neg (by simp [hb]), h rest hr]
  rfl

/-- Texts with blanks after each, one at least unless it is the last. -/
inductive Spaced : List (List Char) → List Char → Prop where
  | nil : Spaced [] []
  | cons {l : List Char} {ls : List (List Char)} {gap cs : List Char} (h : ∀ c ∈ gap, isBlank c = true)
      (hne : gap = [] → ls = []) : Spaced ls cs → Spaced (l :: ls) (l ++ (gap ++ cs))

theorem Spaced.parted {ls : List (List Char)} {gap cs : List Char} (hs : Spaced ls cs) (h : ∀ c ∈ gap, isBlank c = true)
    (hne : gap = [] → ls = []) : Parted (gap ++ cs) := by
  cases gap with
  | nil =>
    cases hne rfl
    cases hs
    exact parted_nil
  | cons c gap =>
    intro d hd
    cases hd
    exact h c List.mem_cons_self

/-- A text of lexemes with blanks between them has their tokens. -/
theorem Spaced.tokenize_eq {ls : List (List Char)} {cs : List Char} (hs : Spaced ls cs) {ts : List Token}
    (h : List.Forall₂ IsLexeme ls ts) : tokenize cs = .ok ts := by
  induction hs generalizing ts with
  | nil =>
    cases h
    rw [tokenize]
  | cons hgap hne hs ih =>
    cases h with
    | cons hl hls =>
      rw [hl _ (hs.parted hgap hne), tokenize_blanks hgap, ih hls]
      rfl

/-- Texts with a space after each. -/
theorem spaced_flatMap (ls : List (List Char)) : Spaced ls (ls.flatMap fun l => l ++ [' ']) := by
  induction ls with
  | nil => exact .nil
  | cons l ls ih =>
    rw [List.flatMap_cons, List.append_assoc]
    refine .cons ?_ (fun hnil => absurd hnil (List.cons_ne_nil _ _)) ih
    intro c hc
    rw [List.mem_singleton.1 hc]
    rfl

/-! ## Words -/

/-- A word, which is given in small letters, with each letter in either case. -/
def IsCasing (word : String) (cs : List Char) : Prop := cs.map asciiLower = word.toList

/-- A character that is not its own small letter is a letter. -/
theorem asciiLower_eq_or (c : Char) : asciiLower c = c ∨ isAsciiLetter c = true := by
  rw [asciiLower]
  split
  · next h =>
    right
    rw [isAsciiLetter, h, Bool.true_or]
  · exact .inl rfl

/-- A word of ASCII is one in every case. -/
theorem isAsciiWord_of_lower {cs : List Char} (h : IsAsciiWord (cs.map asciiLower)) : IsAsciiWord cs := by
  cases cs with
  | nil => exact h
  | cons c cs =>
    obtain ⟨hfirst, hrest⟩ := h
    constructor
    · rcases asciiLower_eq_or c with hc | hc
      · rwa [hc] at hfirst
      · rw [hc, Bool.true_or]
    · intro d hd
      have hlower := hrest (asciiLower d) (List.mem_map_of_mem hd)
      rcases asciiLower_eq_or d with hd | hd
      · rwa [hd] at hlower
      · rw [hd, Bool.true_or, Bool.true_or]

/-- A word in any case is a lexeme. -/
theorem IsCasing.lexeme {word : String} {cs : List Char} (h : IsCasing word cs) (hword : IsAsciiWord word.toList) :
    IsLexeme cs (.word (String.ofList cs)) := by
  have hcs : IsAsciiWord (String.ofList cs).toList := by
    rw [String.toList_ofList]
    exact isAsciiWord_of_lower (h ▸ hword)
  have hspells := SpellsApart.ofWord hcs
  rw [String.toList_ofList] at hspells
  exact hspells.lexeme

/-- A word in any case is the keyword that it is in small letters. -/
theorem IsCasing.matches {word keyword : String} {cs : List Char} (h : IsCasing word cs)
    (hkeyword : IsCasing word keyword.toList) : equalIgnoringCase (String.ofList cs) keyword = true := by
  rw [Text.equalIgnoringCase, String.toList_ofList, h, hkeyword, beq_self_eq_true]

/-- A word in any case is in small letters what it is. -/
theorem IsCasing.lowerAscii {word : String} {cs : List Char} (h : IsCasing word cs) :
    Text.lowerAscii (String.ofList cs) = word :=
  lowerAscii_of_map (by rw [String.toList_ofList, h])

/-- The name of a function is a word of ASCII. -/
theorem isAsciiWord_of_ofName? {s : String} {f : Function} (h : Function.ofName? s = some f) : IsAsciiWord s.toList := by
  have hname : IsAsciiWord (Text.lowerAscii s).toList := by
    simp only [Function.ofName?] at h
    generalize Text.lowerAscii s = name at h ⊢
    split_ifs at h with hbegins hcontains hends hexists hnot
    · rcases hbegins with rfl | rfl <;> decide
    · rw [hcontains]
      decide
    · rw [hends]
      decide
    · rcases hexists with rfl | rfl <;> decide
    · rw [hnot]
      decide
  rw [Text.lowerAscii, String.toList_ofList] at hname
  exact isAsciiWord_of_lower hname

/-! ## Signs -/

/-- The signs of a relation. -/
def Relation.signs : Relation → List String
  | .eq => ["="]
  | .ne => ["<>", "!="]
  | .lt => ["<"]
  | .le => ["<="]
  | .gt => [">"]
  | .ge => [">="]

/-- A sign that might go on ends before a blank. -/
theorem inequality_parted {c : Char} (hc : c ≠ '!') {rest : List Char} (h : Parted rest) :
    inequality c rest = .ok (if c = '<' then .lt else .gt, rest) := by
  have heq : ∀ more, rest ≠ '=' :: more := by
    rintro more rfl
    exact absurd (h '=' rfl) (by decide)
  have hgt : ∀ more, rest ≠ '>' :: more := by
    rintro more rfl
    exact absurd (h '>' rfl) (by decide)
  rw [inequality]
  · rw [if_neg hc]
  · exact heq
  · exact hgt

/-- What is read as a mark of inequality is a lexeme. -/
theorem lexeme_of_inequality {c : Char} (hc : c = '!' ∨ c = '<' ∨ c = '>') {cs : List Char} {r : Relation}
    (h : ∀ rest, Parted rest → inequality c (cs ++ rest) = .ok (r, rest)) : IsLexeme (c :: cs) (.relation r) := by
  have hmark : isBlank c = false ∧ punctuation? c = none := by rcases hc with rfl | rfl | rfl <;> exact ⟨by decide, rfl⟩
  refine IsLexeme.of_lexeme hmark.1 fun rest hr => ?_
  rw [lexeme, hmark.2]
  simp only [if_pos hc, h rest hr]
  rfl

/-- The signs of a relation are lexemes. -/
theorem lexeme_sign {r : Relation} {sign : String} (h : sign ∈ r.signs) : IsLexeme sign.toList (.relation r) := by
  cases r with
  | eq =>
    rw [List.mem_singleton.1 h]
    exact (Spells.punctuation (by decide) rfl : Spells ['='] [.relation .eq]).lexeme
  | ne =>
    rcases List.mem_cons.1 h with rfl | h
    · exact lexeme_of_inequality (.inr (.inl rfl)) fun rest _ => rfl
    · rw [List.mem_singleton.1 h]
      exact lexeme_of_inequality (.inl rfl) fun rest _ => rfl
  | lt =>
    rw [List.mem_singleton.1 h]
    exact lexeme_of_inequality (.inr (.inl rfl)) fun rest hr => inequality_parted (by decide) hr
  | le =>
    rw [List.mem_singleton.1 h]
    exact lexeme_of_inequality (.inr (.inl rfl)) fun rest _ => rfl
  | gt =>
    rw [List.mem_singleton.1 h]
    exact lexeme_of_inequality (.inr (.inr rfl)) fun rest hr => inequality_parted (by decide) hr
  | ge =>
    rw [List.mem_singleton.1 h]
    exact lexeme_of_inequality (.inr (.inr rfl)) fun rest _ => rfl

/-! ## Numbers -/

/-- Only the digits of zero begin with a zero. -/
theorem eq_zero_of_head?_naturalText {n : Nat} (h : (Decimal.naturalText n).head? = some '0') : n = 0 := by
  induction n using Nat.strong_induction_on with
  | _ n ih =>
    rw [Decimal.naturalText, Nat.toDigits_eq_if (by decide)] at h
    split at h
    · next hlt =>
      have hall : ∀ m < 10, [Nat.digitChar m].head? = some '0' → m = 0 := by decide
      exact hall n hlt h
    · next hge =>
      -- The first digit is that of the number without its last digit.
      rw [List.head?_append_of_ne_nil _ Nat.toDigits_ne_nil] at h
      have hzero := ih (n / 10) (Nat.div_lt_self (by omega) (by decide)) h
      omega

/-- Digits without superfluous zeros, after a minus sign or not, are read as an integer, with nothing left. -/
theorem readNumber_naturalText (negative : Bool) (n : Nat) :
    Raw.readNumber (if negative then '-' :: Decimal.naturalText n else Decimal.naturalText n) =
      some (Raw.integerNumber? negative (Decimal.naturalText n), []) := by
  have hdigits := fun c (hc : c ∈ Decimal.naturalText n) => Decimal.isAsciiDigit_of_mem_naturalText hc
  have htake : (Decimal.naturalText n).takeWhile isAsciiDigit = Decimal.naturalText n :=
    List.takeWhile_eq_self_iff.2 hdigits
  have hdrop : (Decimal.naturalText n).dropWhile isAsciiDigit = [] := List.dropWhile_eq_nil_iff.2 hdigits
  have hzero : ((Decimal.naturalText n).isEmpty ||
      ((Decimal.naturalText n).head? == some '0' && (Decimal.naturalText n).length != 1)) = false := by
    rw [List.isEmpty_eq_false_iff.2 (Decimal.naturalText_ne_nil n), Bool.false_or, Bool.and_eq_false_iff]
    by_cases hhead : (Decimal.naturalText n).head? = some '0'
    · right
      rw [eq_zero_of_head?_naturalText hhead]
      rfl
    · left
      exact beq_false_of_ne hhead
  have hsign : ∀ rest, Decimal.naturalText n ≠ '-' :: rest := fun rest =>
    (Decimal.ne_sign_of_digits (Decimal.all_isAsciiDigit_naturalText n) rest).1
  have htail : Raw.readTail [] = some (none, []) := rfl
  cases negative with
  | true => simp [Raw.readNumber, htake, hdrop, hzero, htail]
  | false =>
    rw [if_neg Bool.false_ne_true, Raw.readNumber]
    · simp [htake, hdrop, hzero, htail]
    · exact hsign

/-- The text of an integer is read as it. -/
theorem number?_integerText (i : WideInt) : number? (Decimal.integerText i.val) = some (.int i) := by
  have hrange := i.property
  have hi : WideInt.ofInt? i.val = some i := by rw [WideInt.ofInt?, dif_pos hrange]
  by_cases hneg : i.val < 0
  · have hread := readNumber_naturalText true i.val.natAbs
    have habs : -(i.val.natAbs : Int) = i.val := by omega
    have hexact : i.val.natAbs ≠ 0 ∧ i.val.natAbs ≤ 0x8000000000000000 := by omega
    rw [if_pos rfl] at hread
    rw [Decimal.integerText, if_pos hneg, number?, hread]
    simp only [Raw.integerNumber?, Decimal.digitsValue_naturalText, if_true, if_pos hexact, habs, hi]
    rfl
  · have hread := readNumber_naturalText false i.val.natAbs
    have habs : (i.val.natAbs : Int) = i.val := by omega
    have hexact : i.val.natAbs < UInt64.size := by
      rw [UInt64.size]
      omega
    rw [if_neg Bool.false_ne_true] at hread
    rw [Decimal.integerText, if_neg hneg, number?, hread]
    simp only [Raw.integerNumber?, Decimal.digitsValue_naturalText, Bool.false_eq_true, if_false, if_pos hexact, habs, hi]
    rfl

/-- What begins a numeral begins no other token. -/
theorem lexeme_numeric {c : Char} (h : (isAsciiDigit c || c == '-') = true) (cs : List Char) :
    isBlank c = false ∧ lexeme c cs = numeric c cs := by
  obtain ⟨hblank, hlexeme⟩ := lexeme_eq (c := c) (by rw [h, Bool.true_or]) cs
  exact ⟨hblank, hlexeme.trans (if_pos h)⟩

/-- Digits after a digit or a minus sign are a lexeme where they are a number. -/
theorem lexeme_number {c : Char} {cs : List Char} {n : Number} (hc : (isAsciiDigit c || c == '-') = true)
    (hcs : ∀ d ∈ cs, isAsciiDigit d = true) (h : number? (c :: cs) = some n) : IsLexeme (c :: cs) (.number n) := by
  obtain ⟨hb, -⟩ := lexeme_numeric hc cs
  refine IsLexeme.of_lexeme hb fun rest hr => ?_
  have hparts : ∀ d ∈ cs, isNumeralPart d = true := by
    intro d hd
    simp only [isNumeralPart, hcs d hd, Bool.true_or]
  have hstop : rest.takeWhile isNumeralPart = [] ∧ rest.dropWhile isNumeralPart = rest := by
    cases rest with
    | nil => exact ⟨rfl, rfl⟩
    | cons d rest =>
      have hd := (parts_of_isBlank (hr d rfl)).2
      exact ⟨List.takeWhile_cons_of_neg (by simp [hd]), List.dropWhile_cons_of_neg (by simp [hd])⟩
  rw [(lexeme_numeric hc _).2, numeric, List.takeWhile_append_of_pos hparts, List.dropWhile_append_of_pos hparts, hstop.1,
    hstop.2, List.append_nil]
  simp only [h]

/-- An integer is a lexeme. -/
theorem lexeme_integer (i : WideInt) : IsLexeme (Decimal.integerText i.val) (.number (.int i)) := by
  have hnumber := number?_integerText i
  have hdigits := fun c (hc : c ∈ Decimal.naturalText i.val.natAbs) => Decimal.isAsciiDigit_of_mem_naturalText hc
  rw [Decimal.integerText] at hnumber ⊢
  split_ifs at hnumber ⊢ with hneg
  · exact lexeme_number rfl hdigits hnumber
  · cases hs : Decimal.naturalText i.val.natAbs with
    | nil => exact absurd hs (Decimal.naturalText_ne_nil _)
    | cons c cs =>
      rw [hs] at hnumber hdigits
      obtain ⟨hc, hcs⟩ := List.forall_mem_cons.1 hdigits
      exact lexeme_number (by rw [hc, Bool.true_or]) hcs hnumber

/-! ## Texts -/

/-- A character between quotes: the quote itself and a backslash after a backslash. -/
def escapeIn (quote c : Char) : List Char := if c = quote ∨ c = '\\' then ['\\', c] else [c]

/-- A text between quotes. -/
def quotedBy (quote : Char) (s : String) : List Char := quote :: (s.toList.flatMap (escapeIn quote) ++ [quote])

/-- A character between quotes is read as itself. -/
theorem readText_escapeIn {quote : Char} (hquote : quote = '"' ∨ quote = '\'') (c : Char) (more : List Char) :
    readText quote (escapeIn quote c ++ more) = prepend c (readText quote more) := by
  rw [escapeIn]
  split
  · next hc =>
    -- Neither a quote nor a backslash is the letter of another escape.
    rcases hquote with rfl | rfl <;> rcases hc with rfl | rfl <;> rw [List.cons_append, readText.eq_def] <;> rfl
  · next hc =>
    rw [not_or] at hc
    rw [List.cons_append, List.nil_append, readText.eq_def]
    simp only [if_neg hc.1, if_neg hc.2]

/-- What stands between quotes is read up to the closing quote. -/
theorem readText_flatMap {quote : Char} (hquote : quote = '"' ∨ quote = '\'') (cs rest : List Char) :
    readText quote (cs.flatMap (escapeIn quote) ++ quote :: rest) = .ok (cs, rest) := by
  induction cs with
  | nil =>
    rw [List.flatMap_nil, List.nil_append, readText.eq_def]
    exact if_pos rfl
  | cons c cs ih =>
    rw [List.flatMap_cons, List.append_assoc, readText_escapeIn hquote, ih]
    rfl

/-- A text between quotes is a lexeme. -/
theorem lexeme_quotedBy {quote : Char} (hquote : quote = '"' ∨ quote = '\'') (s : String) :
    IsLexeme (quotedBy quote s) (.text s) := by
  have hlexeme : isBlank quote = false ∧
      ∀ cs, lexeme quote cs = (readText quote cs).map fun p => (.text (String.ofList p.1), p.2) := by
    rcases hquote with rfl | rfl <;> exact ⟨by decide, fun _ => rfl⟩
  refine IsLexeme.of_lexeme hlexeme.1 fun rest _ => ?_
  rw [hlexeme.2, List.append_assoc, List.singleton_append, readText_flatMap hquote, Except.map, String.ofList_toList]

end DocQuery.Expression
