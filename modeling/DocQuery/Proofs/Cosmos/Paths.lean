import DocQuery.Cosmos.Query
import DocQuery.Proofs.Compile.Rendering
import DocQuery.Proofs.Decimal.Digits

/-!
# Paths and parameters in SQL

The path of a field is read back as that field, after a dot as well as in brackets, unless the name has one of the two control
characters whose short escapes the reader of texts does not know. So the dialect has a reading, and the parameters of a query
stand for its operands.
-/

namespace DocQuery.Cosmos

open Expression

/-! ## Quoted names -/

/-- A name without backspace and form feed. -/
def Quotable (field : String) : Prop := ∀ c ∈ field.toList, c.toNat ≠ 0x8 ∧ c.toNat ≠ 0xC

instance (field : String) : Decidable (Quotable field) :=
  List.decidableBAll (fun c : Char => c.toNat ≠ 0x8 ∧ c.toNat ≠ 0xC) field.toList

/-- An escape by code point is read as its character. -/
theorem escaped?_hexDigits : ∀ n < 0x20,
    escaped? ['0', '0', Json.hexDigit (n / 16), Json.hexDigit (n % 16)] = some (Char.ofNat n) := by
  decide

/-- The character that a quoted character is read as: the letter of the escape for the two whose escapes are not known. -/
def seenChar (c : Char) : Char := if c.toNat = 0x8 then 'b' else if c.toNat = 0xC then 'f' else c

/-- The name that a quoted name is read as. -/
def seenName (field : String) : String := String.ofList (field.toList.map seenChar)

/-- A quotable name is read as it is. -/
theorem seenName_of_quotable {field : String} (h : Quotable field) : seenName field = field := by
  have hchars : field.toList.map seenChar = field.toList :=
    List.map_congr_left (g := id) (fun c hc => by rw [seenChar, if_neg (h c hc).1, if_neg (h c hc).2, id]) |>.trans (List.map_id _)
  rw [seenName, hchars, String.ofList_toList]

/-- A character between quotes is read as one character. -/
theorem readText_escapeChar (c : Char) (more : List Char) :
    readText '"' (Json.escapeChar c ++ more) = prepend (seenChar c) (readText '"' more) := by
  unfold Json.escapeChar
  split
  · next hc => subst hc; rfl
  split
  · next hc => subst hc; rfl
  split
  · next hc =>
    rw [seenChar, if_pos hc]
    rfl
  split
  · next h hc =>
    rw [seenChar, if_neg h, if_pos hc]
    rfl
  next hbackspace hfeed =>
  rw [seenChar, if_neg hbackspace, if_neg hfeed]
  split
  · next hc => subst hc; rfl
  split
  · next hc => subst hc; rfl
  split
  · next hc => subst hc; rfl
  split
  · next hc =>
    have he := escaped?_hexDigits c.toNat hc
    rw [Char.ofNat_toNat] at he
    simp only [List.cons_append, List.nil_append]
    rw [readText.eq_def]
    simp [he]
  · next hquote hslash _ _ _ _ =>
    rw [List.cons_append, List.nil_append, readText.eq_def]
    simp only [if_neg hquote, if_neg hslash]

/-- A quoted name is read up to its closing quote. -/
theorem readText_quoted (cs rest : List Char) :
    readText '"' (cs.flatMap Json.escapeChar ++ '"' :: rest) = .ok (cs.map seenChar, rest) := by
  induction cs with
  | nil =>
    rw [List.flatMap_nil, List.nil_append, readText.eq_def]
    rfl
  | cons c cs ih =>
    rw [List.flatMap_cons, List.append_assoc, readText_escapeChar, ih]
    rfl

/-- A quoted name spells the text that it is read as. -/
theorem spells_quote (field : String) : Spells (Json.quote field.toList) [.text (seenName field)] := by
  refine Spells.of_lexeme (by decide) fun rest => ?_
  have hl : ∀ cs, lexeme '"' cs = (readText '"' cs).map fun p => (.text (String.ofList p.1), p.2) := fun _ => rfl
  rw [hl, List.append_assoc, List.singleton_append, readText_quoted]
  rfl

/-! ## Paths -/

/-- A plain name is a word of ASCII. -/
theorem isAsciiWord_of_isPlainName {field : String} (h : isPlainName field = true) : IsAsciiWord field.toList := by
  rw [isPlainName] at h
  cases hs : field.toList with
  | nil => simp [hs] at h
  | cons c cs =>
    simp only [hs, Bool.and_eq_true, List.all_eq_true] at h
    exact ⟨h.1.1, h.1.2⟩

/-- A plain name can be quoted. -/
theorem quotable_of_isPlainName {field : String} (h : isPlainName field = true) : Quotable field := by
  intro c hc
  have hpart := (isAsciiWord_of_isPlainName h).all c hc
  constructor <;>
  · intro hn
    rw [← Char.ofNat_toNat c, hn] at hpart
    exact absurd hpart (by decide)

/-- The tokens of the path of a field. -/
def pathTokens (field : String) : List Token :=
  if isPlainName field then [.word "c", .dot, .word field]
  else [.word "c", .leftBracket, .text (seenName field), .rightBracket]

/-- A path spells its tokens. -/
theorem spells_propertyPath (field : String) : SpellsApart (propertyPath field).toList (pathTokens field) := by
  cases hp : isPlainName field with
  | true =>
    have hdot : Spells ("c".toList ++ ['.']) [.word "c", .dot] :=
      (SpellsApart.ofWord (by decide)).append_spells Spells.dot rfl
    have hpath := hdot.append_apart (SpellsApart.ofWord (isAsciiWord_of_isPlainName hp))
    rw [propertyPath, pathTokens, hp]
    simpa using hpath
  | false =>
    have hopen : Spells ("c".toList ++ ['[']) [.word "c", .leftBracket] :=
      (SpellsApart.ofWord (by decide)).append_spells Spells.leftBracket rfl
    have hpath := (hopen.append (spells_quote field)).append Spells.rightBracket
    rw [propertyPath, pathTokens, hp]
    simpa using hpath.apart

/-- The tokens of a path are written for the field that its name is read as. -/
theorem pathTokens_written (names : Names) (field : String) : TermWritten names (pathTokens field) (.path (seenName field)) := by
  cases hp : isPlainName field with
  | true =>
    rw [pathTokens, hp, seenName_of_quotable (quotable_of_isPlainName hp)]
    exact .property (by decide) field
  | false =>
    rw [pathTokens, hp]
    exact .quoted (by decide) (seenName field)

/-- The path of any name is read as the field that the name is read as. -/
theorem propertyPath_seen (names : Names) (field : String) :
    TermText names (propertyPath field).toList (.path (seenName field)) :=
  ⟨_, spells_propertyPath field, pathTokens_written names field⟩

/-- The path of any quotable name is read as the field. -/
theorem propertyPath_text {field : String} (h : Quotable field) : TermText none (propertyPath field).toList (.path field) := by
  have hpath := propertyPath_seen none field
  rwa [seenName_of_quotable h] at hpath

/-! ## Placeholders -/

theorem placeholder_toList (i : Nat) : (placeholder i).toList = '@' :: 'p' :: Decimal.naturalText i := by
  simp [placeholder]

/-- Different slots have different placeholders. -/
theorem placeholder_injective : Function.Injective placeholder := Decimal.numbered_injective "@p"

/-- Digits are parts of a name. -/
theorem isNamePart_of_mem_naturalText {n : Nat} {c : Char} (h : c ∈ Decimal.naturalText n) : isNamePart c = true :=
  isNamePart_of_ascii (by rw [Decimal.isAsciiDigit_of_mem_naturalText h, Bool.or_true, Bool.true_or])

/-- A placeholder is a term. -/
theorem placeholder_text (names : Names) (i : Nat) : TermText names (placeholder i).toList (.param (placeholder i)) := by
  have hparts : ∀ d ∈ 'p' :: Decimal.naturalText i, isNamePart d = true := by
    intro d hd
    rcases List.mem_cons.1 hd with rfl | hd
    · rfl
    · exact isNamePart_of_mem_naturalText hd
  have h : TermText names ('@' :: 'p' :: Decimal.naturalText i) _ := .placeholder (Or.inr rfl) hparts (List.cons_ne_nil _ _)
  rw [← placeholder_toList, String.ofList_toList] at h
  exact h

/-! ## The reading of the dialect -/

/-- References in SQL draw on no table; a field fits if its name can be quoted. -/
def reading : dialect.Reading where
  folding := .small
  names := fun _ => none
  Leads := fun _ _ => True
  Fits := Quotable
  leads_refl := fun _ => trivial
  leads_trans := fun _ _ => trivial
  leads_reference := fun _ _ => trivial
  reference := fun h _ => propertyPath_text h
  placeholder := placeholder_text
  contains := ⟨by decide, ofName?_contains (by decide)⟩
  startsWith := ⟨by decide, ofName?_beginsWith (by decide)⟩
  notEqual := Spells.between_blanks "!=" '!' ['='] rfl (by decide) fun _ => rfl
  lower? := fun _ => rfl

end DocQuery.Cosmos
