import DocQuery.Proofs.Expression.Lexemes

/-!
# Printing formulas

A formula is printed with parentheses wherever a part binds weaker than its place asks for, and around any other part as well,
with keywords in any case and with blanks between the lexemes. Main statement: whatever a formula is printed as, it is parsed as that
formula, and no token is left over (`parses_as_printed`).
-/

namespace DocQuery.Expression

open DocQuery.Text (equalIgnoringCase isBlank)

/-! ## What formulas are printed as -/

/-- What a literal is printed as. -/
inductive LiteralPrinted : Literal → List Char → Prop where
  | null {cs : List Char} (h : IsCasing "null" cs) : LiteralPrinted .null cs
  | bool {b : Bool} {cs : List Char} (h : IsCasing (if b then "true" else "false") cs) : LiteralPrinted (.bool b) cs
  | integer (i : WideInt) : LiteralPrinted (.number (.int i)) (Decimal.integerText i.val)
  | text {quote : Char} (h : quote = '"' ∨ quote = '\'') (s : String) : LiteralPrinted (.text s) (quotedBy quote s)

/-- The lexemes that a term is printed as. An attribute is printed as an alias that stands for it. -/
inductive TermPrinted (names : Names) : Term → List (List Char) → Prop where
  | named {cs : List Char} {field : String} (h : ∀ c ∈ cs, isNamePart c = true) (hne : cs ≠ [])
      (hn : names.bind (·.get? (String.ofList ('#' :: cs))) = some field) : TermPrinted names (.path field) ['#' :: cs]
  | placeholder {c : Char} {cs : List Char} (hc : c = ':' ∨ c = '@') (h : ∀ d ∈ cs, isNamePart d = true) (hne : cs ≠ []) :
      TermPrinted names (.param (String.ofList (c :: cs))) [c :: cs]
  | literal {l : Literal} {cs : List Char} : LiteralPrinted l cs → TermPrinted names (.literal l) [cs]
  | lower {k : List Char} {t : Term} {ls : List (List Char)} (h : IsCasing "lower" k) :
      TermPrinted names t ls → TermPrinted names (.lower t) (k :: ['('] :: (ls ++ [[')']]))

/-- The lexemes that terms are printed as, with commas between them, up to the closing parenthesis. -/
inductive TermsPrinted (names : Names) : List Term → List (List Char) → Prop where
  | last {t : Term} {ls : List (List Char)} : TermPrinted names t ls → TermsPrinted names [t] (ls ++ [[')']])
  | cons {t : Term} {more : List Term} {ls rs : List (List Char)} :
      TermPrinted names t ls → TermsPrinted names more rs → TermsPrinted names (t :: more) (ls ++ [','] :: rs)

/-- The lexemes that a formula is printed as in a place of a level. The operands of `AND` and `OR` group to the left, and what
stands in parentheses may be of any level. -/
inductive Printed (names : Names) : Level → Formula → List (List Char) → Prop where
  | compare {left right : Term} {r : Relation} {sign : String} {ls rs : List (List Char)} (h : sign ∈ r.signs) :
      TermPrinted names left ls → TermPrinted names right rs →
      Printed names .factor (.compare left r right) (ls ++ sign.toList :: rs)
  | member {k : List Char} {t : Term} {list : List Term} {ls rs : List (List Char)} (h : IsCasing "in" k) :
      TermPrinted names t ls → TermsPrinted names list rs →
      Printed names .factor (.member t list) (ls ++ k :: ['('] :: rs)
  | between {k k' : List Char} {t low high : Term} {ls rs us : List (List Char)} (h : IsCasing "between" k)
      (h' : IsCasing "and" k') : TermPrinted names t ls → TermPrinted names low rs → TermPrinted names high us →
      Printed names .factor (.between t low high) (ls ++ k :: (rs ++ k' :: us))
  | call {s : String} {f : Function} {args : List Term} {ls : List (List Char)} (h : Function.ofName? s = some f) :
      TermsPrinted names args ls → Printed names .factor (.call f args) (s.toList :: ['('] :: ls)
  | paren {f : Formula} {ls : List (List Char)} :
      Printed names .disjunction f ls → Printed names .factor f (['('] :: (ls ++ [[')']]))
  | not {k : List Char} {f : Formula} {ls : List (List Char)} (h : IsCasing "not" k) :
      Printed names .factor f ls → Printed names .factor (.not f) (k :: ls)
  | ofFactor {f : Formula} {ls : List (List Char)} : Printed names .factor f ls → Printed names .conjunction f ls
  | and {k : List Char} {f g : Formula} {ls rs : List (List Char)} (h : IsCasing "and" k) :
      Printed names .conjunction f ls → Printed names .factor g rs →
      Printed names .conjunction (.and f g) (ls ++ k :: rs)
  | ofConjunction {f : Formula} {ls : List (List Char)} :
      Printed names .conjunction f ls → Printed names .disjunction f ls
  | or {k : List Char} {f g : Formula} {ls rs : List (List Char)} (h : IsCasing "or" k) :
      Printed names .disjunction f ls → Printed names .conjunction g rs →
      Printed names .disjunction (.or f g) (ls ++ k :: rs)

/-- A text that a formula is printed as: its lexemes with blanks between them, and perhaps before and after. -/
def Prints (names : Names) (f : Formula) (s : String) : Prop :=
  ∃ ls gap cs, Printed names .disjunction f ls ∧ (∀ c ∈ gap, isBlank c = true) ∧ Spaced ls cs ∧ s.toList = gap ++ cs

/-! ## Which formulas can be printed -/

/-- A term that can be printed: an attribute with an alias, a placeholder, a literal that is no binary64 number, or such a term in
small letters. -/
def Term.Printable (names : Names) : Term → Prop
  | .path field => ∃ cs, (∀ c ∈ cs, isNamePart c = true) ∧ cs ≠ [] ∧
      names.bind (·.get? (String.ofList ('#' :: cs))) = some field
  | .param name => ∃ c cs, (c = ':' ∨ c = '@') ∧ (∀ d ∈ cs, isNamePart d = true) ∧ cs ≠ [] ∧ name = String.ofList (c :: cs)
  | .literal l => ∀ x, l ≠ .number (.float x)
  | .lower t => t.Printable names

/-- A formula that can be printed: its terms can be, and none of its lists is empty. -/
def Formula.Printable (names : Names) : Formula → Prop
  | .and f g | .or f g => f.Printable names ∧ g.Printable names
  | .not f => f.Printable names
  | .compare left _ right => left.Printable names ∧ right.Printable names
  | .member t list => t.Printable names ∧ list ≠ [] ∧ ∀ u ∈ list, u.Printable names
  | .between t low high => t.Printable names ∧ low.Printable names ∧ high.Printable names
  | .call _ args => args ≠ [] ∧ ∀ u ∈ args, u.Printable names

variable {names : Names}

/-- A word in small letters is one of its casings. -/
theorem isCasing_self (word : String) (h : word.toList.map Text.asciiLower = word.toList) : IsCasing word word.toList := h

theorem LiteralPrinted.exists {l : Literal} (h : ∀ x, l ≠ .number (.float x)) : ∃ cs, LiteralPrinted l cs := by
  cases l with
  | null => exact ⟨_, .null (isCasing_self "null" (by decide))⟩
  | bool b =>
    cases b with
    | true => exact ⟨_, .bool (isCasing_self "true" (by decide))⟩
    | false => exact ⟨_, .bool (isCasing_self "false" (by decide))⟩
  | number n =>
    cases n with
    | int i => exact ⟨_, .integer i⟩
    | float x => exact absurd rfl (h x)
  | text s => exact ⟨_, .text (.inl rfl) s⟩

theorem TermPrinted.exists {t : Term} (h : t.Printable names) : ∃ ls, TermPrinted names t ls := by
  induction t with
  | path field =>
    obtain ⟨cs, hcs, hne, hn⟩ := h
    exact ⟨_, .named hcs hne hn⟩
  | param name =>
    obtain ⟨c, cs, hc, hcs, hne, rfl⟩ := h
    exact ⟨_, .placeholder hc hcs hne⟩
  | literal l =>
    obtain ⟨cs, hcs⟩ := LiteralPrinted.exists h
    exact ⟨_, .literal hcs⟩
  | lower t ih =>
    obtain ⟨ls, hls⟩ := ih h
    exact ⟨_, .lower (isCasing_self "lower" (by decide)) hls⟩

theorem TermsPrinted.exists {list : List Term} (hne : list ≠ []) (h : ∀ t ∈ list, t.Printable names) :
    ∃ ls, TermsPrinted names list ls := by
  induction list with
  | nil => exact absurd rfl hne
  | cons t list ih =>
    obtain ⟨ht, hlist⟩ := List.forall_mem_cons.1 h
    obtain ⟨ls, hls⟩ := TermPrinted.exists ht
    cases list with
    | nil => exact ⟨_, .last hls⟩
    | cons u list =>
      obtain ⟨rs, hrs⟩ := ih (List.cons_ne_nil u list) hlist
      exact ⟨_, .cons hls hrs⟩

/-- Every function has a name. -/
theorem Function.exists_name (f : Function) : ∃ s, Function.ofName? s = some f := by
  cases f with
  | beginsWith => exact ⟨"begins_with", by decide⟩
  | contains => exact ⟨"contains", by decide⟩
  | endsWith => exact ⟨"endswith", by decide⟩
  | «exists» => exact ⟨"attribute_exists", by decide⟩
  | notExists => exact ⟨"attribute_not_exists", by decide⟩

/-- What stands in parentheses can be printed in any place. -/
theorem Printed.exists {f : Formula} (h : f.Printable names) : ∃ ls, Printed names .factor f ls := by
  induction f with
  | and f g ihf ihg =>
    obtain ⟨ls, hls⟩ := ihf h.1
    obtain ⟨rs, hrs⟩ := ihg h.2
    exact ⟨_, .paren (.ofConjunction (.and (isCasing_self "and" (by decide)) (.ofFactor hls) hrs))⟩
  | or f g ihf ihg =>
    obtain ⟨ls, hls⟩ := ihf h.1
    obtain ⟨rs, hrs⟩ := ihg h.2
    exact ⟨_, .paren (.or (isCasing_self "or" (by decide)) (.ofConjunction (.ofFactor hls)) (.ofFactor hrs))⟩
  | not f ih =>
    obtain ⟨ls, hls⟩ := ih h
    exact ⟨_, .not (isCasing_self "not" (by decide)) hls⟩
  | compare left r right =>
    obtain ⟨ls, hls⟩ := TermPrinted.exists h.1
    obtain ⟨rs, hrs⟩ := TermPrinted.exists h.2
    obtain ⟨sign, hsign⟩ : ∃ sign, sign ∈ r.signs := by cases r <;> exact ⟨_, List.mem_cons_self⟩
    exact ⟨_, .compare hsign hls hrs⟩
  | member t list =>
    obtain ⟨ls, hls⟩ := TermPrinted.exists h.1
    obtain ⟨rs, hrs⟩ := TermsPrinted.exists h.2.1 h.2.2
    exact ⟨_, .member (isCasing_self "in" (by decide)) hls hrs⟩
  | between t low high =>
    obtain ⟨ls, hls⟩ := TermPrinted.exists h.1
    obtain ⟨rs, hrs⟩ := TermPrinted.exists h.2.1
    obtain ⟨us, hus⟩ := TermPrinted.exists h.2.2
    exact ⟨_, .between (isCasing_self "between" (by decide)) (isCasing_self "and" (by decide)) hls hrs hus⟩
  | call f args =>
    obtain ⟨s, hs⟩ := f.exists_name
    obtain ⟨ls, hls⟩ := TermsPrinted.exists h.1 h.2
    exact ⟨_, .call hs hls⟩

/-! ## What is printed is written -/

/-- Characters that are a token each. -/
abbrev Lexed (ls : List (List Char)) (ts : List Token) : Prop := List.Forall₂ IsLexeme ls ts

theorem lexed_append {ls rs : List (List Char)} {ts us : List Token} (h : Lexed ls ts) (h' : Lexed rs us) :
    Lexed (ls ++ rs) (ts ++ us) :=
  List.rel_append h h'

theorem lexeme_leftParen : IsLexeme ['('] .leftParen := Spells.leftParen.lexeme
theorem lexeme_rightParen : IsLexeme [')'] .rightParen := Spells.rightParen.lexeme
theorem lexeme_comma : IsLexeme [','] .comma := Spells.comma.lexeme

/-- A word in any case is no negation unless that is the word. -/
theorem IsCasing.ne_not {word : String} {cs : List Char} (h : IsCasing word cs) (hword : word ≠ "not") :
    equalIgnoringCase (String.ofList cs) "NOT" = false := by
  rw [equalIgnoringCase, String.toList_ofList, h]
  refine beq_false_of_ne fun heq => hword (String.toList_injective heq)

/-- A printed literal is one token, which is written for it. -/
theorem LiteralPrinted.written {l : Literal} {cs : List Char} (h : LiteralPrinted l cs) :
    ∃ t, IsLexeme cs t ∧ TermWritten names [t] (.literal l) := by
  cases h with
  | null h =>
    have hterm : wordTerm (String.ofList cs) = .literal .null := by rw [wordTerm, h.lowerAscii]; rfl
    exact ⟨_, h.lexeme (by decide), hterm ▸ .word (h.ne_not (by decide))⟩
  | @bool b _ h =>
    have hterm : wordTerm (String.ofList cs) = .literal (.bool b) := by
      rw [wordTerm, h.lowerAscii]
      cases b <;> rfl
    exact ⟨_, h.lexeme (by cases b <;> decide), hterm ▸ .word (h.ne_not (by cases b <;> decide))⟩
  | integer i => exact ⟨_, lexeme_integer i, .number (.int i)⟩
  | text h s => exact ⟨_, lexeme_quotedBy h s, .text s⟩

/-- A printed term is written. -/
theorem TermPrinted.written {t : Term} {ls : List (List Char)} (h : TermPrinted names t ls) :
    ∃ ts, Lexed ls ts ∧ TermWritten names ts t := by
  induction h with
  | named h hne hn => exact ⟨_, .cons (SpellsApart.ofAlias h hne).lexeme .nil, .named hn⟩
  | placeholder hc h hne => exact ⟨_, .cons (SpellsApart.ofPlaceholder hc h hne).lexeme .nil, .placeholder _⟩
  | literal h =>
    obtain ⟨t, hlexeme, hwritten⟩ := h.written
    exact ⟨_, .cons hlexeme .nil, hwritten⟩
  | lower h _ ih =>
    obtain ⟨ts, hls, hwritten⟩ := ih
    have hclosed := lexed_append hls (.cons lexeme_rightParen .nil)
    exact ⟨_, .cons (h.lexeme (by decide)) (.cons lexeme_leftParen hclosed), .lower (h.matches (by rfl)) hwritten⟩

/-- Printed terms are written. -/
theorem TermsPrinted.written {list : List Term} {ls : List (List Char)} (h : TermsPrinted names list ls) :
    ∃ ts, Lexed ls ts ∧ TermsWritten names ts list := by
  induction h with
  | last h =>
    obtain ⟨ts, hls, hwritten⟩ := h.written
    exact ⟨_, lexed_append hls (.cons lexeme_rightParen .nil), .last hwritten⟩
  | cons h _ ih =>
    obtain ⟨ts, hls, hwritten⟩ := h.written
    obtain ⟨us, hrs, hmore⟩ := ih
    exact ⟨_, lexed_append hls (.cons lexeme_comma hrs), .cons hwritten hmore⟩

/-- A printed formula is written at its level. -/
theorem Printed.written {level : Level} {f : Formula} {ls : List (List Char)} (h : Printed names level f ls) :
    ∃ ts, Lexed ls ts ∧ Written names level ts f := by
  induction h with
  | @compare _ _ r _ _ _ h hl hr =>
    obtain ⟨ts, hls, hleft⟩ := hl.written
    obtain ⟨us, hrs, hright⟩ := hr.written
    exact ⟨_, lexed_append hls (.cons (lexeme_sign h) hrs), .compare r hleft hright⟩
  | member h ht hlist =>
    obtain ⟨ts, hls, hterm⟩ := ht.written
    obtain ⟨us, hrs, hterms⟩ := hlist.written
    exact ⟨_, lexed_append hls (.cons (h.lexeme (by decide)) (.cons lexeme_leftParen hrs)),
      .member (h.matches (by rfl)) hterm hterms⟩
  | between h h' ht hlow hhigh =>
    obtain ⟨ts, hls, hterm⟩ := ht.written
    obtain ⟨us, hrs, hlow⟩ := hlow.written
    obtain ⟨vs, hus, hhigh⟩ := hhigh.written
    have hrange := lexed_append hrs (.cons (h'.lexeme (by decide)) hus)
    exact ⟨_, lexed_append hls (.cons (h.lexeme (by decide)) hrange),
      .between (h.matches (by rfl)) (h'.matches (by rfl)) hterm hlow hhigh⟩
  | call h hargs =>
    obtain ⟨ts, hls, hterms⟩ := hargs.written
    have hname := (SpellsApart.ofWord (isAsciiWord_of_ofName? h)).lexeme
    exact ⟨_, .cons hname (.cons lexeme_leftParen hls), .call h hterms⟩
  | paren _ ih =>
    obtain ⟨ts, hls, hwritten⟩ := ih
    exact ⟨_, .cons lexeme_leftParen (lexed_append hls (.cons lexeme_rightParen .nil)), .paren hwritten⟩
  | not h _ ih =>
    obtain ⟨ts, hls, hwritten⟩ := ih
    exact ⟨_, .cons (h.lexeme (by decide)) hls, .not (h.matches (by rfl)) hwritten⟩
  | ofFactor _ ih =>
    obtain ⟨ts, hls, hwritten⟩ := ih
    exact ⟨ts, hls, .ofFactor hwritten⟩
  | and h _ _ ihf ihg =>
    obtain ⟨ts, hls, hf⟩ := ihf
    obtain ⟨us, hrs, hg⟩ := ihg
    exact ⟨_, lexed_append hls (.cons (h.lexeme (by decide)) hrs), .and (h.matches (by rfl)) hf hg⟩
  | ofConjunction _ ih =>
    obtain ⟨ts, hls, hwritten⟩ := ih
    exact ⟨ts, hls, .ofConjunction hwritten⟩
  | or h _ _ ihf ihg =>
    obtain ⟨ts, hls, hf⟩ := ihf
    obtain ⟨us, hrs, hg⟩ := ihg
    exact ⟨_, lexed_append hls (.cons (h.lexeme (by decide)) hrs), .or (h.matches (by rfl)) hf hg⟩

/-- A text that a formula is printed as has tokens in which the formula is written. -/
theorem Prints.written {f : Formula} {s : String} (h : Prints names f s) :
    ∃ ts, tokenize s.toList = .ok ts ∧ Written names .disjunction ts f := by
  obtain ⟨ls, gap, cs, hprinted, hgap, hspaced, hs⟩ := h
  obtain ⟨ts, hls, hwritten⟩ := hprinted.written
  refine ⟨ts, ?_, hwritten⟩
  rw [hs, tokenize_blanks hgap, hspaced.tokenize_eq hls]

/-! ## Parsing what was printed -/

/-- A formula that can be printed is printed as some text, and from whatever text it is printed as the whole formula is read and no
token is left, so that the text is parsed as the formula. -/
theorem parses_as_printed {f : Formula} (h : f.Printable names) :
    (∃ s, Prints names f s) ∧ ∀ s, Prints names f s →
      (∃ ts, tokens s = .ok ts ∧ readFormula names (enough ts) ts = .ok (f, [])) ∧ parseFormula s names = .ok f := by
  constructor
  · obtain ⟨ls, hls⟩ := Printed.exists h
    exact ⟨String.ofList _, ls, [], _, .ofConjunction (.ofFactor hls), nofun, spaced_flatMap ls, String.toList_ofList⟩
  · intro s hs
    obtain ⟨ts, htokens, hwritten⟩ := hs.written
    have henough : 4 * ts.length + 3 ≤ enough ts := by
      rw [enough]
      omega
    have hread := hwritten.readFormula henough afterTerm_nil rfl rfl
    rw [List.append_nil] at hread
    refine ⟨⟨ts, ?_, hread⟩, parseFormula_of_written htokens hwritten⟩
    rw [tokens, htokens]
    rfl

/-- A formula with an alternative in a conjunction, a negated range between needless parentheses, and keywords in several cases. -/
theorem parses_as_printed_of_range :
    let names : Names := some [("#n0", "age")]
    let f : Formula := .and
      (.or (.compare (.path "age") .ne (.literal (.number (.int ⟨-5, by decide⟩))))
        (.not (.between (.lower (.param ":v")) (.literal .null) (.literal (.text "it's")))))
      (.member (.param "@p") [.literal (.bool true), .path "age"])
    f.Printable names ∧
      parseFormula "( #n0 <> -5 or ( NOT LOWER ( :v ) between NULL AND 'it\\'s' ) ) AND @p in ( true , #n0 ) " names = .ok f := by
  intro names f
  have hage : TermPrinted names (.path "age") [['#', 'n', '0']] :=
    .named (List.all_eq_true.1 rfl) (List.cons_ne_nil _ _) rfl
  have hvalue : TermPrinted names (.param ":v") [[':', 'v']] :=
    .placeholder (.inl rfl) (List.all_eq_true.1 rfl) (List.cons_ne_nil _ _)
  have hparam : TermPrinted names (.param "@p") [['@', 'p']] :=
    .placeholder (.inr rfl) (List.all_eq_true.1 rfl) (List.cons_ne_nil _ _)
  have hnull : TermPrinted names (.literal .null) ["NULL".toList] := .literal (.null rfl)
  have htrue : TermPrinted names (.literal (.bool true)) ["true".toList] := .literal (.bool rfl)
  have hnumber : TermPrinted names (.literal (.number (.int ⟨-5, by decide⟩))) [_] := .literal (.integer _)
  have htext : TermPrinted names (.literal (.text "it's")) [_] := .literal (.text (.inr rfl) _)
  have hcompare : Printed names .factor (.compare (.path "age") .ne _) ([['#', 'n', '0']] ++ "<>".toList :: _) :=
    .compare (by decide) hage hnumber
  have hlower : TermPrinted names (.lower (.param ":v")) ("LOWER".toList :: _) := .lower rfl hvalue
  have hrange : Printed names .factor (.between _ _ _) (_ ++ "between".toList :: (_ ++ "AND".toList :: _)) :=
    .between rfl rfl hlower hnull htext
  have hnot : Printed names .factor (.not _) ("NOT".toList :: _) := .not rfl hrange
  have hor : Printed names .disjunction (.or _ _) (_ ++ "or".toList :: _) :=
    .or rfl (.ofConjunction (.ofFactor hcompare)) (.ofFactor (.paren (.ofConjunction (.ofFactor hnot))))
  have hmember : Printed names .factor (.member _ _) (_ ++ "in".toList :: _) := .member rfl hparam (.cons htrue (.last hage))
  have hand : Printed names .conjunction f (_ ++ "AND".toList :: _) := .and rfl (.ofFactor (.paren hor)) hmember
  have hprintable : f.Printable names := by
    have hpath : Term.Printable names (.path "age") :=
      ⟨['n', '0'], List.all_eq_true.1 rfl, List.cons_ne_nil _ _, rfl⟩
    have hvalue : Term.Printable names (.param ":v") :=
      ⟨':', ['v'], .inl rfl, List.all_eq_true.1 rfl, List.cons_ne_nil _ _, rfl⟩
    have hparam : Term.Printable names (.param "@p") :=
      ⟨'@', ['p'], .inr rfl, List.all_eq_true.1 rfl, List.cons_ne_nil _ _, rfl⟩
    refine ⟨⟨⟨hpath, nofun⟩, hvalue, nofun, nofun⟩, hparam, List.cons_ne_nil _ _, ?_⟩
    exact List.forall_mem_cons.2 ⟨nofun, List.forall_mem_singleton.2 hpath⟩
  refine ⟨hprintable, ((parses_as_printed hprintable).2 _ ⟨_, [], _, .ofConjunction hand, nofun, spaced_flatMap _, ?_⟩).2⟩
  decide +kernel

end DocQuery.Expression
