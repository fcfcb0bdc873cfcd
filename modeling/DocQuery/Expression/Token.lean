import DocQuery.Error
import DocQuery.Json.Raw
import DocQuery.Text.Blank
import DocQuery.Text.Letter

/-!
# Tokens of expressions

The words that expressions and queries consist of, in the joint language of both families of stores: names and keywords, aliases
that begin with a number sign, placeholders that begin with a colon or an at sign, literals, and punctuation. Blanks separate
tokens and are otherwise ignored.
-/

namespace DocQuery.Expression

open DocQuery.Text (isAsciiDigit isLetter isLetterOrNumber isBlank)

/-- A relation between two values. -/
inductive Relation where
  | eq | ne | lt | le | gt | ge
  deriving DecidableEq, Repr

/-- A token. -/
inductive Token where
  | word (s : String)
  | alias (s : String)
  | placeholder (s : String)
  | text (s : String)
  | number (n : Number)
  | leftParen | rightParen | leftBracket | rightBracket | comma | dot | star
  | relation (r : Relation)
  deriving DecidableEq, Repr

/-- The name of a relation in messages. -/
def Relation.shown : Relation → String
  | .eq => "Eq"
  | .ne => "Ne"
  | .lt => "Lt"
  | .le => "Le"
  | .gt => "Gt"
  | .ge => "Ge"

/-- A token as messages show it. -/
def Token.shown : Token → String
  | .word s => "Ident(" ++ Text.quoted s ++ ")"
  | .alias s => "Name(" ++ Text.quoted s ++ ")"
  | .placeholder s => "Placeholder(" ++ Text.quoted s ++ ")"
  | .text s => "Str(" ++ Text.quoted s ++ ")"
  | .number n => "Number(Number(" ++ n.text ++ "))"
  | .leftParen => "LParen"
  | .rightParen => "RParen"
  | .leftBracket => "LBracket"
  | .rightBracket => "RBracket"
  | .comma => "Comma"
  | .dot => "Dot"
  | .star => "Star"
  | .relation r => "Op(" ++ r.shown ++ ")"

/-- Why characters are not a sequence of tokens. -/
inductive TokenFault where
  | unterminatedText
  | unterminatedEscape
  | badEscape (digits : String)
  | expectedNotEqual
  | dangling (mark : Char)
  | badNumber (numeral : String)
  | unexpected (c : Char)
  deriving DecidableEq, Repr

/-- The wording of a fault. -/
def TokenFault.message : TokenFault → String
  | .unterminatedText => "unterminated string literal"
  | .unterminatedEscape => "unterminated escape"
  | .badEscape digits => "bad escape \\u" ++ digits
  | .expectedNotEqual => "expected `!=`"
  | .dangling mark => "dangling `" ++ mark.toString ++ "`"
  | .badNumber numeral => "bad number " ++ numeral
  | .unexpected c => "unexpected character `" ++ c.toString ++ "`"

/-- The character that the digits of an escape stand for; a plus sign may precede them. -/
def escaped? (digits : List Char) : Option Char := do
  let digits := match digits with
    | '+' :: rest => rest
    | digits => digits
  let values ← digits.mapM Raw.hexValue?
  if values.isEmpty then none
  let code := values.foldl (fun n v => 16 * n + v) 0
  if h : code.isValidChar then some (Char.ofNatAux code h) else none

/-- Puts a character before the text that was read after it. -/
def prepend (c : Char) (r : Except TokenFault (List Char × List Char)) : Except TokenFault (List Char × List Char) :=
  r.map fun (s, rest) => (c :: s, rest)

/-- The characters of a text up to the closing quote, and what follows it. -/
def readText (quote : Char) : List Char → Except TokenFault (List Char × List Char)
  | [] => .error .unterminatedText
  | c :: rest =>
    if c = quote then .ok ([], rest)
    else if c = '\\' then
      match rest with
      | [] => .error .unterminatedEscape
      | 'n' :: rest => prepend '\n' (readText quote rest)
      | 't' :: rest => prepend '\t' (readText quote rest)
      | 'r' :: rest => prepend '\r' (readText quote rest)
      | 'u' :: d₀ :: d₁ :: d₂ :: d₃ :: rest =>
        match escaped? [d₀, d₁, d₂, d₃] with
        | some c => prepend c (readText quote rest)
        | none => .error (.badEscape (String.ofList [d₀, d₁, d₂, d₃]))
      | 'u' :: digits =>
        match escaped? digits with
        | some _ => .error .unterminatedText
        | none => .error (.badEscape (String.ofList digits))
      | e :: rest => prepend e (readText quote rest)
    else prepend c (readText quote rest)

/-- A character of a name after its first one. -/
def isNamePart (c : Char) : Bool := isLetterOrNumber c || c == '_'

/-- A character that may stand in a numeral. -/
def isNumeralPart (c : Char) : Bool :=
  isAsciiDigit c || c == '.' || c == 'e' || c == 'E' || c == '+' || c == '-'

/-- The number that a whole numeral stands for. -/
def number? (numeral : List Char) : Option Number :=
  match Raw.readNumber numeral with
  | some (n, []) => n
  | _ => none

/-- The tokens of one character. -/
def punctuation? : Char → Option Token
  | '(' => some .leftParen
  | ')' => some .rightParen
  | '[' => some .leftBracket
  | ']' => some .rightBracket
  | ',' => some .comma
  | '.' => some .dot
  | '*' => some .star
  | '=' => some (.relation .eq)
  | _ => none

/-- The relation that begins with a mark of inequality, and what follows it. -/
def inequality (c : Char) (rest : List Char) : Except TokenFault (Relation × List Char) :=
  match rest with
  | '=' :: rest => .ok (if c = '!' then .ne else if c = '<' then .le else .ge, rest)
  | '>' :: more => if c = '<' then .ok (.ne, more) else if c = '!' then .error .expectedNotEqual else .ok (.gt, rest)
  | rest => if c = '!' then .error .expectedNotEqual else .ok (if c = '<' then .lt else .gt, rest)

/-- The alias or placeholder that begins with a mark, and what follows it. -/
def marked (c : Char) (rest : List Char) : Except TokenFault (Token × List Char) :=
  let name := rest.takeWhile isNamePart
  if name.isEmpty then .error (.dangling c)
  else
    let s := String.ofList (c :: name)
    .ok (if c = '#' then .alias s else .placeholder s, rest.dropWhile isNamePart)

/-- The number that begins with a digit or a minus sign, and what follows it. -/
def numeric (c : Char) (rest : List Char) : Except TokenFault (Token × List Char) :=
  let numeral := c :: rest.takeWhile isNumeralPart
  match number? numeral with
  | some n => .ok (.number n, rest.dropWhile isNumeralPart)
  | none => .error (.badNumber (String.ofList numeral))

/-- The token that begins with a character which is not blank, and what follows it. -/
def lexeme (c : Char) (rest : List Char) : Except TokenFault (Token × List Char) :=
  match punctuation? c with
  | some t => .ok (t, rest)
  | none =>
    if c = '!' ∨ c = '<' ∨ c = '>' then (inequality c rest).map fun (r, rest) => (.relation r, rest)
    else if c = '"' ∨ c = '\'' then (readText c rest).map fun (s, rest) => (.text (String.ofList s), rest)
    else if c = '#' ∨ c = ':' ∨ c = '@' then marked c rest
    else if isAsciiDigit c || c == '-' then numeric c rest
    else if isLetter c || c == '_' then
      .ok (.word (String.ofList (c :: rest.takeWhile isNamePart)), rest.dropWhile isNamePart)
    else .error (.unexpected c)

theorem prepend_eq_ok {c : Char} {r : Except TokenFault (List Char × List Char)} {s rest : List Char}
    (h : prepend c r = .ok (s, rest)) : ∃ s', r = .ok (s', rest) := by
  cases r with
  | error e => simp [prepend, Except.map] at h
  | ok p =>
    obtain ⟨s', rest'⟩ := p
    simp only [prepend, Except.map, Except.ok.injEq, Prod.mk.injEq] at h
    exact ⟨s', by rw [h.2]⟩

/-- What follows a text is shorter than what it was read from. -/
theorem length_of_readText {quote : Char} {cs s rest : List Char} (h : readText quote cs = .ok (s, rest)) :
    rest.length < cs.length := by
  fun_induction readText quote cs generalizing s with
  | case1 => simp at h
  | case2 => simp_all
  | case3 => simp at h
  | case4 _ _ ih => obtain ⟨s', h⟩ := prepend_eq_ok h; have := ih h; simp; omega
  | case5 _ _ ih => obtain ⟨s', h⟩ := prepend_eq_ok h; have := ih h; simp; omega
  | case6 _ _ ih => obtain ⟨s', h⟩ := prepend_eq_ok h; have := ih h; simp; omega
  | case7 _ _ _ _ _ _ _ _ ih => obtain ⟨s', h⟩ := prepend_eq_ok h; have := ih h; simp; omega
  | case8 => simp at h
  | case9 => simp at h
  | case10 => simp at h
  | case11 _ _ _ _ _ _ _ _ ih => obtain ⟨s', h⟩ := prepend_eq_ok h; have := ih h; simp; omega
  | case12 _ _ _ _ ih => obtain ⟨s', h⟩ := prepend_eq_ok h; have := ih h; simp; omega

theorem length_dropWhile_le {α : Type} (p : α → Bool) (l : List α) : (l.dropWhile p).length ≤ l.length :=
  (List.dropWhile_sublist p).length_le

theorem length_of_inequality {c : Char} {cs rest : List Char} {r : Relation} (h : inequality c cs = .ok (r, rest)) :
    rest.length ≤ cs.length := by
  unfold inequality at h
  grind

theorem length_of_marked {c : Char} {cs rest : List Char} {t : Token} (h : marked c cs = .ok (t, rest)) :
    rest.length ≤ cs.length := by
  have := length_dropWhile_le isNamePart cs
  unfold marked at h
  grind

theorem length_of_numeric {c : Char} {cs rest : List Char} {t : Token} (h : numeric c cs = .ok (t, rest)) :
    rest.length ≤ cs.length := by
  have := length_dropWhile_le isNumeralPart cs
  unfold numeric at h
  grind

/-- What follows a token is no longer than what follows its first character. -/
theorem length_of_lexeme {c : Char} {cs rest : List Char} {t : Token} (h : lexeme c cs = .ok (t, rest)) :
    rest.length ≤ cs.length := by
  unfold lexeme at h
  split at h
  · simp_all
  split at h
  · cases hr : inequality c cs with
    | error e => simp [hr, Except.map] at h
    | ok p =>
      simp only [hr, Except.map, Except.ok.injEq, Prod.mk.injEq] at h
      exact h.2 ▸ length_of_inequality hr
  split at h
  · cases hr : readText c cs with
    | error e => simp [hr, Except.map] at h
    | ok p =>
      simp only [hr, Except.map, Except.ok.injEq, Prod.mk.injEq] at h
      exact h.2 ▸ Nat.le_of_lt (length_of_readText hr)
  split at h
  · exact length_of_marked h
  split at h
  · exact length_of_numeric h
  split at h
  · simp only [Except.ok.injEq, Prod.mk.injEq] at h
    exact h.2 ▸ length_dropWhile_le isNamePart cs
  · simp at h

/-- The tokens of a sequence of characters. -/
def tokenize : List Char → Except TokenFault (List Token)
  | [] => .ok []
  | c :: cs =>
    if isBlank c then tokenize cs
    else
      match h : lexeme c cs with
      | .error fault => .error fault
      | .ok (t, rest) =>
        have := length_of_lexeme h
        (tokenize rest).map (t :: ·)
termination_by cs => cs.length
decreasing_by all_goals (simp only [List.length_cons]; omega)

end DocQuery.Expression
