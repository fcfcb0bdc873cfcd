import DocQuery.Settings.Toml.Scalar

/-!
# Quoted texts

A text stands between double quotes, with escapes, or between single quotes, as it is. With three quotes at both ends it may span
lines: a line end right after the opening quotes is left out, and a backslash at the end of a line takes the blanks after it along.
No control character stands in a text but the tab, and only a text of several lines has line ends, each of which counts as one
line feed.
-/

namespace DocQuery.Settings.Toml

/-- A character that may stand in a text or a comment as it is: no control character but the tab. -/
def isPlain (c : Char) : Bool := c = '\t' || (0x20 ≤ c.toNat && c.toNat ≠ 0x7F)

/-- A blank within a line. -/
def isSpace (c : Char) : Bool := c = ' ' || c = '\t'

/-- What follows the blanks of a line. -/
def skipSpace (cs : List Char) : List Char := cs.dropWhile isSpace

/-- The character of a code point, unless it is a surrogate or out of range. -/
def scalar? (n : Nat) : Option Char := if n.isValidChar then some (Char.ofNat n) else none

/-- The character that so many hexadecimal digits name. -/
def hexEscape (count : Nat) (cs : List Char) : Option (Char × List Char) := do
  let values ← (cs.take count).mapM Raw.hexValue?
  if values.length = count then
    let c ← scalar? (values.foldl (fun n d => 16 * n + d) 0)
    some (c, cs.drop count)
  else none

/-- The character after a backslash. -/
def escape : List Char → Option (Char × List Char)
  | 'b' :: rest => some (Char.ofNat 0x8, rest)
  | 'f' :: rest => some (Char.ofNat 0xC, rest)
  | 'n' :: rest => some ('\n', rest)
  | 'r' :: rest => some ('\r', rest)
  | 't' :: rest => some ('\t', rest)
  | '"' :: rest => some ('"', rest)
  | '\\' :: rest => some ('\\', rest)
  | 'u' :: rest => hexEscape 4 rest
  | 'U' :: rest => hexEscape 8 rest
  | _ => none

/-- What follows a line end. -/
def lineEnd? : List Char → Option (List Char)
  | '\n' :: rest | '\r' :: '\n' :: rest => some rest
  | _ => none

/-- What follows blanks and line ends; a carriage return alone is neither. -/
def skipLines : List Char → List Char
  | '\r' :: '\n' :: rest => skipLines rest
  | c :: rest => if c = '\n' || isSpace c then skipLines rest else c :: rest
  | [] => []

/-- A text in one line up to its closing quote. The first argument bounds the number of characters, escapes counting as one. -/
def oneLine (quote : Char) (escapes : Bool) : Nat → List Char → Option (List Char × List Char)
  | 0, _ => none
  | _ + 1, [] => none
  | fuel + 1, c :: rest =>
    if c = quote then some ([], rest)
    else if c = '\\' && escapes then do
      let (c, rest) ← escape rest
      let (cs, rest) ← oneLine quote escapes fuel rest
      some (c :: cs, rest)
    else if isPlain c then (oneLine quote escapes fuel rest).map fun (cs, rest) => (c :: cs, rest)
    else none

/-- A text of several lines up to its closing quotes. A run of up to two quotes belongs to the text, as do up to two right before
the closing ones. The first argument bounds the number of steps, each of which reads at least one character. -/
def manyLines (quote : Char) (escapes : Bool) : Nat → List Char → Option (List Char × List Char)
  | 0, _ => none
  | _ + 1, [] => none
  | fuel + 1, c :: rest =>
    if c = quote then
      let run := (rest.takeWhile (· = quote)).length + 1
      if run < 3 then (manyLines quote escapes fuel rest).map fun (cs, rest) => (c :: cs, rest)
      else if run ≤ 5 then some (List.replicate (run - 3) quote, rest.drop (run - 1))
      else none
    else if c = '\\' && escapes then
      match lineEnd? (skipSpace rest) with
      | some rest => manyLines quote escapes fuel (skipLines rest)
      | none => do
        let (c, rest) ← escape rest
        let (cs, rest) ← manyLines quote escapes fuel rest
        some (c :: cs, rest)
    else
      match lineEnd? (c :: rest) with
      | some rest => (manyLines quote escapes fuel rest).map fun (cs, rest) => ('\n' :: cs, rest)
      | none =>
        if isPlain c then (manyLines quote escapes fuel rest).map fun (cs, rest) => (c :: cs, rest) else none

/-- A quoted text in one line. -/
def lineText : List Char → Option (String × List Char)
  | c :: rest =>
    if c = '"' || c = '\'' then
      (oneLine c (c = '"') (rest.length + 1) rest).map fun (cs, rest) => (String.ofList cs, rest)
    else none
  | [] => none

/-- A quoted text, in one line or several. -/
def quotedText : List Char → Option (String × List Char)
  | a :: b :: c :: rest =>
    if a = b ∧ b = c ∧ (a = '"' ∨ a = '\'') then
      let body := (lineEnd? rest).getD rest
      (manyLines a (a = '"') (body.length + 1) body).map fun (cs, rest) => (String.ofList cs, rest)
    else lineText (a :: b :: c :: rest)
  | cs => lineText cs

end DocQuery.Settings.Toml
