import DocQuery.Decimal.Numeral
import DocQuery.Json.Basic

/-!
# JSON text as it stands

Reading happens in two steps. The first one checks the grammar and keeps what is written: repeated members, numbers outside the
range and texts that are no texts (an unpaired half of a surrogate pair) do not stop it, they are only marked. The second one
(`Raw.toJson?`) turns the tree into a value, and fails where a mark is, or where arrays and objects are nested too deeply. A reader
that has no use for a part of the tree need not look at it.
-/

namespace DocQuery

/-- JSON text by its grammar. -/
inductive Raw where
  | null
  | bool (b : Bool)
  /-- A number, absent where it is too large for a binary64 number. -/
  | num (n : Option Number)
  /-- A text, absent where it holds an unpaired surrogate. -/
  | str (s : Option String)
  | arr (items : List Raw)
  /-- An object with all members that are written. -/
  | obj (members : List (Option String × Raw))
  deriving Repr, Inhabited

namespace Raw

open DocQuery.Text (isAsciiDigit)

/-- The blanks between the parts of a JSON text. -/
def isSpace (c : Char) : Bool := c = ' ' || c = '\n' || c = '\r' || c = '\t'

/-- What follows the blanks. -/
def skipSpace (cs : List Char) : List Char := cs.dropWhile isSpace

/-- The value of a hexadecimal digit. -/
def hexValue? (c : Char) : Option Nat :=
  if isAsciiDigit c then some (c.toNat - 0x30)
  else if 0x61 ≤ c.toNat ∧ c.toNat ≤ 0x66 then some (c.toNat - 0x61 + 10)
  else if 0x41 ≤ c.toNat ∧ c.toNat ≤ 0x46 then some (c.toNat - 0x41 + 10)
  else none

/-- The value of four hexadecimal digits. -/
def hexValue4? (a b c d : Char) : Option Nat := do
  some ((((← hexValue? a) * 16 + (← hexValue? b)) * 16 + (← hexValue? c)) * 16 + (← hexValue? d))

/-- A part of a text between quotes: a character, or a 16-bit unit written by its number. -/
inductive Part where
  | char (c : Char)
  | unit (n : Nat)
  deriving DecidableEq, Repr

/-- The character after a backslash, for the escapes of one character. -/
def shortEscape? (c : Char) : Option Char :=
  if c = '"' ∨ c = '\\' ∨ c = '/' then some c
  else if c = 'b' then some (Char.ofNat 0x8)
  else if c = 'f' then some (Char.ofNat 0xC)
  else if c = 'n' then some '\n'
  else if c = 'r' then some '\r'
  else if c = 't' then some '\t'
  else none

/-- The parts of a text up to the closing quote, and what follows it. -/
def readParts : List Char → Option (List Part × List Char)
  | [] => none
  | '"' :: rest => some ([], rest)
  | '\\' :: 'u' :: a :: b :: c :: d :: rest => do
    let n ← hexValue4? a b c d
    let (parts, rest) ← readParts rest
    some (.unit n :: parts, rest)
  | '\\' :: e :: rest => do
    let c ← shortEscape? e
    let (parts, rest) ← readParts rest
    some (.char c :: parts, rest)
  | c :: rest =>
    if c.toNat < 0x20 then none
    else do
      let (parts, rest) ← readParts rest
      some (.char c :: parts, rest)

/-- The first half of a surrogate pair. -/
def isHighSurrogate (n : Nat) : Bool := 0xD800 ≤ n && n ≤ 0xDBFF

/-- The second half of a surrogate pair. -/
def isLowSurrogate (n : Nat) : Bool := 0xDC00 ≤ n && n ≤ 0xDFFF

/-- The characters that the parts spell, unless half of a surrogate pair stands alone. -/
def spell : List Part → Option (List Char)
  | [] => some []
  | .char c :: rest => (spell rest).map (c :: ·)
  | .unit high :: .unit low :: rest =>
    if isHighSurrogate high then
      if isLowSurrogate low then
        (spell rest).map (Char.ofNat (0x10000 + (high - 0xD800) * 0x400 + (low - 0xDC00)) :: ·)
      else none
    else if isLowSurrogate high then none
    else (spell (.unit low :: rest)).map (Char.ofNat high :: ·)
  | .unit n :: rest =>
    if isHighSurrogate n || isLowSurrogate n then none else (spell rest).map (Char.ofNat n :: ·)

/-- A text up to the closing quote, and what follows it. -/
def readText (cs : List Char) : Option (Option String × List Char) :=
  (readParts cs).map fun (parts, rest) => ((spell parts).map String.ofList, rest)

/-- An integer numeral as a number. Beyond 64 bits, and for a zero with a minus sign, it is a binary64 number. -/
def integerNumber? (negative : Bool) (whole : List Char) : Option Number :=
  let n := Decimal.digitsValue 0 whole
  let exact := if negative then n ≠ 0 ∧ n ≤ 0x8000000000000000 else n < UInt64.size
  if exact then (WideInt.ofInt? (if negative then -(n : Int) else n)).map Number.int
  else (Decimal.Numeral.twoStep? negative ⟨whole, [], 0⟩).map Number.float

/-- The part of a numeral after its integer digits: the fraction, the power, and what follows. A numeral with neither is integral. -/
def readTail (cs : List Char) : Option (Option (List Char × Int) × List Char) := do
  let (fraction, rest, dotted) ← match cs with
    | '.' :: cs =>
      let digits := cs.takeWhile isAsciiDigit
      if digits.isEmpty then none else some (digits, cs.dropWhile isAsciiDigit, true)
    | cs => some ([], cs, false)
  match rest with
  | mark :: cs =>
    if mark = 'e' ∨ mark = 'E' then
      let (sign, cs) := match cs with
        | '-' :: cs => (-1, cs)
        | '+' :: cs => (1, cs)
        | cs => ((1 : Int), cs)
      let digits := cs.takeWhile isAsciiDigit
      if digits.isEmpty then none
      else some (some (fraction, sign * Decimal.digitsValue 0 digits), cs.dropWhile isAsciiDigit)
    else some (if dotted then some (fraction, 0) else none, rest)
  | [] => some (if dotted then some (fraction, 0) else none, [])

/-- A number, and what follows it. -/
def readNumber (cs : List Char) : Option (Option Number × List Char) := do
  let (negative, cs) := match cs with
    | '-' :: cs => (true, cs)
    | cs => (false, cs)
  let digits := cs.takeWhile isAsciiDigit
  if digits.isEmpty || (digits.head? == some '0' && digits.length != 1) then none
  let (tail, rest) ← readTail (cs.dropWhile isAsciiDigit)
  match tail with
  | none => some (integerNumber? negative digits, rest)
  | some (fraction, power) =>
    some ((Decimal.Numeral.twoStep? negative ⟨digits, fraction, power⟩).map Number.float, rest)

mutual

/-- A value, and what follows it. The first argument bounds the number of nested calls. -/
def readValue : Nat → List Char → Option (Raw × List Char)
  | 0, _ => none
  | fuel + 1, cs =>
    match skipSpace cs with
    | 'n' :: 'u' :: 'l' :: 'l' :: rest => some (.null, rest)
    | 't' :: 'r' :: 'u' :: 'e' :: rest => some (.bool true, rest)
    | 'f' :: 'a' :: 'l' :: 's' :: 'e' :: rest => some (.bool false, rest)
    | '"' :: rest => (readText rest).map fun (s, rest) => (.str s, rest)
    | '[' :: rest =>
      match skipSpace rest with
      | ']' :: rest => some (.arr [], rest)
      | rest => (readItems fuel rest).map fun (items, rest) => (.arr items, rest)
    | '\x7b' :: rest =>
      match skipSpace rest with
      | '\x7d' :: rest => some (.obj [], rest)
      | rest => (readMembers fuel rest).map fun (members, rest) => (.obj members, rest)
    | cs => (readNumber cs).map fun (n, rest) => (.num n, rest)

/-- The items of an array up to its closing bracket, at least one, and what follows. -/
def readItems : Nat → List Char → Option (List Raw × List Char)
  | 0, _ => none
  | fuel + 1, cs => do
    let (item, rest) ← readValue fuel cs
    match skipSpace rest with
    | ',' :: rest =>
      let (items, rest) ← readItems fuel rest
      some (item :: items, rest)
    | ']' :: rest => some ([item], rest)
    | _ => none

/-- The members of an object up to its closing brace, at least one, and what follows. -/
def readMembers : Nat → List Char → Option (List (Option String × Raw) × List Char)
  | 0, _ => none
  | fuel + 1, cs => do
    let (key, rest) ← match skipSpace cs with
      | '"' :: rest => readText rest
      | _ => none
    let rest ← match skipSpace rest with
      | ':' :: rest => some rest
      | _ => none
    let (value, rest) ← readValue fuel rest
    match skipSpace rest with
    | ',' :: rest =>
      let (members, rest) ← readMembers fuel rest
      some ((key, value) :: members, rest)
    | '\x7d' :: rest => some ([(key, value)], rest)
    | _ => none

end

/-- A whole JSON text. Every nested call consumes a character, or two calls share one, so the bound is never met. -/
def parse? (s : String) : Option Raw :=
  let cs := s.toList
  match readValue (2 * cs.length + 2) cs with
  | some (raw, rest) => if (skipSpace rest).isEmpty then some raw else none
  | none => none

/-- How many arrays and objects may be nested in one another. -/
def maxDepth : Nat := 127

mutual

/-- The value a tree stands for, with at most `depth` levels of arrays and objects. -/
def toJson? (depth : Nat) : Raw → Option Json
  | .null => some .null
  | .bool b => some (.bool b)
  | .num n => n.map .num
  | .str s => s.map .str
  | .arr items => if depth = 0 then none else (itemsToJson? (depth - 1) items).map .arr
  | .obj members => if depth = 0 then none else (membersToJson? (depth - 1) members).map fun ms => .obj (Fields.ofList ms)

/-- The values of the items of an array. -/
def itemsToJson? (depth : Nat) : List Raw → Option (List Json)
  | [] => some []
  | raw :: rest => do some ((← toJson? depth raw) :: (← itemsToJson? depth rest))

/-- The values of the members of an object, repeated ones included. -/
def membersToJson? (depth : Nat) : List (Option String × Raw) → Option (List (String × Json))
  | [] => some []
  | (key, raw) :: rest => do some ((← key, ← toJson? depth raw) :: (← membersToJson? depth rest))

end

end Raw

/-- The value a JSON text stands for. -/
def Json.parse? (s : String) : Option Json := (Raw.parse? s).bind (Raw.toJson? Raw.maxDepth)

end DocQuery
