import DocQuery.Decimal.Numeral
import DocQuery.Settings.Node
import DocQuery.Time.Instant

/-!
# Numerals, dates and times

Every reader returns what it read and the characters after it. An integer is decimal with an optional sign and no leading zeros, or
hexadecimal, octal or binary without a sign, and has at most 64 bits. Between two digits an underscore may stand. A date is a day
of the calendar; a time of day has seconds, and a leap second is admitted.
-/

namespace DocQuery.Settings.Toml

open DocQuery.Text (isAsciiDigit)

/-- Digits after a first one, single underscores between them left out. -/
def digitsAfter (isDigit : Char → Bool) : List Char → Option (List Char × List Char)
  | '_' :: d :: rest =>
    if isDigit d then (digitsAfter isDigit rest).map fun (ds, rest) => (d :: ds, rest) else none
  | '_' :: [] => none
  | c :: rest =>
    if isDigit c then (digitsAfter isDigit rest).map fun (ds, rest) => (c :: ds, rest) else some ([], c :: rest)
  | [] => some ([], [])

/-- Digits, at least one, single underscores between them left out. -/
def digits (isDigit : Char → Bool) : List Char → Option (List Char × List Char)
  | d :: rest => if isDigit d then (digitsAfter isDigit rest).map fun (ds, rest) => (d :: ds, rest) else none
  | [] => none

/-- The digits of a decimal integer: a zero alone, or digits that begin with another one. -/
def wholeDigits : List Char → Option (List Char × List Char)
  | '0' :: rest => some (['0'], rest)
  | cs => digits isAsciiDigit cs

/-- An optional sign: whether it is a minus. -/
def sign : List Char → Bool × List Char
  | '-' :: rest => (true, rest)
  | '+' :: rest => (false, rest)
  | cs => (false, cs)

/-- The power of ten of a number in scientific form. -/
def power (cs : List Char) : Option (Int × List Char) := do
  let (negative, cs) := sign cs
  let (ds, rest) ← digits isAsciiDigit cs
  let n := Decimal.digitsValue 0 ds
  some (if negative then -(n : Int) else n, rest)

/-- An optional power of ten after its mark. -/
def powerPart : List Char → Option (Option Int × List Char)
  | mark :: rest =>
    if mark = 'e' ∨ mark = 'E' then (power rest).map fun (p, rest) => (some p, rest) else some (none, mark :: rest)
  | [] => some (none, [])

/-- An optional fraction after its point. -/
def fractionPart : List Char → Option (Option (List Char) × List Char)
  | '.' :: rest => (digits isAsciiDigit rest).map fun (ds, rest) => (some ds, rest)
  | cs => some (none, cs)

/-- A number too large for a binary64 number is refused if it is positive; a negative one counts as minus infinity. -/
def decimal? (negative : Bool) (numeral : Decimal.Numeral) : Option Node :=
  if negative || (numeral.nearest? negative).isSome then some .decimal else none

/-- An integer of 64 bits. -/
def int64? (i : Int) : Option Node := if -0x8000000000000000 ≤ i ∧ i < 0x8000000000000000 then some (.int i) else none

/-- A decimal numeral, or infinity, or not a number. -/
def signedNumber (cs : List Char) : Option (Node × List Char) :=
  match sign cs with
  | (_, 'i' :: 'n' :: 'f' :: rest) | (_, 'n' :: 'a' :: 'n' :: rest) => some (.decimal, rest)
  | (negative, cs) => do
    let (whole, rest) ← wholeDigits cs
    let (fraction, rest) ← fractionPart rest
    let (power, rest) ← powerPart rest
    let node ← match fraction, power with
      | none, none =>
        let n := Decimal.digitsValue 0 whole
        int64? (if negative then -(n : Int) else n)
      | fraction, power => decimal? negative ⟨whole, fraction.getD [], power.getD 0⟩
    some (node, rest)

/-- The value of a hexadecimal digit. -/
def hexDigitValue (c : Char) : Nat := (Raw.hexValue? c).getD 0

/-- An integer in another base than ten, after its mark. -/
def basedNumber (base : Nat) (cs : List Char) : Option (Node × List Char) := do
  let (ds, rest) ← digits (fun c => (Raw.hexValue? c).any (· < base)) cs
  let node ← int64? (ds.foldl (fun n d => n * base + hexDigitValue d) 0)
  some (node, rest)

/-- A number. -/
def number : List Char → Option (Node × List Char)
  | '0' :: 'x' :: rest => basedNumber 16 rest
  | '0' :: 'o' :: rest => basedNumber 8 rest
  | '0' :: 'b' :: rest => basedNumber 2 rest
  | cs => signedNumber cs

/-- A number of exactly so many digits within bounds. -/
def fixed (count low high : Nat) (cs : List Char) : Option (Nat × List Char) :=
  let ds := cs.take count
  let n := Decimal.digitsValue 0 ds
  if ds.length = count && ds.all isAsciiDigit && low ≤ n && n ≤ high then some (n, cs.drop count) else none

/-- Skips one character. -/
def expect (c : Char) : List Char → Option (List Char)
  | d :: rest => if d = c then some rest else none
  | [] => none

/-- A day of the calendar, of which what follows is returned. -/
def day (cs : List Char) : Option (List Char) := do
  let (y, cs) ← fixed 4 0 9999 cs
  let cs ← expect '-' cs
  let (m, cs) ← fixed 2 1 12 cs
  let cs ← expect '-' cs
  let (d, cs) ← fixed 2 1 31 cs
  if d ≤ (Instant.monthLengths (Instant.isLeapYear y))[m - 1]?.getD 0 then some cs else none

/-- An hour and a minute. -/
def hourMinute (cs : List Char) : Option (List Char) := do
  let (_, cs) ← fixed 2 0 23 cs
  let cs ← expect ':' cs
  let (_, cs) ← fixed 2 0 59 cs
  some cs

/-- A time of day. -/
def timeOfDay (cs : List Char) : Option (List Char) := do
  let cs ← hourMinute cs
  let cs ← expect ':' cs
  let (_, cs) ← fixed 2 0 60 cs
  match cs with
  | '.' :: d :: rest => if isAsciiDigit d then some (rest.dropWhile isAsciiDigit) else some cs
  | _ => some cs

/-- An optional offset from universal time. -/
def offset : List Char → List Char
  | 'Z' :: rest | 'z' :: rest => rest
  | c :: rest => if c = '+' ∨ c = '-' then (hourMinute rest).getD (c :: rest) else c :: rest
  | [] => []

/-- An optional time of day after a date. -/
def timePart : List Char → List Char
  | mark :: rest =>
    if mark = 'T' ∨ mark = 't' ∨ mark = ' ' then ((timeOfDay rest).map offset).getD (mark :: rest) else mark :: rest
  | [] => []

/-- A date, perhaps with a time, or a time alone. -/
def dateOrTime (cs : List Char) : Option (Node × List Char) :=
  match day cs with
  | some rest => some (.date, timePart rest)
  | none => (timeOfDay cs).map (.date, ·)

end DocQuery.Settings.Toml
