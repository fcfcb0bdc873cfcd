import DocQuery.Decimal.Shortest
import DocQuery.Text.Letter

/-!
# Reading numerals

Digits stand for a natural number by the usual positional rule. Two readings of a decimal exist side by side. An attribute's
numeral is read exactly: the nearest binary64 number is taken. A document's numeral is read in two steps, as a significand of at
most 64 bits and a power of ten, each of which is rounded, so that the last bit may differ from the nearest number.
-/

namespace DocQuery.Decimal

open DocQuery.Text (isAsciiDigit)

/-- The number a digit stands for. -/
def digitValue (c : Char) : Nat := c.toNat - 0x30

/-- The number that digits stand for, after the number `n` that the digits before them stand for. -/
def digitsValue (n : Nat) (ds : List Char) : Nat := ds.foldl (fun m c => 10 * m + digitValue c) n

/-- An integer with an optional sign, of digits only. -/
def integer? (cs : List Char) : Option Int :=
  let natural? (ds : List Char) : Option Nat :=
    if !ds.isEmpty && ds.all isAsciiDigit then some (digitsValue 0 ds) else none
  match cs with
  | '-' :: ds => (natural? ds).map fun n => -(n : Int)
  | '+' :: ds => (natural? ds).map Int.ofNat
  | ds => (natural? ds).map Int.ofNat

/-- The parts of an unsigned decimal numeral. -/
structure Numeral where
  /-- The digits before the point. -/
  whole : List Char
  /-- The digits after the point. -/
  fraction : List Char
  /-- The power of ten after the exponent mark. -/
  power : Int
  deriving DecidableEq, Repr

/-- An optional exponent: a mark, an optional sign, digits, and then the end. -/
def power? : List Char → Option Int
  | [] => some 0
  | mark :: cs => if mark = 'e' ∨ mark = 'E' then integer? cs else none

/-- A decimal numeral with digits on at least one side of the point. -/
def numeral? (cs : List Char) : Option Numeral :=
  let whole := cs.takeWhile isAsciiDigit
  match cs.dropWhile isAsciiDigit with
  | '.' :: rest =>
    let fraction := rest.takeWhile isAsciiDigit
    if whole.isEmpty && fraction.isEmpty then none
    else (power? (rest.dropWhile isAsciiDigit)).map (⟨whole, fraction, ·⟩)
  | rest => if whole.isEmpty then none else (power? rest).map (⟨whole, [], ·⟩)

/-- The rank of the number nearest to `digits` times ten to the power `exponent`. Numbers that are out of range by their count of
digits alone are settled without computing the power. -/
def decimalRank (digits : Nat) (exponent : Int) : Nat :=
  if digits = 0 then 0
  else
    let top := (digitCount digits : Int) + exponent
    if 310 < top then rankLimit
    else if top < -330 then 0
    else Scientific.rank ⟨digits, exponent⟩

/-- The number nearest to a numeral, if it is finite. -/
def Numeral.nearest? (negative : Bool) (n : Numeral) : Option Binary64 :=
  let digits := digitsValue (digitsValue 0 n.whole) n.fraction
  Binary64.ofRank? negative (decimalRank digits (n.power - n.fraction.length))

/-- A decimal with an optional sign, as the number nearest to it. -/
def decimal? (cs : List Char) : Option Binary64 :=
  match cs with
  | '-' :: rest => (numeral? rest).bind (Numeral.nearest? true)
  | '+' :: rest => (numeral? rest).bind (Numeral.nearest? false)
  | rest => (numeral? rest).bind (Numeral.nearest? false)

/-- The largest significand of the two-step reading. -/
def significandLimit : Nat := UInt64.size

/-- Takes digits into the significand as long as it stays within 64 bits; the digits left over are returned. -/
def takeDigits (significand : Nat) : List Char → Nat × List Char
  | [] => (significand, [])
  | c :: rest =>
    let next := 10 * significand + digitValue c
    if next < significandLimit then takeDigits next rest else (significand, c :: rest)

/-- The rank of ten to the power `k`, for `k` up to 308. -/
def powerOfTenRank (k : Nat) : Nat := nearestRank (Nat.pow 10 k) 1

/-- Multiplies a rank by a power of ten in steps of at most 308, each of which rounds; `none` beyond the finite numbers. Only
`fuel` steps are taken, and three of them bring any significand down to zero. -/
def scaleRank : Nat → Nat → Int → Option Nat
  | 0, r, _ => some r
  | fuel + 1, r, power =>
    if power.natAbs ≤ 308 then
      if 0 ≤ power then
        let product := rankMul r (powerOfTenRank power.natAbs)
        if product < rankLimit then some product else none
      else some (rankDiv r (powerOfTenRank power.natAbs))
    else if r = 0 then some 0
    else if 0 ≤ power then none
    else scaleRank fuel (rankDiv r (powerOfTenRank 308)) (power + 308)

/-- A numeral read in two steps. Digits of the whole part that do not fit the significand still count as places; those of the
fraction are dropped. -/
def Numeral.twoStep? (negative : Bool) (n : Numeral) : Option Binary64 :=
  let (high, spare) := takeDigits 0 n.whole
  let (significand, dropped) := takeDigits high n.fraction
  let places : Int := (spare.length : Int) - ((n.fraction.length : Int) - dropped.length)
  (scaleRank 8 (nearestRank significand 1) (places + n.power)).bind (Binary64.ofRank? negative)

end DocQuery.Decimal
