/-!
# Binary64 numbers by rank

The finite nonnegative binary64 numbers, in order, are numbered from zero: that number is the rank. Rank and value are tied by
exact arithmetic on natural numbers: the value of a rank is a significand times a power of two, and the rank of a quotient is
that of the number nearest to it, the even one where two are equally near. Ranks from `rankLimit` on lie beyond the largest
finite number.
-/

namespace DocQuery.Decimal

/-- How many numbers lie from one power of two to the next. -/
def binade : Nat := 0x10000000000000

/-- The first rank that no finite number has. -/
def rankLimit : Nat := 0x7FF * binade

/-- The significand of a rank. -/
def rankSignificand (r : Nat) : Nat :=
  if r < binade then r else binade + r % binade

/-- The power of two that the significand of a rank is multiplied by. -/
def rankExponent (r : Nat) : Int :=
  if r < binade then -1074 else (r / binade : Nat) - 1075

/-- A positive quotient divided by a power of two, as a quotient. -/
def scaleDown (num den : Nat) : Int → Nat × Nat
  | .ofNat k => (num, den * Nat.pow 2 k)
  | .negSucc k => (num * Nat.pow 2 (k + 1), den)

/-- The value of a rank as a quotient. -/
def rankRatio (r : Nat) : Nat × Nat := scaleDown (rankSignificand r) 1 (-rankExponent r)

/-- The integer nearest to a quotient, the even one where two are equally near. -/
def divNearest (num den : Nat) : Nat :=
  let q := num / den
  let twice := 2 * (num % den)
  if twice < den then q
  else if den < twice then q + 1
  else if q % 2 = 0 then q else q + 1

/-- The greatest power of two that does not exceed a positive quotient, by its exponent. -/
def ratioLog2 (num den : Nat) : Int :=
  let guess : Int := (num.log2 : Int) - den.log2
  let scaled := scaleDown num den guess
  if scaled.2 ≤ scaled.1 then guess else guess - 1

/-- The rank of the number nearest to a quotient. -/
def nearestRank (num den : Nat) : Nat :=
  if num = 0 then 0
  else
    let power : Int := max (ratioLog2 num den - 52) (-1074)
    let scaled := scaleDown num den power
    (power + 1074).toNat * binade + divNearest scaled.1 scaled.2

/-- The rank of the number nearest to the product of two. -/
def rankMul (a b : Nat) : Nat :=
  let x := rankRatio a
  let y := rankRatio b
  nearestRank (x.1 * y.1) (x.2 * y.2)

/-- The rank of the number nearest to the quotient of two. -/
def rankDiv (a b : Nat) : Nat :=
  let x := rankRatio a
  let y := rankRatio b
  nearestRank (x.1 * y.2) (x.2 * y.1)

/-- A finite binary64 number: a sign and a rank. -/
structure Binary64 where
  /-- Whether the number carries a minus sign; zero may carry one too. -/
  negative : Bool
  /-- The rank of its magnitude. -/
  rank : Nat
  /-- The magnitude is finite. -/
  rank_lt : rank < rankLimit
  deriving DecidableEq, Repr

namespace Binary64

/-- The number with this sign and rank, if it is finite. -/
def ofRank? (negative : Bool) (rank : Nat) : Option Binary64 :=
  if h : rank < rankLimit then some ⟨negative, rank, h⟩ else none

/-- The number nearest to a natural number; past the finite numbers the largest of them, which no 64-bit integer reaches. -/
def ofNat (n : Nat) : Binary64 :=
  ⟨false, min (nearestRank n 1) (rankLimit - 1), Nat.lt_of_le_of_lt (Nat.min_le_right _ _) (by decide)⟩

/-- Where the number stands among all finite numbers, both zeros at 0. -/
def position (x : Binary64) : Int := if x.negative then -(x.rank : Int) else x.rank

/-- Numeric equality, under which the two zeros are equal. -/
def same (x y : Binary64) : Bool := x.position == y.position

/-- Whether the number is one of the two zeros. -/
def isZero (x : Binary64) : Bool := x.rank == 0

end Binary64

/-- Where the binary64 number nearest to an integer stands. -/
def integerPosition (i : Int) : Int :=
  if i < 0 then -(nearestRank i.natAbs 1 : Int) else nearestRank i.natAbs 1

end DocQuery.Decimal
