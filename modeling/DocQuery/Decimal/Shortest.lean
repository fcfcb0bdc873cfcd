import DocQuery.Decimal.Binary64

/-!
# The shortest decimal that reads back

A binary64 number is written with the fewest digits that single it out: the shortest decimal whose nearest binary64 number it is,
and of the shortest ones the nearest to it. Where two are equally near, the caller says which to take.
-/

namespace DocQuery.Decimal

/-- Which of two equally near decimals to take. -/
inductive Tie where
  | toEven | up
  deriving DecidableEq, Repr

/-- A positive decimal: `digits` times ten to the power `exponent`. -/
structure Scientific where
  /-- The digits, read as a natural number. -/
  digits : Nat
  /-- The power of ten they are multiplied by. -/
  exponent : Int
  deriving DecidableEq, Repr

namespace Scientific

/-- The value as a quotient. -/
def ratio (d : Scientific) : Nat × Nat :=
  match d.exponent with
  | .ofNat k => (d.digits * Nat.pow 10 k, 1)
  | .negSucc k => (d.digits, Nat.pow 10 (k + 1))

/-- The rank of the binary64 number nearest to the decimal. -/
def rank (d : Scientific) : Nat := nearestRank d.ratio.1 d.ratio.2

/-- The same decimal without trailing zeros; at most `fuel` of them are dropped. -/
def trim : Nat → Scientific → Scientific
  | 0, d => d
  | fuel + 1, d =>
    if d.digits ≠ 0 ∧ d.digits % 10 = 0 then trim fuel ⟨d.digits / 10, d.exponent + 1⟩ else d

end Scientific

/-- How many decimal digits a natural number has. -/
def digitCount (n : Nat) : Nat := (Nat.toDigits 10 n).length

/-- The power of ten of the leading digit of a positive quotient. -/
def leadingPower (num den : Nat) : Int :=
  if den ≤ num then (digitCount (num / den) : Int) - 1
  else
    let length := digitCount (den / num)
    if num * Nat.pow 10 (length - 1) = den then 1 - (length : Int) else -(length : Int)

/-- The decimals with last place `exponent` on both sides of a quotient, the lower one first, and how the quotient lies between
them: twice its distance from the lower one against the whole step. -/
def neighbours (num den : Nat) (exponent : Int) : Scientific × Scientific × Ordering :=
  let scaled : Nat × Nat := match exponent with
    | .ofNat k => (num, den * Nat.pow 10 k)
    | .negSucc k => (num * Nat.pow 10 (k + 1), den)
  let below := scaled.1 / scaled.2
  (⟨below, exponent⟩, ⟨below + 1, exponent⟩, compare (2 * (scaled.1 % scaled.2)) scaled.2)

/-- The decimal with last place `exponent` that reads back as the rank and is nearest to it, if there is one. -/
def candidate? (tie : Tie) (r : Nat) (exponent : Int) : Option Scientific :=
  let value := rankRatio r
  let (below, above, lean) := neighbours value.1 value.2 exponent
  match decide (below.rank = r), decide (above.rank = r) with
  | false, false => none
  | true, false => some below
  | false, true => some above
  | true, true =>
    match lean with
    | .lt => some below
    | .gt => some above
    | .eq => if tie = .toEven ∧ below.digits % 2 = 0 then some below else some above

/-- The exact value of a rank as a decimal. -/
def exactDecimal (r : Nat) : Scientific :=
  match rankExponent r with
  | .ofNat k => ⟨rankSignificand r * Nat.pow 2 k, 0⟩
  | .negSucc k => ⟨rankSignificand r * Nat.pow 5 (k + 1), -((k : Int) + 1)⟩

/-- The shortest decimal for a positive rank. Seventeen digits always suffice; the exact value stands behind them so that the
result reads back by construction. -/
def shortest (tie : Tie) (r : Nat) : Scientific :=
  let value := rankRatio r
  let top := leadingPower value.1 value.2
  match (List.range 17).findSome? fun (n : Nat) => candidate? tie r (top - n) with
  | some d => d.trim 20
  | none => exactDecimal r

end DocQuery.Decimal
