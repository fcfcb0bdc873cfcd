import DocQuery.Decimal.Shortest

/-!
# How decimals are written

Two styles are in use. A document writes a number so that it cannot be taken for an integer: with a fraction, or with an
exponent where the number is very large or very small. An attribute writes it plainly, without an exponent and with a fraction
only where there is one.
-/

namespace DocQuery.Decimal

/-- The decimal digits of a natural number. -/
def naturalText (n : Nat) : List Char := Nat.toDigits 10 n

/-- The decimal digits of an integer, a minus sign before a negative one. -/
def integerText (i : Int) : List Char :=
  if i < 0 then '-' :: naturalText i.natAbs else naturalText i.natAbs

/-- The choices a style makes. -/
structure Style where
  /-- Which of two equally near shortest decimals is written. -/
  tie : Tie
  /-- Whether an integral number is written with `.0`. -/
  keepsPoint : Bool
  /-- The powers of ten of the leading digit from which on the number is written with an exponent, the lower bound excluded and
  the upper one included; without bounds it never is. -/
  bounds : Option (Int × Int)
  deriving DecidableEq, Repr

/-- Documents: plain from 0.00001 up to ten to the sixteenth, always with a fraction or an exponent. -/
def Style.document : Style := ⟨.toEven, true, some (-6, 16)⟩

/-- Attributes: always plain, a fraction only where there is one. -/
def Style.attribute : Style := ⟨.up, false, none⟩

/-- Digits with the decimal point after the first `point` of them; `point` may lie outside the digits. -/
def positional (keepsPoint : Bool) (ds : List Char) (point : Int) : List Char :=
  if point ≤ 0 then ['0', '.'] ++ List.replicate (-point).toNat '0' ++ ds
  else if (ds.length : Int) ≤ point then
    ds ++ List.replicate (point - ds.length).toNat '0' ++ (if keepsPoint then ['.', '0'] else [])
  else ds.take point.toNat ++ ['.'] ++ ds.drop point.toNat

/-- One digit, the others as a fraction, and the power of ten with its sign. -/
def exponential (ds : List Char) (power : Int) : List Char :=
  ds.take 1 ++ (if ds.length ≤ 1 then [] else '.' :: ds.drop 1) ++
    ['e', if power < 0 then '-' else '+'] ++ naturalText power.natAbs

/-- The magnitude with this rank. -/
def Style.writeRank (style : Style) (r : Nat) : List Char :=
  if r = 0 then positional style.keepsPoint ['0'] 1
  else
    let d := shortest style.tie r
    let ds := naturalText d.digits
    let point := (ds.length : Int) + d.exponent
    match style.bounds with
    | some (low, high) =>
      if low < point - 1 ∧ point - 1 < high then positional style.keepsPoint ds point else exponential ds (point - 1)
    | none => positional style.keepsPoint ds point

/-- A finite number in a style. -/
def Style.write (style : Style) (x : Binary64) : List Char :=
  (if x.negative then ['-'] else []) ++ style.writeRank x.rank

end DocQuery.Decimal
