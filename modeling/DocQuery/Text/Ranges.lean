/-!
# Classes of characters as ranges of code points

A class given by a standard is a list of closed ranges; a regular stretch of a mapping is a range with a stride and an offset.
-/

namespace DocQuery.Text

/-- Whether a code point lies in one of the closed ranges. -/
def inRanges (ranges : List (Nat × Nat)) (n : Nat) : Bool :=
  ranges.any fun range => range.1 ≤ n && n ≤ range.2

/-- A stretch of a character mapping: every `stride`-th code point from `first` to `last` moves by `offset`. -/
structure Shift where
  /-- The first code point that moves. -/
  first : Nat
  /-- The last code point that moves. -/
  last : Nat
  /-- The distance between two code points that move. -/
  stride : Nat
  /-- How far each of them moves. -/
  offset : Int
  deriving DecidableEq, Repr

/-- Whether a stretch moves this code point. -/
def Shift.covers (s : Shift) (n : Nat) : Bool :=
  s.first ≤ n && n ≤ s.last && (n - s.first) % s.stride == 0

/-- The image of a code point under the stretches, itself where none covers it. -/
def shiftBy (shifts : List Shift) (n : Nat) : Nat :=
  match shifts.find? (·.covers n) with
  | some s => ((n : Int) + s.offset).toNat
  | none => n

end DocQuery.Text
