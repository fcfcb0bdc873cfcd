import DocQuery.Json.Basic

/-!
# Comparing values

Two values of one scalar type are compared by number, by code points, or with false before true. A number is taken as the nearest
binary64 number, so integers beyond 53 bits that round alike compare as equal. Arrays and objects compare with their equals only.
For sorting, values of different types are ranked by their type, and a missing value comes first.
-/

namespace DocQuery.Json

/-- The order of two values, where they have one. -/
def compare? (a b : Json) : Option Ordering :=
  match a, b with
  | .num x, .num y => some (compare x.position y.position)
  | .str x, .str y => some (compare x y)
  | .bool x, .bool y => some (compare x y)
  | .null, .null => some .eq
  | a, b => if a.same b then some .eq else none

/-- The rank of a value's type, from zero for a missing value. -/
def typeRank : Option Json → Nat
  | none => 0
  | some .null => 1
  | some (.bool _) => 2
  | some (.num _) => 3
  | some (.str _) => 4
  | some (.arr _) => 5
  | some (.obj _) => 6

/-- The order in which values are sorted: by type, and within a scalar type by value. -/
def sortCompare (a b : Option Json) : Ordering :=
  match a, b with
  | some x, some y => (compare? x y).getD (compare (typeRank a) (typeRank b))
  | _, _ => compare (typeRank a) (typeRank b)

end DocQuery.Json
