import DocQuery.Decimal.Binary64
import DocQuery.Fields

/-!
# JSON values

The values that records are made of. A number is an integer that fits 64 bits, signed or not, or a finite binary64 number; the two
kinds stay apart, so that `1` and `1.0` are different values. Equality of objects disregards the order of their members, although
the order is kept.
-/

namespace DocQuery

/-- An integer in the joint range of signed and unsigned 64-bit integers. -/
abbrev WideInt : Type := { i : Int // -0x8000000000000000 ≤ i ∧ i < 0x10000000000000000 }

/-- The integer, if it is in range. -/
def WideInt.ofInt? (i : Int) : Option WideInt :=
  if h : -0x8000000000000000 ≤ i ∧ i < 0x10000000000000000 then some ⟨i, h⟩ else none

/-- A signed 64-bit integer. -/
def WideInt.ofInt64 (i : Int64) : WideInt :=
  ⟨i.toInt, by have := i.le_toInt; have := i.toInt_lt; omega⟩

/-- A JSON number. -/
inductive Number where
  | int (i : WideInt)
  | float (x : Decimal.Binary64)
  deriving DecidableEq, Repr

namespace Number

/-- Equality of numbers of one kind by value; an integer never equals a binary64 number. -/
def same : Number → Number → Bool
  | .int i, .int j => i.val == j.val
  | .float x, .float y => x.same y
  | _, _ => false

/-- The number as a signed 64-bit integer, where it is one. -/
def int64? : Number → Option Int64
  | .int i => if i.val < 0x8000000000000000 then some (Int64.ofInt i.val) else none
  | .float _ => none

/-- Where the binary64 number nearest to the number stands: numbers are compared by it. -/
def position : Number → Int
  | .int i => Decimal.integerPosition i.val
  | .float x => x.position

end Number

/-- A JSON value; the members of an object keep their order. -/
inductive Json where
  | null
  | bool (b : Bool)
  | num (n : Number)
  | str (s : String)
  | arr (items : List Json)
  | obj (members : List (String × Json))
  deriving Repr, Inhabited

/-- A record: the members of an object. -/
abbrev Document := Fields Json

namespace Json

mutual

/-- Equality of values, where the order of members does not count. -/
def same : Json → Json → Bool
  | .null, .null => true
  | .bool a, .bool b => a == b
  | .num a, .num b => a.same b
  | .str a, .str b => a == b
  | .arr as, .arr bs => sameItems as bs
  | .obj as, .obj bs => as.length == bs.length && sameMembers as bs
  | _, _ => false

/-- Equality of arrays, item by item. -/
def sameItems : List Json → List Json → Bool
  | [], [] => true
  | a :: as, b :: bs => same a b && sameItems as bs
  | _, _ => false

/-- Whether every member of the first object is in the second one, with an equal value. -/
def sameMembers : List (String × Json) → List (String × Json) → Bool
  | [], _ => true
  | (k, a) :: rest, others =>
    (match Fields.get? others k with
      | some b => same a b
      | none => false) && sameMembers rest others

end

instance : BEq Json := ⟨same⟩

/-- A signed 64-bit integer as a value. -/
def ofInt64 (i : Int64) : Json := .num (.int (WideInt.ofInt64 i))

/-- The text, where the value is one. -/
def str? : Json → Option String
  | .str s => some s
  | _ => none

/-- The truth value, where the value is one. -/
def bool? : Json → Option Bool
  | .bool b => some b
  | _ => none

/-- The members, where the value is an object. -/
def obj? : Json → Option Document
  | .obj members => some members
  | _ => none

/-- The items, where the value is an array. -/
def arr? : Json → Option (List Json)
  | .arr items => some items
  | _ => none

/-- The signed 64-bit integer, where the value is one. -/
def int64? : Json → Option Int64
  | .num n => n.int64?
  | _ => none

end Json

end DocQuery
