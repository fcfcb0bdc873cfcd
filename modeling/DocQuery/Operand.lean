import DocQuery.Json.Printer
import DocQuery.Time.Instant

/-!
# Operands of a filter

A filter compares a field with scalars: truth values, 64-bit integers, binary64 numbers, texts and instants. The kind of an
operand implies the type that the field is filtered as. Documents hold no instants: an instant is stored and compared as its text.
-/

namespace DocQuery

/-- The type a field is filtered as. -/
inductive FieldType where
  | string | number | boolean | datetime
  deriving DecidableEq, Repr

/-- The name of a field type in messages. -/
def FieldType.name : FieldType → String
  | .string => "string"
  | .number => "number"
  | .boolean => "boolean"
  | .datetime => "datetime"

/-- A binary64 value, finite or not. -/
inductive Floating where
  | finite (x : Decimal.Binary64)
  | infinite (negative : Bool)
  | nan
  deriving DecidableEq, Repr

/-- A typed operand. -/
inductive Operand where
  | bool (b : Bool)
  | integer (i : Int64)
  | float (x : Floating)
  | text (s : String)
  | instant (t : Instant)
  deriving DecidableEq, Repr

namespace Operand

/-- The field type that the operand implies. -/
def fieldType : Operand → FieldType
  | .bool _ => .boolean
  | .integer _ | .float _ => .number
  | .text _ => .string
  | .instant _ => .datetime

/-- The text of a text operand. -/
def text? : Operand → Option String
  | .text s => some s
  | _ => none

/-- Whether a store can represent the operand at all. -/
def isFinite : Operand → Bool
  | .float (.finite _) => true
  | .float _ => false
  | _ => true

/-- The value as documents hold it; null stands for a number that is not finite. -/
def toJson : Operand → Json
  | .bool b => .bool b
  | .integer i => Json.ofInt64 i
  | .float (.finite x) => .num (.float x)
  | .float _ => .null
  | .text s => .str s
  | .instant t => .str t.text

/-- The operand that a scalar value stands for. Null, arrays and objects are no operands, and no text is read as an instant. -/
def ofJson? : Json → Option Operand
  | .bool b => some (.bool b)
  | .num (.float x) => some (.float (.finite x))
  | .num (.int i) =>
    match (Number.int i).int64? with
    | some n => some (.integer n)
    | none => some (.float (.finite (Decimal.Binary64.ofNat i.val.toNat)))
  | .str s => some (.text s)
  | .null | .arr _ | .obj _ => none

/-- The operand as a literal, for explanations: texts and instants quoted, the rest bare. -/
def literal (v : Operand) : String := v.toJson.text

end Operand

end DocQuery
