import DocQuery.Error

/-!
# Conditions on one field

A condition is an operator with its operand, so that an operand of the wrong shape cannot be stated. Conditions of one field are
all to be met. The operands of comparisons for equality, of memberships and of text tests tell the type of the field; the first
one that does so decides, and the others have to agree with it. Comparisons of order say nothing about the type.
-/

namespace DocQuery

/-- One operator with its operand. -/
inductive Condition where
  | compare (c : Comparison) (operand : Operand)
  | text (t : TextTest) (part : String)
  | member (negated : Bool) (values : List Operand)
  deriving DecidableEq, Repr

namespace Condition

/-- The operator of a condition. -/
def operator : Condition → Operator
  | .compare c _ => .comparison c
  | .text t _ => .textTest t
  | .member negated _ => .membership negated

/-- The field type a condition implies, if any. -/
def impliedType? : Condition → Option FieldType
  | .compare c operand => if c.isRange then none else some operand.fieldType
  | .text _ _ => some .string
  | .member _ values => values.head?.map Operand.fieldType

/-- A scalar operand. -/
def scalarOfJson (field : String) (op : Operator) (j : Json) : Except Error Operand :=
  match Operand.ofJson? j with
  | some v => .ok v
  | none => .error (.malformedFilter field (.notScalar op j))

/-- The operand of a text test; a scalar of another type makes the operator an unsupported one. -/
def textOfJson (field : String) (op : Operator) (j : Json) : Except Error String :=
  match j with
  | .str s => .ok s
  | _ =>
    match Operand.ofJson? j with
    | some v => .error (.unsupportedOperator field op.name v.fieldType.name)
    | none => .error (.malformedFilter field (.notText op))

/-- The operands of a membership test. -/
def listOfJson (field : String) (op : Operator) (j : Json) : Except Error (List Operand) :=
  match j with
  | .arr items => items.mapM (scalarOfJson field op)
  | _ => .error (.malformedFilter field (.notList op))

/-- The condition that an operator and a JSON operand make. -/
def ofJson (field : String) (op : Operator) (j : Json) : Except Error Condition :=
  match op with
  | .comparison c => (scalarOfJson field op j).map (.compare c)
  | .textTest t => (textOfJson field op j).map (.text t)
  | .membership negated => (listOfJson field op j).map (.member negated)

/-- Whether an operand may stand in a condition on a field of the inferred type. -/
def checkOperand (field : String) (op : Operator) (ty : Option FieldType) (typed : Bool) (v : Operand) : Except Error Unit :=
  if !v.isFinite then .error (.malformedFilter field .notFinite)
  else
    match ty with
    | some ty =>
      if typed && v.fieldType != ty then .error (.malformedFilter field (.mixedTypes op v.fieldType ty)) else .ok ()
    | none => .ok ()

/-- Whether a condition may stand among those of a field of the inferred type. -/
def check (field : String) (ty : Option FieldType) (c : Condition) : Except Error Unit := do
  match ty with
  | some ty => if !c.operator.supports ty then throw (.unsupportedOperator field c.operator.name ty.name)
  | none => pure ()
  match c with
  | .compare op v => checkOperand field c.operator ty (!op.isRange) v
  | .text _ _ => pure ()
  | .member _ values =>
    if values.isEmpty then throw (.malformedFilter field (.noValues c.operator))
    values.forM (checkOperand field c.operator ty true)

end Condition

/-- The conditions on one field and the mode of its text tests. -/
structure FieldFilter where
  /-- The conditions, all of which are to be met. -/
  conditions : List Condition
  /-- The mode of the text tests. -/
  mode : Mode
  deriving DecidableEq, Repr, Inhabited

namespace FieldFilter

/-- No conditions, text tests sensitive to case. -/
def empty : FieldFilter := ⟨[], .sensitive⟩

/-- Adds a condition. -/
def add (f : FieldFilter) (c : Condition) : FieldFilter := { f with conditions := f.conditions ++ [c] }

/-- The type of the field, from the first condition that implies one. -/
def inferredType? (f : FieldFilter) : Option FieldType := f.conditions.findSome? Condition.impliedType?

/-- Checks the conditions against the type of the field. -/
def validate (field : String) (f : FieldFilter) : Except Error Unit :=
  if f.conditions.isEmpty then .error (.malformedFilter field .noOperators)
  else f.conditions.forM (Condition.check field f.inferredType?)

/-- One member of a condition object: the mode, or an operator with its operand. -/
def addMember (field : String) (f : FieldFilter) (member : String × Json) : Except Error FieldFilter :=
  if member.1 = "mode" then
    match member.2.str?.bind Mode.ofName? with
    | some mode => .ok { f with mode }
    | none => .error (.malformedFilter field (.badMode member.2))
  else
    match Operator.ofName? member.1 with
    | some op => (Condition.ofJson field op member.2).map f.add
    | none => .error (.unsupportedOperator field member.1 ((f.inferredType?.map FieldType.name).getD "untyped"))

/-- The filter that a JSON condition object states. -/
def ofJson (field : String) (j : Json) : Except Error FieldFilter :=
  match j with
  | .obj members => members.foldlM (addMember field) empty
  | _ => .error (.malformedFilter field .notObject)

end FieldFilter

end DocQuery
