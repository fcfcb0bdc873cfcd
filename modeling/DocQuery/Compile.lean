import DocQuery.Dialect
import DocQuery.Filter.Where
import DocQuery.Fragment

/-!
# Compiling filters

A filter becomes a fragment in a dialect. Operands never enter the text: each is bound to the next slot, and the slots of a
fragment count up in the order of its text. Where a dialect cannot lower the case of a stored text, an insensitive test tries the
usual casings of the operand, the operand itself first, so that it matches whatever the sensitive test matches.
-/

namespace DocQuery

/-- What compiling has gathered so far: the dialect's table, and the operands bound to slots 0, 1, and so on. -/
structure Bindings (σ : Type) where
  /-- The dialect's table of attribute references. -/
  table : σ
  /-- The operands in order of their slots. -/
  params : List Operand
  deriving Repr

/-- A step of compiling. A step that fails keeps what it bound before. -/
abbrev Compile (σ : Type) := ExceptT Error (StateM (Bindings σ))

namespace Compile

variable {σ : Type}

/-- Binds an operand to the next slot. -/
def bindOperand (v : Operand) : Compile σ Nat :=
  modifyGet fun b => (b.params.length, { b with params := b.params ++ [v] })

/-- The reference to an attribute. -/
def reference (d : Dialect σ) (field : String) : Compile σ String :=
  modifyGet fun b =>
    let (target, table) := d.reference b.table field
    (target, { b with table })

/-- The operand as given, in small letters, in capitals, and capitalized, without repetitions. -/
def casings (s : String) : List String :=
  [s, Text.lower s, Text.upper s, Text.capitalized s].eraseDups

/-- A function applied to an attribute and an operand. -/
def call (function target part : String) : Compile σ Fragment := do
  let slot ← bindOperand (.text part)
  return Fragment.text (function ++ "(" ++ target ++ ", ") ++ Fragment.slot slot ++ Fragment.text ")"

/-- A text test in the mode of its field. -/
def textTest (d : Dialect σ) (t : TextTest) (target part : String) (mode : Mode) : Compile σ Fragment :=
  match mode, d.lower? target with
  | .sensitive, _ => call (d.function t) target part
  | .insensitive, some lowered => call (d.function t) lowered (Text.lower part)
  | .insensitive, none => do
    let calls ← (casings part).mapM (call (d.function t) target)
    match calls with
    | [single] => return single
    | calls => return Fragment.text "(" ++ Fragment.join " OR " calls ++ Fragment.text ")"

/-- The list of a membership test, unless it is empty or longer than the dialect takes. -/
def membership (d : Dialect σ) (field target : String) (values : List Operand) : Compile σ Fragment := do
  if values.isEmpty then throw (.malformedFilter field .emptyList)
  match d.maxInList? with
  | some max => if max < values.length then throw (.malformedFilter field (.listTooLong max values.length))
  | none => pure ()
  let slots ← values.mapM bindOperand
  return Fragment.text (target ++ " IN (") ++ Fragment.join ", " (slots.map Fragment.slot) ++ Fragment.text ")"

/-- One condition as one boolean expression. -/
def condition (d : Dialect σ) (field : String) (mode : Mode) (c : Condition) : Compile σ Fragment := do
  let target ← reference d field
  match c with
  | .compare op operand =>
    let slot ← bindOperand operand
    return Fragment.text (target ++ " " ++ d.symbol op ++ " ") ++ Fragment.slot slot
  | .text t part => textTest d t target part mode
  | .member false values => membership d field target values
  | .member true values => return Fragment.text "NOT (" ++ (← membership d field target values) ++ Fragment.text ")"

/-- Every condition of one field. -/
def field (d : Dialect σ) (name : String) (f : FieldFilter) : Compile σ (List Fragment) :=
  f.conditions.mapM (condition d name f.mode)

/-- A whole filter, after checking it; nothing where it lets everything pass. -/
def filter (d : Dialect σ) (w : Where) : Compile σ (Option Fragment) := do
  MonadExcept.ofExcept w.validate
  let predicates ← w.entries.mapM fun (name, f) => field d name f
  match predicates.flatten with
  | [] => return none
  | predicates => return some (Fragment.join " AND " predicates)

end Compile

namespace Bindings

variable {σ : Type}

/-- A fragment with placeholders in its slots. -/
def render (d : Dialect σ) (f : Fragment) : String := f.render d.placeholder

/-- A fragment with literals in its slots. -/
def explain (b : Bindings σ) (d : Dialect σ) (f : Fragment) : String :=
  f.render fun i =>
    match b.params[i]? with
    | some v => v.literal
    | none => d.placeholder i

end Bindings

end DocQuery
