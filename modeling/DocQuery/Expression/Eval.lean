import DocQuery.Expression.Parser
import DocQuery.Json.Order
import DocQuery.Text.Part

/-!
# The meaning of expressions

A formula holds of a document under values for its placeholders. A test that reads a missing attribute does not hold, whatever it
asks; an undefined placeholder is a fault, not a missing value. Connectives stop as soon as their outcome is settled.
-/

namespace DocQuery.Expression

/-- What a formula is evaluated against. -/
structure Scope where
  /-- The document whose attributes are read. -/
  document : Document
  /-- The values of the placeholders. -/
  params : Fields Json

/-- Whether a relation admits an order of its two sides; sides without an order are unequal. -/
def Relation.admits : Relation → Option Ordering → Bool
  | .eq, o => o == some .eq
  | .ne, o => o != some .eq
  | .lt, o => o == some .lt
  | .le, o => o == some .lt || o == some .eq
  | .gt, o => o == some .gt
  | .ge, o => o == some .gt || o == some .eq

/-- Whether a value has a part: a text a part of it, an array an item. -/
def includes (target part : Json) : Bool :=
  match target, part with
  | .str t, .str p => Text.hasPart p t
  | .arr items, part => items.any (·.same part)
  | _, _ => false

/-- A test by function on two values. -/
def Function.test (f : Function) (target part : Json) : Bool :=
  match f with
  | .contains => includes target part
  | .beginsWith =>
    match target, part with
    | .str t, .str p => Text.beginsWith p t
    | _, _ => false
  | .endsWith =>
    match target, part with
    | .str t, .str p => Text.endsIn p t
    | _, _ => false
  | .exists | .notExists => false

namespace Scope

/-- The value of a term, absent where an attribute is missing. -/
def value? (s : Scope) : Term → Except Fault (Option Json)
  | .path field => .ok (Fields.get? s.document field)
  | .param name =>
    match s.params.get? name with
    | some v => .ok (some v)
    | none => .error (.undefinedValue name)
  | .literal l => .ok (some l.toJson)
  | .lower t => do
    match ← s.value? t with
    | some (.str text) => .ok (some (.str (Text.lower text)))
    | _ => .ok none

/-- Whether a value equals one of a list of terms; every term is looked at. -/
def member (s : Scope) (v : Json) : List Term → Except Fault Bool
  | [] => .ok false
  | t :: rest => do
    let candidate ← s.value? t
    let found ← s.member v rest
    .ok ((candidate.any fun c => v.compare? c == some .eq) || found)

/-- A test by function. -/
def call (s : Scope) (f : Function) (args : List Term) : Except Fault Bool :=
  match f, args with
  | .exists, [.path field] => .ok (Fields.has s.document field)
  | .notExists, [.path field] => .ok (!Fields.has s.document field)
  | .exists, _ | .notExists, _ => .error (.badArguments f args)
  | f, [target, part] => do
    match ← s.value? target, ← s.value? part with
    | some target, some part => .ok (f.test target part)
    | _, _ => .ok false
  | f, args => .error (.badArguments f args)

/-- Whether a formula holds. -/
def eval (s : Scope) : Formula → Except Fault Bool
  | .and left right => do if ← s.eval left then s.eval right else .ok false
  | .or left right => do if ← s.eval left then .ok true else s.eval right
  | .not inner => do .ok (!(← s.eval inner))
  | .compare left r right => do
    match ← s.value? left, ← s.value? right with
    | some a, some b => .ok (r.admits (a.compare? b))
    | _, _ => .ok false
  | .member t list => do
    match ← s.value? t with
    | some v => s.member v list
    | none => .ok false
  | .between t low high => do
    match ← s.value? t, ← s.value? low, ← s.value? high with
    | some v, some low, some high =>
      .ok (Relation.ge.admits (v.compare? low) && Relation.le.admits (v.compare? high))
    | _, _, _ => .ok false
  | .call f args => s.call f args

end Scope

end DocQuery.Expression
