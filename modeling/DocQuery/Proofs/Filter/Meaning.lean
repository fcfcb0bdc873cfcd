import DocQuery.Expression.Eval
import DocQuery.Compile

/-!
# What a filter asks of a record

The meaning of a filter on a document itself, without any expression in between: which stored values meet a condition, and which
documents meet all conditions of all fields. Where text tests disregard case, the two families of stores differ in what they
compare, and the difference is a parameter of the meaning.
-/

namespace DocQuery

/-- What a text test that disregards case compares. -/
inductive Folding where
  /-- Both texts in small letters. -/
  | small
  /-- The stored text as it is, with the usual casings of the part. -/
  | casings
  deriving DecidableEq, Repr

/-- Whether a stored value compares with an operand as a comparison asks. Values without an order are only unequal. -/
def Comparison.Holds (c : Comparison) (stored operand : Json) : Prop :=
  match c with
  | .equals => stored.compare? operand = some .eq
  | .not => stored.compare? operand ≠ some .eq
  | .lt => stored.compare? operand = some .lt
  | .lte => stored.compare? operand = some .lt ∨ stored.compare? operand = some .eq
  | .gt => stored.compare? operand = some .gt
  | .gte => stored.compare? operand = some .gt ∨ stored.compare? operand = some .eq

namespace TextTest

/-- Whether a stored value passes a test that regards case. The end of a text is looked for anywhere in it, and an array is asked
for an item instead of a part. -/
def Passes (t : TextTest) (part : String) : Json → Prop
  | .str s => if t = .startsWith then part.toList <+: s.toList else part.toList <:+: s.toList
  | .arr items => t ≠ .startsWith ∧ Json.str part ∈ items
  | _ => False

/-- Whether a stored value passes a test that disregards case. -/
def PassesFolded (t : TextTest) (folding : Folding) (part : String) (stored : Json) : Prop :=
  match folding with
  | .small => ∃ s, stored = .str s ∧ t.Passes (Text.lower part) (.str (Text.lower s))
  | .casings => ∃ p ∈ [part, Text.lower part, Text.upper part, Text.capitalized part], t.Passes p stored

/-- Whether a stored value passes a test in a mode. -/
def PassesIn (t : TextTest) (folding : Folding) (mode : Mode) (part : String) (stored : Json) : Prop :=
  match mode with
  | .sensitive => t.Passes part stored
  | .insensitive => t.PassesFolded folding part stored

end TextTest

/-- Whether what is stored in a field, if anything, meets a condition. A missing field meets a negated membership only. -/
def Condition.Passes (folding : Folding) (mode : Mode) (c : Condition) (stored : Option Json) : Prop :=
  match c with
  | .compare op v => ∃ s, stored = some s ∧ op.Holds s v.toJson
  | .text t part => ∃ s, stored = some s ∧ t.PassesIn folding mode part s
  | .member false vs => ∃ s, stored = some s ∧ ∃ v ∈ vs, Comparison.equals.Holds s v.toJson
  | .member true vs => ¬∃ s, stored = some s ∧ ∃ v ∈ vs, Comparison.equals.Holds s v.toJson

/-- Whether a document meets every condition of every field. -/
def Where.Passes (folding : Folding) (w : Where) (d : Document) : Prop :=
  ∀ e ∈ w.entries, ∀ c ∈ e.2.conditions, c.Passes folding e.2.mode (Fields.get? d e.1)

/-! ## The tests of the evaluator -/

namespace Text

/-- Characters hold a part exactly if it is an infix of them. -/
theorem hasPartChars_iff (part whole : List Char) : hasPartChars part whole = true ↔ part <:+: whole := by
  induction whole with
  | nil => simp [hasPartChars]
  | cons c rest ih =>
    rw [hasPartChars, Bool.or_eq_true, ih, List.isPrefixOf_iff_prefix, List.infix_cons_iff]

theorem hasPart_iff (part whole : String) : hasPart part whole = true ↔ part.toList <:+: whole.toList :=
  hasPartChars_iff _ _

theorem beginsWith_iff (part whole : String) : beginsWith part whole = true ↔ part.toList <+: whole.toList :=
  List.isPrefixOf_iff_prefix

end Text

namespace Expression

/-- The relation of a comparison. -/
def relationOf : Comparison → Relation
  | .equals => .eq
  | .not => .ne
  | .lt => .lt
  | .lte => .le
  | .gt => .gt
  | .gte => .ge

/-- The function of a text test. -/
def functionOf : TextTest → Function
  | .contains | .endsWith => .contains
  | .startsWith => .beginsWith

/-- A relation admits the order of two values exactly if the comparison holds of them. -/
theorem admits_iff (c : Comparison) (stored operand : Json) :
    (relationOf c).admits (stored.compare? operand) = true ↔ c.Holds stored operand := by
  cases c <;> simp [relationOf, Relation.admits, Comparison.Holds]

/-- A text equals itself only. -/
theorem same_str_iff (j : Json) (s : String) : j.same (.str s) = true ↔ j = .str s := by
  cases j <;> simp [Json.same]

/-- The function of a text test holds of two values exactly if the stored one passes the test. -/
theorem test_iff (t : TextTest) (part : String) (stored : Json) :
    (functionOf t).test stored (.str part) = true ↔ t.Passes part stored := by
  cases stored <;> cases t <;>
    simp [functionOf, Function.test, includes, TextTest.Passes, Text.hasPart_iff, Text.beginsWith_iff, same_str_iff]

end Expression

/-! ## Deciding the meaning -/

instance (c : Comparison) (stored operand : Json) : Decidable (c.Holds stored operand) :=
  decidable_of_iff _ (Expression.admits_iff c stored operand)

instance (t : TextTest) (part : String) (stored : Json) : Decidable (t.Passes part stored) :=
  decidable_of_iff _ (Expression.test_iff t part stored)

/-- A test of texts only, on any value. -/
theorem TextTest.passesFolded_small_iff (t : TextTest) (part : String) (stored : Json) :
    t.PassesFolded .small part stored ↔ ∃ s ∈ stored.str?, t.Passes (Text.lower part) (.str (Text.lower s)) := by
  cases stored <;> simp [PassesFolded, Json.str?]

instance (t : TextTest) (folding : Folding) (part : String) (stored : Json) :
    Decidable (t.PassesFolded folding part stored) :=
  match folding with
  | .small => decidable_of_iff' _ (t.passesFolded_small_iff part stored)
  | .casings => inferInstanceAs (Decidable (∃ p ∈ [part, Text.lower part, Text.upper part, Text.capitalized part], _))

instance (t : TextTest) (folding : Folding) (mode : Mode) (part : String) (stored : Json) :
    Decidable (t.PassesIn folding mode part stored) :=
  match mode with
  | .sensitive => inferInstanceAs (Decidable (t.Passes part stored))
  | .insensitive => inferInstanceAs (Decidable (t.PassesFolded folding part stored))

instance (p : Json → Prop) [DecidablePred p] (stored : Option Json) : Decidable (∃ s, stored = some s ∧ p s) :=
  match stored with
  | none => isFalse (by simp)
  | some s => decidable_of_iff (p s) (by simp)

instance (folding : Folding) (mode : Mode) (c : Condition) (stored : Option Json) :
    Decidable (c.Passes folding mode stored) :=
  match c with
  | .compare op v => inferInstanceAs (Decidable (∃ s, stored = some s ∧ op.Holds s v.toJson))
  | .text t part => inferInstanceAs (Decidable (∃ s, stored = some s ∧ t.PassesIn folding mode part s))
  | .member false vs => inferInstanceAs (Decidable (∃ s, stored = some s ∧ ∃ v ∈ vs, Comparison.equals.Holds s v.toJson))
  | .member true vs => inferInstanceAs (Decidable (¬∃ s, stored = some s ∧ ∃ v ∈ vs, Comparison.equals.Holds s v.toJson))

instance (folding : Folding) (w : Where) (d : Document) : Decidable (w.Passes folding d) :=
  inferInstanceAs (Decidable (∀ e ∈ w.entries, ∀ c ∈ e.2.conditions, c.Passes folding e.2.mode (Fields.get? d e.1)))

end DocQuery
