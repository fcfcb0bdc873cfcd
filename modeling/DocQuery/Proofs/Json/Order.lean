import DocQuery.Json.Order
import Mathlib.Order.Compare
import Mathlib.Tactic

/-!
# Values are sorted consistently

The order in which values are sorted looks at the type first, and within a type at the number, the text or the truth value. Each
of these is a total order on what it looks at, so the whole is a total preorder, under which all arrays are alike, and all objects.
What it puts first is also said without it, by `Json.Precedes`: earlier types, and then smaller values
(`Json.sortCompare_eq_lt_iff`).
-/

namespace DocQuery

/-- A comparison that is fit for sorting: a total preorder. Whatever it compares stands in one row, where several may share a place. -/
structure TotalPreorder {α : Type} (cmp : α → α → Ordering) : Prop where
  refl : ∀ a, cmp a a = .eq
  swap : ∀ a b, cmp b a = (cmp a b).swap
  total : ∀ a b, (cmp a b).isLE || (cmp b a).isLE
  trans : ∀ a b c, (cmp a b).isLE → (cmp b c).isLE → (cmp a c).isLE

/-- A comparison that can be turned around and is transitive is a total preorder. -/
theorem TotalPreorder.of_transCmp {α : Type} (cmp : α → α → Ordering) [Std.TransCmp cmp] : TotalPreorder cmp where
  refl _ := Std.ReflCmp.compare_self
  swap _ _ := Std.OrientedCmp.eq_swap
  total a b := by
    rw [@Std.OrientedCmp.eq_swap _ cmp _ b a]
    cases cmp a b <;> rfl
  trans _ _ _ := Std.TransCmp.isLE_trans

namespace Json

/-- The number that a value is sorted by. -/
def sortNumber : Option Json → Int
  | some (.num n) => n.position
  | _ => 0

/-- The text that a value is sorted by. -/
def sortText : Option Json → String
  | some (.str s) => s
  | _ => ""

/-- The truth value that a value is sorted by. -/
def sortTruth : Option Json → Bool
  | some (.bool b) => b
  | _ => false

/-- Values of different types are sorted by the type. -/
theorem sortCompare_of_typeRank_ne {a b : Option Json} (h : typeRank a ≠ typeRank b) :
    sortCompare a b = compare (typeRank a) (typeRank b) := by
  rcases a with _ | a <;> rcases b with _ | b
  · rfl
  · rfl
  · rfl
  · cases a <;> cases b <;> simp_all [sortCompare, compare?, same, typeRank]

/-- Where a test decides between a value and its default, the outcome is that value. -/
theorem getD_ite_some (p : Prop) [Decidable p] (o : Ordering) : (if p then some o else none).getD o = o := by
  split <;> rfl

/-- Values of one type are sorted by what the type is sorted by. -/
theorem sortCompare_of_typeRank_eq {a b : Option Json} (h : typeRank a = typeRank b) :
    sortCompare a b = (compare (sortNumber a) (sortNumber b)).then
      ((compare (sortText a) (sortText b)).then (compare (sortTruth a) (sortTruth b))) := by
  rcases a with _ | a <;> rcases b with _ | b
  · rfl
  · cases b <;> cases h
  · cases a <;> cases h
  · cases a <;> cases b <;> cases h <;>
      simp [sortCompare, compare?, typeRank, sortNumber, sortText, sortTruth, getD_ite_some]

/-- Values are sorted by their type, and then by what their type is sorted by. -/
theorem sortCompare_eq :
    sortCompare = compareLex (compareOn typeRank)
      (compareLex (compareOn sortNumber) (compareLex (compareOn sortText) (compareOn sortTruth))) := by
  funext a b
  rw [compareLex, compareOn]
  by_cases h : typeRank a = typeRank b
  · rw [sortCompare_of_typeRank_eq h, Std.compare_eq_iff_eq.2 h]
    rfl
  · rw [sortCompare_of_typeRank_ne h]
    cases hc : compare (typeRank a) (typeRank b) with
    | eq => exact absurd (Std.compare_eq_iff_eq.1 hc) h
    | lt => rfl
    | gt => rfl

/-- The order in which values are sorted is total and transitive. -/
instance : Std.TransCmp sortCompare := by
  rw [sortCompare_eq]
  infer_instance

/-! ## What is sorted before what -/

/-- Which values are sorted before which: those of an earlier type, a missing value before all, and within a scalar type the
smaller ones. Arrays are not sorted among themselves, nor are objects. -/
inductive Precedes : Option Json → Option Json → Prop where
  | type {a b : Option Json} (h : typeRank a < typeRank b) : Precedes a b
  | num {x y : Number} (h : x.position < y.position) : Precedes (some (.num x)) (some (.num y))
  | str {s t : String} (h : s < t) : Precedes (some (.str s)) (some (.str t))
  | bool : Precedes (some (.bool false)) (some (.bool true))

/-- Whether values share a place: neither is sorted before the other. -/
def SamePlace (a b : Option Json) : Prop := ¬ Precedes a b ∧ ¬ Precedes b a

/-- Of values of one type, the comparison puts only a smaller scalar first. -/
theorem precedes_of_sortCompare {x y : Json} (hrank : typeRank (some x) = typeRank (some y))
    (h : sortCompare (some x) (some y) = .lt) : Precedes (some x) (some y) := by
  cases x <;> cases y <;> cases hrank
  case null => cases h
  case bool a b =>
    cases a <;> cases b
    case false.true => exact .bool
    all_goals cases h
  case num x y => exact .num (compare_lt_iff_lt.1 h)
  case str s t => exact .str (compareOfLessAndEq_eq_lt.1 h)
  case arr as bs =>
    have heq : sortCompare (some (.arr as)) (some (.arr bs)) = .eq := sortCompare_of_typeRank_eq rfl
    cases heq.symm.trans h
  case obj as bs =>
    have heq : sortCompare (some (.obj as)) (some (.obj bs)) = .eq := sortCompare_of_typeRank_eq rfl
    cases heq.symm.trans h

/-- The comparison of values puts first what precedes. -/
theorem sortCompare_eq_lt_iff (a b : Option Json) : sortCompare a b = .lt ↔ Precedes a b := by
  constructor
  · intro h
    by_cases hrank : typeRank a = typeRank b
    · rcases a with _ | x <;> rcases b with _ | y
      · cases h
      · cases y <;> cases hrank
      · cases x <;> cases hrank
      · exact precedes_of_sortCompare hrank h
    · rw [sortCompare_of_typeRank_ne hrank] at h
      exact .type (compare_lt_iff_lt.1 h)
  · intro h
    cases h with
    | type h =>
      rw [sortCompare_of_typeRank_ne h.ne]
      exact compare_lt_iff_lt.2 h
    | num h => exact compare_lt_iff_lt.2 h
    | str h => exact compareOfLessAndEq_eq_lt.2 h
    | bool => rfl

/-- The comparison of values finds those equal that share a place. -/
theorem sortCompare_eq_eq_iff (a b : Option Json) : sortCompare a b = .eq ↔ SamePlace a b := by
  unfold SamePlace
  rw [← sortCompare_eq_lt_iff, ← sortCompare_eq_lt_iff, @Std.OrientedCmp.eq_swap _ sortCompare _ b a]
  cases sortCompare a b <;> simp

instance (a b : Option Json) : Decidable (Precedes a b) := decidable_of_iff _ (sortCompare_eq_lt_iff a b)

instance (a b : Option Json) : Decidable (SamePlace a b) := inferInstanceAs (Decidable (_ ∧ _))

/-- A value shares a place with itself. -/
theorem SamePlace.refl (a : Option Json) : SamePlace a a :=
  (sortCompare_eq_eq_iff a a).1 (@Std.ReflCmp.compare_self _ sortCompare _ _)

/-- No value is sorted before itself. -/
theorem not_precedes_self (a : Option Json) : ¬ Precedes a a := (SamePlace.refl a).1

end Json

end DocQuery
