import DocQuery.Cosmos.Memory
import DocQuery.Proofs.Json.Order

/-!
# Sorted results

Documents are compared by their sort keys in turn, each in its direction. Every key is compared by a total preorder, so the whole
is one too, and sorting by it gives the one list that holds the same documents in order, with those that tie in the order in which
they came (`sortedBy_iff`).
-/

namespace DocQuery.Cosmos

/-- Documents compared by one field in a direction. -/
def compareField (field : String) (ascending : Bool) (a b : Document) : Ordering :=
  if ascending then Json.sortCompare (Fields.get? a field) (Fields.get? b field)
  else Json.sortCompare (Fields.get? b field) (Fields.get? a field)

instance (field : String) (ascending : Bool) : Std.TransCmp (compareField field ascending) where
  eq_swap := by
    intro a b
    cases ascending with
    | true => exact @Std.OrientedCmp.eq_swap _ Json.sortCompare _ _ _
    | false => exact @Std.OrientedCmp.eq_swap _ Json.sortCompare _ _ _
  isLE_trans := by
    intro a b c hab hbc
    cases ascending with
    | true => exact @Std.TransCmp.isLE_trans _ Json.sortCompare _ _ _ _ hab hbc
    | false => exact @Std.TransCmp.isLE_trans _ Json.sortCompare _ _ _ _ hbc hab

/-- The first sort key takes precedence over the others. -/
theorem compareBy_cons (field : String) (ascending : Bool) (rest : List (String × Bool)) :
    compareBy ((field, ascending) :: rest) = compareLex (compareField field ascending) (compareBy rest) := by
  funext a b
  rw [compareBy, compareLex, compareField]
  cases ascending with
  | true => rfl
  | false => rw [@Std.OrientedCmp.eq_swap _ Json.sortCompare _ (Fields.get? b field)]

/-- The order of documents under sort keys is total and transitive. -/
instance compareBy_trans (order : List (String × Bool)) : Std.TransCmp (compareBy order) := by
  induction order with
  | nil => exact { eq_swap := rfl, isLE_trans := fun _ _ => rfl }
  | cons key rest ih =>
    obtain ⟨field, ascending⟩ := key
    rw [compareBy_cons]
    infer_instance

/-! ## What is sorted before what -/

/-- Which documents are sorted before which under sort keys: the first key under which the two do not share a place decides, in its
direction. -/
inductive PrecedesBy (a b : Document) : List (String × Bool) → Prop where
  | ascending {field : String} {rest : List (String × Bool)} (h : Json.Precedes (Fields.get? a field) (Fields.get? b field)) :
      PrecedesBy a b ((field, true) :: rest)
  | descending {field : String} {rest : List (String × Bool)} (h : Json.Precedes (Fields.get? b field) (Fields.get? a field)) :
      PrecedesBy a b ((field, false) :: rest)
  | later {key : String × Bool} {rest : List (String × Bool)} (hsame : Json.SamePlace (Fields.get? a key.1) (Fields.get? b key.1))
      (h : PrecedesBy a b rest) : PrecedesBy a b (key :: rest)

/-- Whether documents tie under sort keys: their fields share a place under each of them. -/
def Ties (order : List (String × Bool)) (a b : Document) : Prop :=
  ∀ key ∈ order, Json.SamePlace (Fields.get? a key.1) (Fields.get? b key.1)

instance (order : List (String × Bool)) (a b : Document) : Decidable (Ties order a b) :=
  inferInstanceAs (Decidable (∀ key ∈ order, _))

section

variable {a b : Document}

/-- Documents share a place under one key, in either direction, if their fields do. -/
theorem compareField_eq_eq_iff (field : String) (ascending : Bool) :
    compareField field ascending a b = .eq ↔ Json.SamePlace (Fields.get? a field) (Fields.get? b field) := by
  rw [← Json.sortCompare_eq_eq_iff, compareField]
  cases ascending with
  | true => rfl
  | false => exact @Std.OrientedCmp.eq_comm _ Json.sortCompare _ _ _

/-- The comparison by sort keys puts first what precedes. -/
theorem compareBy_eq_lt_iff (order : List (String × Bool)) : compareBy order a b = .lt ↔ PrecedesBy a b order := by
  induction order with
  | nil => exact ⟨nofun, nofun⟩
  | cons key rest ih =>
    obtain ⟨field, ascending⟩ := key
    rw [compareBy_cons, compareLex, Ordering.then_eq_lt, compareField_eq_eq_iff, ih]
    constructor
    · rintro (h | ⟨hsame, h⟩)
      · cases ascending with
        | true => exact .ascending ((Json.sortCompare_eq_lt_iff _ _).1 h)
        | false => exact .descending ((Json.sortCompare_eq_lt_iff _ _).1 h)
      · exact .later hsame h
    · intro h
      cases h with
      | ascending h => exact .inl ((Json.sortCompare_eq_lt_iff _ _).2 h)
      | descending h => exact .inl ((Json.sortCompare_eq_lt_iff _ _).2 h)
      | later hsame h => exact .inr ⟨hsame, h⟩

/-- The comparison by sort keys finds those equal that tie. -/
theorem compareBy_eq_eq_iff (order : List (String × Bool)) : compareBy order a b = .eq ↔ Ties order a b := by
  induction order with
  | nil => exact ⟨fun _ => List.forall_mem_nil _, fun _ => rfl⟩
  | cons key rest ih =>
    obtain ⟨field, ascending⟩ := key
    rw [compareBy_cons, compareLex, Ordering.then_eq_eq, compareField_eq_eq_iff, ih]
    unfold Ties
    rw [List.forall_mem_cons]

/-- The comparison by sort keys does not put a document behind another that is not sorted before it. -/
theorem isLE_compareBy_iff (order : List (String × Bool)) : (compareBy order a b).isLE = true ↔ ¬ PrecedesBy b a order := by
  rw [← compareBy_eq_lt_iff, @Std.OrientedCmp.eq_swap _ (compareBy order) _ b a]
  cases compareBy order a b <;> decide

end

/-! ## Lists in order -/

/-- A list of documents in the order of sort keys: the documents of another list, none behind one that it is sorted before, and those
that tie in the order of that list. -/
structure SortedBy (order : List (String × Bool)) (ds sorted : List Document) : Prop where
  perm : sorted.Perm ds
  ordered : sorted.Pairwise fun a b => ¬ PrecedesBy b a order
  stable : ∀ d, sorted.filter (fun e => Ties order d e) = ds.filter fun e => Ties order d e

/-- The documents that tie with one are those that compare as equal to it. -/
theorem filter_ties (order : List (String × Bool)) (d : Document) (ds : List Document) :
    (ds.filter fun e => Ties order d e) = ds.filter (compareBy order d · == .eq) := by
  refine List.filter_congr fun e _ => ?_
  rw [Bool.eq_iff_iff, decide_eq_true_iff, beq_iff_eq]
  exact (compareBy_eq_eq_iff order).symm

/-- A list is in the order of sort keys if it is in the order of their comparison. -/
theorem sortedBy_iff_compareBy {order : List (String × Bool)} {ds sorted : List Document} :
    SortedBy order ds sorted ↔ sorted.Perm ds ∧ (sorted.Pairwise fun a b => (compareBy order a b).isLE = true) ∧
      ∀ d, sorted.filter (compareBy order d · == .eq) = ds.filter (compareBy order d · == .eq) := by
  simp only [isLE_compareBy_iff, ← filter_ties]
  exact ⟨fun h => ⟨h.perm, h.ordered, h.stable⟩, fun ⟨hperm, hordered, hstable⟩ => ⟨hperm, hordered, hstable⟩⟩

/-- Sorting puts documents in order and keeps the order of those that compare as equal. -/
theorem sortedBy_sortBy (order : List (String × Bool)) (ds : List Document) : SortedBy order ds (sortBy order ds) := by
  have hfit := TotalPreorder.of_transCmp (compareBy order)
  have hperm : (sortBy order ds).Perm ds := List.mergeSort_perm ds _
  refine sortedBy_iff_compareBy.2 ⟨hperm, List.pairwise_mergeSort hfit.trans hfit.total ds, fun d => ?_⟩
  -- the documents that compare as equal to one are in order already, so sorting keeps them in their order
  have halike : (ds.filter (compareBy order d · == .eq)).Pairwise fun a b => (compareBy order a b).isLE = true := by
    refine List.pairwise_of_forall_mem_list fun a ha b hb => ?_
    have ha := eq_of_beq (List.mem_filter.1 ha).2
    have hb := eq_of_beq (List.mem_filter.1 hb).2
    rw [Std.TransCmp.eq_trans (Std.OrientedCmp.eq_symm ha) hb]
    rfl
  have hkept := (List.sublist_mergeSort hfit.trans hfit.total halike List.filter_sublist).filter (compareBy order d · == .eq)
  rw [List.filter_filter] at hkept
  simp only [Bool.and_self] at hkept
  exact (hkept.eq_of_length_le (hperm.filter _).length_eq.le).symm

section

variable {order : List (String × Bool)} {l l' : List Document} {a b : Document}

/-- The first of documents in order comes after none of them. -/
theorem first_isLE (h : (a :: l).Pairwise fun x y => (compareBy order x y).isLE) (hb : b ∈ a :: l) :
    (compareBy order a b).isLE := by
  rcases List.mem_cons.1 hb with rfl | hb
  · exact Std.ReflCmp.isLE_rfl
  · exact (List.pairwise_cons.1 h).1 b hb

/-- Two lists hold the same documents if they hold the same ones that compare as equal to any document. -/
theorem mem_iff_of_alike (halike : ∀ d, l.filter (compareBy order d · == .eq) = l'.filter (compareBy order d · == .eq)) :
    a ∈ l ↔ a ∈ l' := by
  have hself : compareBy order a a = .eq := Std.ReflCmp.compare_self
  have ha := congrArg (a ∈ ·) (halike a)
  simpa only [List.mem_filter, hself, beq_self_eq_true, and_true, eq_iff_iff] using ha

/-- Documents in order are determined by those that compare as equal to any document, and their order. -/
theorem eq_of_alike (h : l.Pairwise fun x y => (compareBy order x y).isLE) (h' : l'.Pairwise fun x y => (compareBy order x y).isLE)
    (halike : ∀ d, l.filter (compareBy order d · == .eq) = l'.filter (compareBy order d · == .eq)) : l = l' := by
  induction l generalizing l' with
  | nil =>
    cases l' with
    | nil => rfl
    | cons b l' => exact absurd ((mem_iff_of_alike halike).2 List.mem_cons_self) List.not_mem_nil
  | cons a l ih =>
    cases l' with
    | nil => exact absurd ((mem_iff_of_alike halike).1 List.mem_cons_self) List.not_mem_nil
    | cons b l' =>
      -- each of the two first documents is in the other list, so they compare as equal, and each list has its own before the other
      have hab : compareBy order a b = .eq := Std.OrientedCmp.isLE_antisymm
        (first_isLE h ((mem_iff_of_alike halike).2 List.mem_cons_self))
        (first_isLE h' ((mem_iff_of_alike halike).1 List.mem_cons_self))
      have haa : compareBy order a a = .eq := Std.ReflCmp.compare_self
      have hfirst := halike a
      simp only [List.filter_cons, haa, hab, beq_self_eq_true, if_true] at hfirst
      obtain rfl : a = b := (List.cons.inj hfirst).1
      refine congrArg (a :: ·) (ih (List.pairwise_cons.1 h).2 (List.pairwise_cons.1 h').2 fun d => ?_)
      have hd := halike d
      rw [List.filter_cons, List.filter_cons] at hd
      by_cases hda : (compareBy order d a == .eq) = true
      · rw [if_pos hda, if_pos hda] at hd
        exact (List.cons.inj hd).2
      · rwa [if_neg hda, if_neg hda] at hd

/-- There is one list of documents in the order of sort keys, and sorting gives it. -/
theorem sortedBy_iff {ds : List Document} : SortedBy order ds l ↔ l = sortBy order ds := by
  constructor
  · intro h
    obtain ⟨-, hordered, hstable⟩ := sortedBy_iff_compareBy.1 h
    obtain ⟨-, hordered', hstable'⟩ := sortedBy_iff_compareBy.1 (sortedBy_sortBy order ds)
    exact eq_of_alike hordered hordered' fun d => (hstable d).trans (hstable' d).symm
  · rintro rfl
    exact sortedBy_sortBy order ds

end

/-- Without sort keys documents are in order as they come. -/
theorem sortedBy_nil (ds : List Document) : SortedBy [] ds ds :=
  ⟨List.Perm.refl ds, List.pairwise_of_forall fun _ _ => nofun, fun _ => rfl⟩

end DocQuery.Cosmos
