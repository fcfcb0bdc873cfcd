import DocQuery.Dynamo.Memory
import DocQuery.Proofs.Fields

/-!
# Items in the order of their keys

A table keeps its items in increasing order of their key texts. So an item that is put in replaces the one under its key text, or
takes its place among the others, and the order is kept.
-/

namespace DocQuery.Dynamo.Rows

open Std

/-- Items in increasing order of their key texts. -/
def Sorted (items : List (String × Item)) : Prop := (Fields.names items).Pairwise fun a b => compare a b = .lt

variable {as bs items : List (String × Item)} {key : String} {old item : Item} {rows : Rows}

theorem compare_self (key : String) : compare key key = .eq := ReflCmp.compare_self

/-- Some of the items are in order, too. -/
theorem Sorted.sublist (h : Sorted items) (hs : List.Sublist as items) : Sorted as :=
  List.Pairwise.sublist (hs.map _) h

/-- Items in order have different key texts. -/
theorem Sorted.nodup (h : Sorted items) : (Fields.names items).Nodup := by
  refine List.Pairwise.imp ?_ h
  rintro a b hlt rfl
  rw [compare_self] at hlt
  cases hlt

/-- An item replaces the one under its key text. -/
theorem insertSorted_replace (h : Sorted (as ++ (key, old) :: bs)) (item : Item) :
    insertSorted key item (as ++ (key, old) :: bs) = as ++ (key, item) :: bs := by
  induction as with
  | nil => rw [List.nil_append, insertSorted, compare_self, List.nil_append]
  | cons e as ih =>
    obtain ⟨k, i⟩ := e
    have hlt : compare k key = .lt := (List.pairwise_cons.1 h).1 key (by simp)
    have hrest := ih (h.sublist (List.sublist_cons_self _ _))
    rw [List.cons_append, insertSorted, OrientedCmp.gt_iff_lt.2 hlt, List.cons_append, hrest]

/-- Replacing an item keeps the order. -/
theorem Sorted.replace (h : Sorted (as ++ (key, old) :: bs)) (item : Item) : Sorted (as ++ (key, item) :: bs) := by
  simpa [Sorted, Fields.names] using h

/-- An item that is put in takes the place of the one under its key text. -/
theorem put_at (h : Sorted rows.items) (hitems : rows.items = as ++ (key, old) :: bs) (item : Item) :
    rows.put key item = { rows with items := as ++ (key, item) :: bs } := by
  rw [hitems] at h
  rw [put, hitems, insertSorted_replace h]

/-- What is left without an item are the others. -/
theorem erase_at (h : Sorted rows.items) (hitems : rows.items = as ++ (key, old) :: bs) :
    rows.erase key = { rows with items := as ++ bs } := by
  have hnodup : (Fields.names ((key, old) :: (as ++ bs))).Nodup :=
    (List.perm_middle.map _).nodup_iff.1 (hitems ▸ h.nodup)
  have hother : ∀ e ∈ as ++ bs, (e.1 != key) = true := fun e he =>
    bne_iff_ne.2 fun heq => (List.nodup_cons.1 hnodup).1 (List.mem_map.2 ⟨e, he, heq⟩)
  rw [List.forall_mem_append] at hother
  rw [erase, hitems, Fields.drop, List.filter_append, List.filter_cons_of_neg (by simp), List.filter_eq_self.2 hother.1,
    List.filter_eq_self.2 hother.2]

/-- An item with a new key text takes its place among the others. -/
theorem insertSorted_new (h : Sorted items) (hn : key ∉ Fields.names items) (item : Item) :
    ∃ as bs, items = as ++ bs ∧ insertSorted key item items = as ++ (key, item) :: bs ∧ Sorted (as ++ (key, item) :: bs) := by
  induction items with
  | nil => exact ⟨[], [], rfl, rfl, List.pairwise_singleton _ _⟩
  | cons e items ih =>
    obtain ⟨k, i⟩ := e
    obtain ⟨hk, hitems⟩ := List.pairwise_cons.1 h
    rw [insertSorted]
    cases hcompare : compare key k with
    | lt =>
      refine ⟨[], (k, i) :: items, rfl, rfl, List.pairwise_cons.2 ⟨?_, h⟩⟩
      intro other hother
      rcases List.mem_cons.1 hother with rfl | hother
      · exact hcompare
      · exact TransCmp.lt_trans hcompare (hk other hother)
    | eq =>
      rw [LawfulEqCmp.eq_of_compare hcompare] at hn
      exact absurd List.mem_cons_self hn
    | gt =>
      obtain ⟨as, bs, rfl, hinsert, hsorted⟩ := ih hitems fun hm => hn (List.mem_cons_of_mem _ hm)
      refine ⟨(k, i) :: as, bs, rfl, by rw [hinsert]; rfl, List.pairwise_cons.2 ⟨?_, hsorted⟩⟩
      intro other hother
      obtain ⟨e, he, rfl⟩ := List.mem_map.1 hother
      rcases List.mem_cons.1 (List.perm_middle.subset he) with rfl | he
      · exact OrientedCmp.gt_iff_lt.1 hcompare
      · exact hk e.1 (List.mem_map.2 ⟨e, he, rfl⟩)

end DocQuery.Dynamo.Rows
