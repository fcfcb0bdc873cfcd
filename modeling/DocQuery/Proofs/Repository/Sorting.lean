import DocQuery.Proofs.Cosmos.Sorting
import DocQuery.Proofs.Dynamo.Positions

/-!
# Sorting is consistent

Values, documents and positions are each sorted by a comparison. Each of them is a total preorder and puts first what is to come
first: earlier types and then smaller values, sort keys in turn, and the sort key before the key text (`sorting_consistent`).
-/

namespace DocQuery

/-- What is sorted is sorted consistently. The comparison of values, a missing one among them, that of documents by any sort keys, and
that of positions in a read are total preorders. Of two values the one of the earlier type comes first, and within a scalar type the
smaller one. Of two documents the one comes first that the first sort key under which they do not share a place puts first, and there
is one way to put documents in this order and leave those that share a place as they were. Of two positions the one comes first whose
sort key does, and then the one with the smaller key text, so that positions share a place only if they have one key text. -/
theorem sorting_consistent :
    (TotalPreorder Json.sortCompare ∧ ∀ a b, Json.sortCompare a b = .lt ↔ Json.Precedes a b) ∧
    (∀ order, TotalPreorder (Cosmos.compareBy order) ∧
      (∀ a b, Cosmos.compareBy order a b = .lt ↔ Cosmos.PrecedesBy a b order) ∧
      ∀ ds sorted, Cosmos.SortedBy order ds sorted ↔ sorted = Cosmos.sortBy order ds) ∧
    TotalPreorder Dynamo.Rows.Position.order ∧
      ∀ p q : Dynamo.Rows.Position,
        (p.order q = .lt ↔ Json.Precedes p.sortValue q.sortValue ∨ Json.SamePlace p.sortValue q.sortValue ∧ p.key < q.key) ∧
        (p.order q = .eq ↔ Json.SamePlace p.sortValue q.sortValue ∧ p.key = q.key) := by
  refine ⟨⟨.of_transCmp _, Json.sortCompare_eq_lt_iff⟩,
    fun order => ⟨.of_transCmp _, fun a b => ?documents, fun ds sorted => ?sorted⟩,
    .of_transCmp _, fun p q => ⟨p.order_eq_lt_iff q, p.order_eq_eq_iff q⟩⟩
  case documents => exact Cosmos.compareBy_eq_lt_iff order
  case sorted => exact Cosmos.sortedBy_iff

end DocQuery
