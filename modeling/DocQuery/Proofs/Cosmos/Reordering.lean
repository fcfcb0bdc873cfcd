import DocQuery.Proofs.Cosmos.Pages
import DocQuery.Proofs.Cosmos.Selection
import DocQuery.Proofs.Filter.Reordering

/-!
# Searches of a container in another order

A filter and the same filter in another order are sent as queries with different texts and different parameters. Both are read, and
their conditions hold of the same documents, so a search with either comes to the same page (`findMany_reordered`). Names that are not
read as they are quoted change nothing about that: they are read alike in both texts.
-/

namespace DocQuery

/-- A document passes a filter under other names exactly if it passes the other filter under them. -/
theorem Where.Reordered.passesUnder_iff {w v : Where} (h : w.Reordered v) (seen : String → String) (folding : Folding)
    (d : Document) : w.PassesUnder seen folding d ↔ v.PassesUnder seen folding d :=
  ⟨h.forall_conditions (P := fun field mode c => c.Passes folding mode (Fields.get? d (seen field))),
    h.symm.forall_conditions (P := fun field mode c => c.Passes folding mode (Fields.get? d (seen field)))⟩

namespace Cosmos

open Expression Operation

/-- What a search for a filter comes by, wherever it looks. -/
def searched (s : Memory) (c : Container) (w : Where) (order : Order) (continuation : Option String) :
    Except StoreError (Nat × List Document) := do
  let offset ← offsetOf continuation
  let shelf ← s.requireShelf c
  let found := shelf.documents.filter fun d => w.PassesUnder seenName .small d
  .ok (offset, if order.entries.isEmpty then found else sortBy (order.entries.map sortKey) found)

/-- A request with a valid filter is sent as a query that is answered with a page of what the search comes by. -/
theorem planRead_finds (c : Container) {w : Where} (hv : w.Valid) (select : Select) (order : Order)
    (ho : ∀ field ∈ order.entries.names, Quotable field) (take : Nat) (continuation : Option String) :
    ∃ spec, planRead c ⟨w, select, order, take, continuation⟩ = .ok (.query c spec (count32? take) continuation) ∧
      ∀ s : Memory, s.query c spec (count32? take) continuation =
        (searched s c w order continuation).map fun (offset, results) =>
          pageOf (projected? select) offset (count32? take) results := by
  obtain ⟨compiled, condition, hcompiled, hparse, hpasses⟩ := compileFindMany_seen hv select ho
  refine ⟨compiled.spec, by rw [planRead, hcompiled]; rfl, fun s => ?_⟩
  rw [query_eq_results s c hparse, Memory.results, Memory.found, searched]
  cases offsetOf continuation with
  | error e => rfl
  | ok offset =>
    cases s.requireShelf c with
    | error e => rfl
    | ok shelf =>
      simp only [bind, Except.bind, matching_passes hpasses, Except.mapError, List.isEmpty_map]

/-- What a search comes by does not depend on the order of its filter. -/
theorem searched_reordered {w v : Where} (h : w.Reordered v) (s : Memory) (c : Container) (order : Order)
    (continuation : Option String) : searched s c w order continuation = searched s c v order continuation := by
  simp only [searched, h.passesUnder_iff]

/-- The page of a whole result. -/
theorem pageOf_whole (projection : Option (List String)) {max : Option Nat} {results : List Document}
    (h : ∀ n ∈ max, results.length ≤ n) :
    pageOf projection 0 max results = ⟨some (.arr (results.map fun d => .obj (projectFields projection d))), none⟩ := by
  cases max with
  | none => simp [pageOf]
  | some n => simp [pageOf, Nat.min_eq_right (h n rfl)]

/-- What a search makes of the answer to its query, whatever the query was. -/
theorem outcome_query (c : Container) (spec spec' : Spec) (max : Option Nat) (continuation : Option String)
    (r : Except StoreError Page) :
    Operation.outcome (I := service) readPage (.query c spec max continuation) r =
      Operation.outcome (I := service) readPage (.query c spec' max continuation) r := by
  cases r <;> rfl

section

variable (config : EntityConfig) (options : Options) (clock : Nat → Instant) (ids : Nat → String) (latency : Nat)
  (world : World service Memory) (c : Container) {w v : Where}

/-- Searches whose filters differ in their order only come to the same result. -/
theorem findMany_reordered (h : w.Reordered v) (hv : w.Valid) (select : Select) (order : Order)
    (ho : ∀ field ∈ order.entries.names, Quotable field) (take : Nat) (continuation : Option String) :
    (Operation.run ⟨Memory.answer, clock, ids, latency⟩ config options world
        (findMany c ⟨w, select, order, take, continuation⟩)).1 =
      (Operation.run ⟨Memory.answer, clock, ids, latency⟩ config options world
        (findMany c ⟨v, select, order, take, continuation⟩)).1 := by
  obtain ⟨spec, hplan, hquery⟩ := planRead_finds c hv select order ho take continuation
  obtain ⟨spec', hplan', hquery'⟩ := planRead_finds c (h.valid hv) select order ho take continuation
  have hanswer : (Memory.answer (.query c spec (count32? take) continuation) world.store).1 =
      (Memory.answer (.query c spec' (count32? take) continuation) world.store).1 := by
    simp only [Memory.answer, Memory.act, hquery, hquery', searched_reordered h]
    cases world.store.failure <;> rfl
  have houtcome := (outcome_query c spec spec' (count32? take) continuation
    (Memory.answer (.query c spec (count32? take) continuation) world.store).1).trans
    (congrArg (Operation.outcome (I := service) readPage (.query c spec' (count32? take) continuation)) hanswer)
  simp only [result_findMany, hplan, hplan', Except.bind, houtcome]

/-- A search from the beginning for as many records as there are finds all those that pass the filter under the names that its own
are read as. -/
theorem findMany_finds {shelf : Shelf} (hv : w.Valid) (hfailure : world.store.failure = none)
    (hshelf : world.store.shelf? c = some shelf) (hcancel : options.cancelAfter ≠ some 0)
    (hlate : Operation.late? (I := service) ⟨Memory.answer, clock, ids, latency⟩ config options = none) (select : Select)
    {take : Nat} (htake : shelf.documents.length ≤ take) :
    (Operation.run ⟨Memory.answer, clock, ids, latency⟩ config options world
        (findMany c ⟨w, select, Keyed.empty, take, none⟩)).1 =
      .ok ⟨(shelf.documents.filter fun d => w.PassesUnder seenName .small d).map fun d =>
        strip (projectFields (projected? select) d), none⟩ := by
  obtain ⟨spec, hplan, hquery⟩ := planRead_finds c hv select Keyed.empty (List.forall_mem_nil _) take none
  have hsearched : searched world.store c w Keyed.empty none =
      .ok (0, shelf.documents.filter fun d => w.PassesUnder seenName .small d) := by
    simp only [searched, offsetOf, Memory.requireShelf, hshelf, bind, Except.bind]
    rfl
  generalize hfound : (shelf.documents.filter fun d => w.PassesUnder seenName .small d) = found at hsearched ⊢
  have hlength : ∀ n ∈ count32? take, found.length ≤ n := by
    intro n hn
    rw [count32?, Option.mem_def, Option.ite_none_right_eq_some] at hn
    obtain rfl := Option.some.inj hn.2
    exact hfound ▸ (List.length_filter_le _ _).trans htake
  have hanswer : (Memory.answer (.query c spec (count32? take) none) world.store).1 =
      .ok ⟨some (.arr (found.map fun d => .obj (projectFields (projected? select) d))), none⟩ := by
    rw [Memory.answer, answerUnless_of_none hfailure rfl, Memory.act, hquery, hsearched]
    exact congrArg Except.ok (pageOf_whole _ hlength)
  rw [result_findMany, if_neg hcancel, hlate, hplan]
  simp only [Except.bind, hanswer]
  show (normalizeItems (some (.arr (found.map fun d => .obj (projectFields (projected? select) d))))).map _ = _
  rw [normalizeItems_objects]
  simp only [Except.map, List.map_map]
  rfl

end

end Cosmos

end DocQuery
