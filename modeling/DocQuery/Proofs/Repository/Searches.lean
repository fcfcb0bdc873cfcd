import DocQuery.Proofs.Cosmos.Pages
import DocQuery.Proofs.Dynamo.Chains
import DocQuery.Proofs.Filter.Relations

/-!
# Whole searches

What a search returns when its cursors are followed to the end while nobody else calls the store. In a container as in a table
that is each record that passes the filter, once for each time it is stored, and in the order of the field that the search is
sorted by (`Cosmos.search_returns`, `Dynamo.search_returns`).
-/

namespace DocQuery

/-- Whether a search returns these items, when its cursors are followed and nobody else calls the store: after enough fetches the
chain of its pages ends, and the pages hold the items, one after the other. -/
def Repository.Returns {I : Interface} {S ρ : Type} (env : Surroundings I S) (r : Repository I ρ) (args : FindArgs) (w : World I S)
    (items : List ρ) : Prop :=
  ∃ enough, ∀ n, enough ≤ n → ∃ visits, r.follow env args (List.replicate n []) w = .ok visits ∧ Ended visits ∧
    visits.flatMap (·.page.items) = items

/-- Documents in the order of a field, upward or downward. -/
def SortedOn (field : String) (ascending : Bool) (ds : List Document) : Prop :=
  ds.Pairwise fun x y => Json.sortCompare (Fields.get? x field) (Fields.get? y field) ≠ if ascending then .gt else .lt

/-- The result of a search among records: those that pass, each as often as it is stored, and in the order of a field, if the
search has one. -/
structure Found (passes : Document → Bool) (key? : Option (String × Bool)) (records found : List Document) : Prop where
  perm : found.Perm (records.filter passes)
  sorted : ∀ key ∈ key?, SortedOn key.1 key.2 found

/-- What is found is stored and passes. -/
theorem Found.mem_iff {passes : Document → Bool} {key? : Option (String × Bool)} {records found : List Document}
    (h : Found passes key? records found) {d : Document} : d ∈ found ↔ d ∈ records ∧ passes d = true := by
  rw [h.perm.mem_iff, List.mem_filter]

/-- What is found depends on one condition, for a record that meets all others. -/
theorem Found.mem_iff_passes {seen : String → String} {folding : Folding} {w : Where} {key? : Option (String × Bool)}
    {records found : List Document} (h : Found (fun d => decide (w.PassesUnder seen folding d)) key? records found)
    {e : String × FieldFilter} {c : Condition} {d : Document} (hd : d ∈ records) (he : e ∈ w.entries)
    (hc : c ∈ e.2.conditions) (hbut : w.PassesBut seen folding e c d) :
    d ∈ found ↔ c.Passes folding e.2.mode (Fields.get? d (seen e.1)) := by
  rw [h.mem_iff, decide_eq_true_iff, hbut.passesUnder_iff he hc]
  exact and_iff_right hd

/-- What is found depends on one comparison, for a record that meets all other conditions and has in the field a value that
compares with the operand as two members of an order. -/
theorem Found.mem_iff_relates {α : Type} [LinearOrder α] {seen : String → String} {folding : Folding} {w : Where}
    {key? : Option (String × Bool)} {records found : List Document}
    (h : Found (fun d => decide (w.PassesUnder seen folding d)) key? records found) {e : String × FieldFilter} {op : Comparison}
    {v : Operand} {d : Document} {stored : Json} {a b : α} (hd : d ∈ records) (he : e ∈ w.entries)
    (hc : .compare op v ∈ e.2.conditions) (hbut : w.PassesBut seen folding e (.compare op v) d)
    (hstored : Fields.get? d (seen e.1) = some stored) (hcompare : stored.compare? v.toJson = some (compare a b)) :
    d ∈ found ↔ op.Relates a b := by
  rw [h.mem_iff_passes hd he hc hbut, hstored]
  exact Condition.passes_compare_iff hcompare folding e.2.mode

/-- Documents in the order of a field, where its values compare as members of an order. -/
theorem SortedOn.pairwise {α : Type} [LinearOrder α] {field : String} {ascending : Bool} {ds : List Document}
    (h : SortedOn field ascending ds) : ds.Pairwise fun x y => ∀ (j k : Json) (a b : α), Fields.get? x field = some j →
      Fields.get? y field = some k → j.compare? k = some (compare a b) → if ascending then a ≤ b else b ≤ a := by
  refine h.imp fun {x y} hne j k a b hj hk hcompare => ?_
  rw [hj, hk, Json.sortCompare_of_compare? hcompare] at hne
  cases ascending with
  | true => exact compare_le_iff_le.1 hne
  | false => exact compare_ge_iff_ge.1 hne

/-! ## Containers -/

namespace Cosmos

/-- Documents in the order of several fields are in the order of the first one. -/
theorem SortedBy.sortedOn {key : String × Bool} {rest : List (String × Bool)} {ds sorted : List Document}
    (h : SortedBy (key :: rest) ds sorted) : SortedOn key.1 key.2 sorted := by
  obtain ⟨field, ascending⟩ := key
  obtain ⟨-, hordered, -⟩ := sortedBy_iff_compareBy.1 h
  refine hordered.imp fun {x y} hle hwrong => ?_
  have hfield : compareField field ascending x y = .gt := by
    rw [compareField]
    cases ascending with
    | true => exact hwrong
    | false => exact (@Std.OrientedCmp.gt_iff_lt _ Json.sortCompare _ _ _).2 hwrong
  rw [compareBy_cons, compareLex, hfield] at hle
  cases hle

/-- A search in a container from its beginning: the filter and the page size are accepted, and the container stands in a store in
whose way no failure is, with no more documents than an offset can count. -/
structure Searchable (r : Repository service Document) (c : Container) (shelf : Shelf) (args : FindArgs) (take : Nat)
    (w : World service Memory) : Prop where
  filter : args.filter.Valid
  size : r.pageSize args.take = .ok take
  positive : 1 ≤ take
  cursor : args.cursor = none
  stands : Stands c shelf w.store
  length : shelf.documents.length < UInt64.size

/-- A search returns what it finds in the container. -/
theorem search_returns {name : String} {autoFields : AutoFields} {policy : WritePolicy} {query : QuerySettings}
    (clock : Nat → Instant) (ids : Nat → String) {c : Container} {shelf : Shelf} {args : FindArgs} {take : Nat}
    {w : World service Memory}
    (h : Searchable (.ofDocuments (.make name autoFields policy query) (adapter c)) c shelf args take w) :
    ∃ found,
      Found (fun d => decide (args.filter.PassesUnder seenName .small d)) (seenKeys args.order).head? shelf.documents found ∧
      (Repository.ofDocuments (.make name autoFields policy query) (adapter c)).Returns (surroundings clock ids) args w
        (found.map fun d => args.select.project (strip d)) := by
  obtain ⟨sorted, hsorted, hpage⟩ := search_reads clock ids shelf h.filter h.size
  have hshort : sorted.length < UInt64.size := by
    rw [hsorted.perm.length_eq]
    exact Nat.lt_of_le_of_lt (List.length_filter_le _ _) h.length
  refine ⟨sorted, ⟨hsorted.perm, fun key hkey => ?_⟩, pageCount take sorted.length, fun n hn => ?_⟩
  · obtain ⟨rest, hkeys⟩ := List.head?_eq_some_iff.1 hkey
    rw [hkeys] at hsorted
    exact hsorted.sortedOn
  · have hspares : ∀ calls ∈ List.replicate n ([] : List Call), ∀ call ∈ calls, call.Spares c := by
      intro calls hcalls
      rw [List.eq_of_mem_replicate hcalls]
      exact List.forall_mem_nil _
    have hstart : StartsAt none 0 := rfl
    obtain ⟨visits, hvisits, hall, -, ⟨page, hlast, hnone⟩, -⟩ :=
      follow_enumerates h.positive hshort hpage hspares h.stands hstart (by rwa [List.length_replicate])
    rw [Option.map_none, ← h.cursor] at hvisits
    rw [List.getLast?_map, Option.map_eq_some_iff] at hlast
    obtain ⟨visit, hvisit, rfl⟩ := hlast
    refine ⟨visits, hvisits, ⟨visit, hvisit, hnone⟩, ?_⟩
    rwa [List.flatMap_map, List.drop_zero] at hall

end Cosmos

/-! ## Tables -/

namespace Dynamo

/-- The field that a search in a table is sorted by, and whether upward: the sort key, where the filter has a plan. -/
def sortedBy? (t : Table) (filter : Where) (forward : Option Bool) : Option (String × Bool) :=
  if (keyPlan? t filter).isSome then t.sortKey.map (·, forward.getD true) else none

/-- Candidates in the order of a search by the sort key have documents in the order of this field. -/
theorem sortedOn_of_ordered {rows : Rows} {items : List (String × Item)} {forward : Bool} {sortKey : String}
    (hs : rows.sortKey = some sortKey) {cs : List Candidate} (hcs : ∀ c ∈ cs, c ∈ rows.standing true items)
    (hordered : cs.Pairwise fun a b => a.position.Before forward b.position) :
    SortedOn sortKey forward (cs.map (·.document)) := by
  refine List.pairwise_map.2 (hordered.imp_of_mem fun {a b} ha hb hbefore hwrong => ?_)
  have hvalue : ∀ c ∈ cs, c.position.sortValue = Fields.get? c.document sortKey := by
    intro c hc
    rw [Rows.sortValue_of_mem_standing (hcs c hc), if_pos rfl, hs, Option.bind_some]
  have horder : a.position.order b.position = if forward then .gt else .lt := by
    rw [Rows.Position.order, hvalue a ha, hvalue b hb, hwrong]
    cases forward <;> rfl
  have hclash := hbefore.symm.trans horder
  cases forward <;> cases hclash

/-- Following the cursors of a search in a table that is left alone brings what is left to it, as far as it passes the filter. -/
theorem follow_returns {r : Repository service Document} {clock : Nat → Instant} {ids : Nat → String} {t : Table} {course : Course}
    {args : FindArgs} (hpos : 1 ≤ course.take)
    (hpage : ∀ {w : World service Memory} {continuation : Option String} {bound : Option Rows.Position}, Serves t w.store →
      Resumes t course.bySortKey continuation bound → ∃ cs log, Remains course (w.store.rows t) bound cs ∧
        (r.findMany { args with cursor := continuation.map Cursor.encode }).Yields (surroundings clock ids) w
          (.ok (pageBehind t course args.select cs)) { w with log })
    {n : Nat} {w : World service Memory} {continuation : Option String} {bound : Option Rows.Position} (hw : Serves t w.store)
    (hresumes : Resumes t course.bySortKey continuation bound) {cs : List Candidate}
    (hcs : Remains course (w.store.rows t) bound cs) (hcount : pageCount course.take cs.length ≤ n) :
    ∃ visits, r.follow (surroundings clock ids) { args with cursor := continuation.map Cursor.encode } (List.replicate n []) w =
        .ok visits ∧
      Ended visits ∧
      visits.flatMap (·.page.items) =
        (cs.filter fun c => course.passes c.document).map fun c => args.select.project c.document := by
  induction n generalizing w continuation bound cs with
  | zero => exact absurd (Nat.le_trans (Nat.le_max_left _ _) hcount) (by simp)
  | succ n ih =>
    obtain ⟨cs', log, hremains, hyields⟩ := hpage hw hresumes
    obtain rfl := hremains.unique hcs
    have hyields' : (r.findMany { args with cursor := continuation.map Cursor.encode }).Yields (surroundings clock ids)
        { w with store := (surroundings clock ids).after w.store [] } (.ok (pageBehind t course args.select cs')) { w with log } :=
      hyields
    rcases pageBehind_cases hw hremains hpos args.select with ⟨hlt, last, next, hlast, hcursor, hnext⟩ | ⟨hle, hcursor⟩
    · have hleft : pageCount course.take (cs'.drop course.take).length ≤ n := by
        rw [pageCount_of_lt hpos hlt, ← List.length_drop] at hcount
        exact Nat.le_of_succ_le_succ hcount
      obtain ⟨visits, hvisits, hended, hitems⟩ := @ih { w with log } _ _ hw hnext _ (hcs.drop hlast) hleft
      refine ⟨_, (Repository.follow_next rfl hyields' hcursor).trans (congrArg _ hvisits), (ended_cons hended.ne_nil).2 hended, ?_⟩
      rw [List.flatMap_cons, hitems, pageBehind, ← List.map_append, ← List.filter_append, List.take_append_drop]
    · refine ⟨_, Repository.follow_last rfl hyields' hcursor, ended_singleton.2 hcursor, ?_⟩
      rw [List.flatMap_singleton, pageBehind, List.take_of_length_le hle]

/-- A search in a table from its beginning: the filter, the order and the page size are accepted, and the table can be read. -/
structure Searchable (r : Repository service Document) (t : Table) (args : FindArgs) (forward : Option Bool) (take : Nat)
    (w : World service Memory) : Prop where
  filter : args.filter.Valid
  limit : WithinLimit args.filter
  forward : forward? t (keyPlan? t args.filter).isSome args.order = .ok forward
  size : r.pageSize args.take = .ok take
  positive : 1 ≤ take
  cursor : args.cursor = none
  serves : Serves t w.store

/-- A search returns what it finds in the table. -/
theorem search_returns {name : String} {autoFields : AutoFields} {policy : WritePolicy} {query : QuerySettings}
    (clock : Nat → Instant) (ids : Nat → String) {t : Table} {args : FindArgs} {forward : Option Bool} {take : Nat}
    {w : World service Memory}
    (h : Searchable (.ofDocuments (.make name autoFields policy query) (adapter t)) t args forward take w) :
    ∃ found, Found (fun d => decide (args.filter.Passes .casings d)) (sortedBy? t args.filter forward) (w.store.documents t) found ∧
      (Repository.ofDocuments (.make name autoFields policy query) (adapter t)).Returns (surroundings clock ids) args w
        (found.map args.select.project) := by
  have hpage := @search_yields name autoFields policy query clock ids t args forward take h.filter h.limit h.forward h.size
    h.positive
  obtain ⟨cs, -, hcs, -⟩ := hpage h.serves (resumes_none t (courseOf t args.filter forward take).bySortKey)
  let course := courseOf t args.filter forward take
  refine ⟨(cs.filter fun c => course.passes c.document).map (·.document), ⟨?_, fun key hkey => ?_⟩, pageCount take cs.length,
    fun n hn => ?_⟩
  · have hperm := (hcs.perm.filter fun c => course.passes c.document).map (·.document)
    rw [List.filter_filter] at hperm
    have hlooked : ∀ c : Candidate, (course.passes c.document &&
        (course.key c.document && decide (c.position.Behind course.forward none))) = course.passes c.document := by
      intro c
      rw [decide_eq_true (Rows.Position.behind_none _ _), Bool.and_true]
      cases hpasses : course.passes c.document with
      | false => rfl
      | true => rw [course.key_of_passes _ hpasses, Bool.and_true]
    rw [← h.serves.documents_eq course.bySortKey, List.filter_map]
    refine hperm.trans (List.Perm.of_eq (congrArg _ (List.filter_congr fun c _ => hlooked c)))
  · obtain ⟨hplan, hkey⟩ : (keyPlan? t args.filter).isSome = true ∧ key ∈ t.sortKey.map (·, forward.getD true) := by
      rw [sortedBy?] at hkey
      split at hkey
      · next hplan => exact ⟨hplan, hkey⟩
      · cases hkey
    obtain ⟨sortKey, hs, rfl⟩ := Option.map_eq_some_iff.1 hkey
    have hstanding : ∀ c ∈ cs.filter fun c => course.passes c.document, c ∈ w.store.standing t true := by
      intro c hc
      rw [← hplan]
      exact (hcs.mem_iff.1 (List.mem_filter.1 hc).1).1
    exact sortedOn_of_ordered (h.serves.sound.sortKey.trans hs) hstanding (hcs.ordered.sublist List.filter_sublist)
  · obtain ⟨visits, hvisits, hended, hitems⟩ := follow_returns h.positive hpage h.serves (resumes_none t course.bySortKey) hcs hn
    rw [Option.map_none, ← h.cursor] at hvisits
    exact ⟨visits, hvisits, hended, hitems.trans (by rw [List.map_map]; rfl)⟩

end Dynamo

/-! ## Every search -/

section

variable (name : String) (autoFields : AutoFields) (policy : WritePolicy) (query : QuerySettings) (clock : Nat → Instant)
  (ids : Nat → String)

/-- What every search finds, in a container as in a table: it returns, all pages together, the records that pass the filter in the
order of the first sort key, of which a statement holds. Names stand for themselves in a table, and for what they are read as in a
container. -/
def EverySearchFinds
    (p : (String → String) → Folding → Where → Option (String × Bool) → List Document → List Document → Prop) : Prop :=
  (∀ (c : Cosmos.Container) (args : FindArgs) (take : Nat) (shelf : Cosmos.Shelf) (w : World Cosmos.service Cosmos.Memory),
    Cosmos.Searchable (.ofDocuments (.make name autoFields policy query) (Cosmos.adapter c)) c shelf args take w →
    ∃ found,
      Found (fun d => decide (args.filter.PassesUnder Cosmos.seenName .small d)) (Cosmos.seenKeys args.order).head?
        shelf.documents found ∧
      p Cosmos.seenName .small args.filter (Cosmos.seenKeys args.order).head? shelf.documents found ∧
      (Repository.ofDocuments (.make name autoFields policy query) (Cosmos.adapter c)).Returns (Cosmos.surroundings clock ids)
        args w (found.map fun d => args.select.project (Cosmos.strip d))) ∧
  ∀ (t : Dynamo.Table) (args : FindArgs) (forward : Option Bool) (take : Nat) (w : World Dynamo.service Dynamo.Memory),
    Dynamo.Searchable (.ofDocuments (.make name autoFields policy query) (Dynamo.adapter t)) t args forward take w →
    ∃ found,
      Found (fun d => decide (args.filter.PassesUnder id .casings d)) (Dynamo.sortedBy? t args.filter forward)
        (w.store.documents t) found ∧
      p id .casings args.filter (Dynamo.sortedBy? t args.filter forward) (w.store.documents t) found ∧
      (Repository.ofDocuments (.make name autoFields policy query) (Dynamo.adapter t)).Returns (Dynamo.surroundings clock ids)
        args w (found.map args.select.project)

/-- What holds of everything that is found holds of what every search finds. -/
theorem everySearchFinds
    {p : (String → String) → Folding → Where → Option (String × Bool) → List Document → List Document → Prop}
    (h : ∀ {seen folding w key? records found}, Found (fun d => decide (w.PassesUnder seen folding d)) key? records found →
      p seen folding w key? records found) : EverySearchFinds name autoFields policy query clock ids p := by
  constructor
  · intro c args take shelf w hsearch
    obtain ⟨found, hfound, hreturns⟩ := Cosmos.search_returns clock ids hsearch
    exact ⟨found, hfound, h hfound, hreturns⟩
  · intro t args forward take w hsearch
    obtain ⟨found, hfound, hreturns⟩ := Dynamo.search_returns clock ids hsearch
    exact ⟨found, hfound, h hfound, hreturns⟩

end

end DocQuery
