import DocQuery.Proofs.Cursor
import DocQuery.Proofs.Repository.Simulation
import DocQuery.Repository.Connect

/-!
# Following cursors

A caller that wants all records fetches a page, then the page after its cursor, and so on until a page has no cursor. Between two
fetches others may call the store. What such a chain of pages comes to depends on the store; here is what all chains have in
common, and what it means that the pages of a chain enumerate a list.
-/

namespace DocQuery

variable {I : Interface} {S ρ : Type}

/-- The store after calls of others. -/
def Surroundings.after (env : Surroundings I S) (s : S) (calls : List I.Call) : S :=
  calls.foldl (fun s call => (env.answer call s).2) s

/-- A page, and the store that it was fetched from. -/
structure Visit (S ρ : Type) where
  /-- The store at the fetch. -/
  store : S
  /-- The page. -/
  page : RecordsPage ρ

/-- The page size that a search asks for under query settings, if it is one that they allow. -/
def QuerySettings.Asks (q : QuerySettings) (take : Option Int64) (size : Nat) : Prop :=
  match take with
  | none => size = q.defaultPageSize.toNat
  | some n => 1 ≤ n.toInt ∧ n.toInt ≤ q.maxPageSize.toNat ∧ n.toInt = size

/-- Documents as a store hands them out. -/
theorem normalizeItems_objects {α : Type} (f : α → Document) (xs : List α) :
    normalizeItems (some (.arr (xs.map fun x => .obj (f x)))) = .ok (xs.map f) := by
  have hfrom : ∀ index, objectsFrom index (xs.map fun x => .obj (f x)) = .ok (xs.map f) := by
    induction xs with
    | nil => exact fun _ => rfl
    | cons x xs ih =>
      intro index
      rw [List.map_cons, objectsFrom, ih]
      rfl
  exact hfrom 0

/-- A record of a result set is an object of it. -/
theorem head_of_normalizeItems {items : Option Json} {d : Document} {ds : List Document} (h : normalizeItems items = .ok (d :: ds)) :
    ∃ rest, items = some (.arr (.obj d :: rest)) := by
  rw [normalizeItems.eq_def] at h
  split at h
  · cases h
  · rename_i listed
    rw [objectsFrom.eq_def] at h
    split at h
    · cases h
    · rename_i members rest
      cases hrest : objectsFrom (0 + 1) rest with
      | error e => rw [hrest] at h; cases h
      | ok others => rw [hrest] at h; cases h; exact ⟨rest, rfl⟩
    · cases h
  · cases h

namespace Repository

/-- The pages that are fetched one after the other, each by the cursor of the one before it, until there is no cursor or no further
fetch. A fetch is a list of calls by which others precede it. -/
def follow (env : Surroundings I S) (r : Repository I ρ) (args : FindArgs) :
    List (List I.Call) → World I S → Except Error (List (Visit S ρ))
  | [], _ => .ok []
  | calls :: rest, w =>
    let w := { w with store := env.after w.store calls }
    match Operation.run env r.config .none w (r.findMany args) with
    | (.error e, _) => .error e
    | (.ok page, w') =>
      if page.nextCursor.isNone then .ok [⟨w.store, page⟩]
      else (r.follow env { args with cursor := page.nextCursor } rest w').map (⟨w.store, page⟩ :: ·)

section

variable {env : Surroundings I S} {r : Repository I ρ} {args : FindArgs} {calls : List I.Call} {rest : List (List I.Call)}
  {w w' : World I S} {page : RecordsPage ρ}

/-- A fetch that brings a page without a cursor is the last one. -/
theorem follow_last (h : env.latency = 0)
    (hpage : (r.findMany args).Yields env { w with store := env.after w.store calls } (.ok page) w')
    (hcursor : page.nextCursor = none) : r.follow env args (calls :: rest) w = .ok [⟨env.after w.store calls, page⟩] := by
  obtain ⟨items, cursor⟩ := page
  obtain rfl : cursor = none := hcursor
  rw [follow, hpage.run h]
  rfl

/-- A fetch that brings a page with a cursor is followed by the next one. -/
theorem follow_next (h : env.latency = 0) {cursor : String}
    (hpage : (r.findMany args).Yields env { w with store := env.after w.store calls } (.ok page) w')
    (hcursor : page.nextCursor = some cursor) :
    r.follow env args (calls :: rest) w =
      (r.follow env { args with cursor := some cursor } rest w').map (⟨env.after w.store calls, page⟩ :: ·) := by
  obtain ⟨items, next⟩ := page
  obtain rfl : next = some cursor := hcursor
  rw [follow, hpage.run h]
  rfl

end

/-! ## One page -/

/-- Documents are taken as they are. -/
theorem mapM_materialize (config : EntityConfig) (a : Adapter I) (f : Document → Document) (ds : List Document) :
    ds.mapM (fun d => (ofDocuments config a).materialize (f d)) = .ok (ds.map f) := by
  induction ds with
  | nil => rfl
  | cons d ds ih =>
    rw [List.mapM_cons, ih]
    rfl

/-- The request for a page after a continuation, or for the first one. -/
theorem pageRequest_eq {r : Repository I ρ} {args : FindArgs} {take : Nat} {continuation : Option String}
    (hfilter : args.filter.Valid) (htake : r.pageSize args.take = .ok take)
    (hcursor : args.cursor = continuation.map Cursor.encode) (hne : continuation ≠ some "") :
    r.pageRequest args = .ok ⟨args.filter, args.select, args.order, take, continuation⟩ := by
  rw [pageRequest, htake, hcursor]
  cases continuation with
  | none =>
    rw [Where.Valid] at hfilter
    simp only [Option.map_none, hfilter]
    rfl
  | some token =>
    rw [Where.Valid] at hfilter
    simp only [Option.map_some, Cursor.decode_encode (fun h => hne (congrArg some h)), hfilter]
    rfl

/-- A page of records is a page of the store, projected, with its continuation as a cursor. -/
theorem findMany_yields {env : Surroundings I S} (h : env.latency = 0) {config : EntityConfig} {a : Adapter I} {args : FindArgs}
    {request : PageRequest} {page : RecordPage} {w w' : World I S}
    (hrequest : (ofDocuments config a).pageRequest args = .ok request)
    (hpage : (a.findMany request).Yields env w (.ok page) w') :
    ((ofDocuments config a).findMany args).Yields env w
      (.ok ⟨page.items.map request.select.project, page.continuation.map Cursor.encode⟩) w' := by
  have hitems : (Operation.of (page.items.mapM fun d => (ofDocuments config a).materialize (request.select.project d)) :
      Operation I (List Document)).Yields env w' (.ok (page.items.map request.select.project)) w' := by
    rw [mapM_materialize]
    exact .of _ _
  rw [findMany, hrequest]
  exact (Operation.Yields.of _ _).bind h (hpage.bind h (hitems.bind h (.pure _ _)))

/-- A page size that settings allow is accepted as it is. -/
theorem pageSize_of_asks {r : Repository I ρ} {name : String} {autoFields : AutoFields} {policy : WritePolicy} {q : QuerySettings}
    (hconfig : r.config = .make name autoFields policy q) {take : Option Int64} {size : Nat} (h : q.Asks take size) :
    r.pageSize take = .ok size := by
  cases take with
  | none =>
    rw [pageSize, hconfig]
    exact congrArg Except.ok (Eq.symm h)
  | some n =>
    obtain ⟨hlow, hhigh, hsize⟩ := h
    have hrange : 1 ≤ n.toInt ∧ n.toInt ≤ (r.config.maxPageSize : Int) := ⟨hlow, hconfig ▸ hhigh⟩
    rw [pageSize, if_pos hrange, hsize, Int.toNat_natCast]

/-- A page size that is accepted fits 32 bits. -/
theorem pageSize_lt {name : String} {autoFields : AutoFields} {policy : WritePolicy} {query : QuerySettings} {a : Adapter I}
    {size : Option Int64} {take : Nat}
    (h : (ofDocuments (.make name autoFields policy query) a).pageSize size = .ok take) : take < UInt32.size := by
  cases size with
  | none =>
    cases h
    exact query.defaultPageSize.toNat_lt
  | some n =>
    rw [pageSize] at h
    split at h
    · next hn =>
      cases h
      have hmax : n.toInt ≤ query.maxPageSize.toNat := hn.2
      have hlt : query.maxPageSize.toNat < UInt32.size := query.maxPageSize.toNat_lt
      omega
    · cases h

end Repository

/-! ## Pages that enumerate a list -/

/-- How many pages of a size hold a number of items: at least one, and otherwise no more than are needed. -/
def pageCount (take n : Nat) : Nat := max 1 ((n + take - 1) / take)

/-- One page is enough for what fits it. -/
theorem pageCount_of_le {take n : Nat} (hpos : 1 ≤ take) (h : n ≤ take) : pageCount take n = 1 := by
  have hcount : (n + take - 1) / take ≤ 1 := by
    rw [← Nat.lt_succ_iff, Nat.div_lt_iff_lt_mul hpos]
    omega
  exact Nat.max_eq_left hcount

/-- A full page is one page more. -/
theorem pageCount_of_lt {take n : Nat} (hpos : 1 ≤ take) (h : take < n) : pageCount take n = pageCount take (n - take) + 1 := by
  have hrest : n - take + take - 1 = n - 1 := by omega
  have hall : n + take - 1 = n - 1 + take := by omega
  have hone : 1 ≤ (n - 1) / take := (Nat.one_le_div_iff hpos).2 (by omega)
  rw [pageCount, pageCount, hrest, hall, Nat.add_div_right _ hpos, Nat.max_eq_right hone, Nat.max_eq_right (Nat.le_add_left _ _)]

/-- Pages that hold the items of a list, one after the other: each page but the last is full, the last one has no cursor, and no
page is more than needed. -/
structure Enumerates (take : Nat) (items : List ρ) (pages : List (RecordsPage ρ)) : Prop where
  all : pages.flatMap (·.items) = items
  full : ∀ page ∈ pages.dropLast, page.items.length = take
  ended : ∃ page, pages.getLast? = some page ∧ page.nextCursor = none
  count : pages.length = pageCount take items.length

/-- What fits one page is enumerated by it. -/
theorem Enumerates.single {take : Nat} {items : List ρ} (hpos : 1 ≤ take) (h : items.length ≤ take) :
    Enumerates take items [⟨items, none⟩] where
  all := by simp
  full := by simp
  ended := ⟨_, rfl, rfl⟩
  count := (pageCount_of_le hpos h).symm

/-- A full page and the pages of the rest. -/
theorem Enumerates.cons {take : Nat} {items : List ρ} {pages : List (RecordsPage ρ)} (hpos : 1 ≤ take) (hlt : take < items.length)
    (h : Enumerates take (items.drop take) pages) (cursor : Option String) :
    Enumerates take items (⟨items.take take, cursor⟩ :: pages) where
  all := by rw [List.flatMap_cons, h.all, List.take_append_drop]
  full := by
    have hne : pages ≠ [] := by
      rintro rfl
      obtain ⟨page, hlast, -⟩ := h.ended
      cases hlast
    intro page hpage
    rw [List.dropLast_cons_of_ne_nil hne, List.mem_cons] at hpage
    rcases hpage with rfl | hpage
    · exact List.length_take_of_le hlt.le
    · exact h.full page hpage
  ended := by
    obtain ⟨page, hlast, hnone⟩ := h.ended
    refine ⟨page, ?_, hnone⟩
    rw [List.getLast?_cons, hlast]
    rfl
  count := by rw [List.length_cons, h.count, List.length_drop, pageCount_of_lt hpos hlt]

end DocQuery
