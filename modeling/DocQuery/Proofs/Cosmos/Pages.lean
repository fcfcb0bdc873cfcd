import DocQuery.Proofs.Cosmos.Contract
import DocQuery.Proofs.Cosmos.Sorting
import DocQuery.Proofs.Repository.Pages

/-!
# The pages of a container

A continuation is an offset into the result of a query, which is computed afresh for each page. As long as the container is left
alone the result stays the same, so following the cursors enumerates it: the documents that pass the filter, sorted
(`cursors_enumerate`).
-/

namespace DocQuery.Cosmos

open Expression Operation

/-! ## Containers that are left alone -/

/-- A store in whose way no failure is, and in which a container is as it was. -/
structure Stands (c : Container) (shelf : Shelf) (s : Memory) : Prop where
  failure : s.failure = none
  shelf : s.shelf? c = some shelf

/-- A call that reads, or that writes to another container. -/
def Call.Spares (c : Container) : Call → Prop
  | .query _ _ _ _ => True
  | .create other _ | .upsert other _ | .replace other _ _ _ | .delete other _ _ =>
    (other.database, other.name) ≠ (c.database, c.name)

section

variable {c other : Container} {shelf : Shelf} {s : Memory}

/-- Writing to one container leaves the others alone. -/
theorem shelf?_setDocuments_of_ne (s : Memory) (h : (other.database, other.name) ≠ (c.database, c.name)) (ds : List Document) :
    (s.setDocuments other ds).shelf? c = s.shelf? c := by
  obtain ⟨shelves, failure⟩ := s
  simp only [Memory.shelf?, Memory.setDocuments]
  induction shelves with
  | nil => rfl
  | cons e rest ih =>
    obtain ⟨key, shelf⟩ := e
    rw [List.map_cons]
    by_cases hkey : key = (other.database, other.name)
    · have hne : ((c.database, c.name) == key) = false := beq_false_of_ne (hkey ▸ h.symm)
      rw [if_pos hkey, List.lookup_cons, List.lookup_cons, hne]
      exact ih
    · rw [if_neg hkey, List.lookup_cons, List.lookup_cons, ih]

/-- The result of a write to one container leaves the others alone. -/
theorem Stands.store (h : Stands c shelf s) (hne : (other.database, other.name) ≠ (c.database, c.name)) {α : Type}
    (r : Except StoreError (List Document × α)) : Stands c shelf (s.store other r).2 := by
  cases r with
  | error e => exact h
  | ok r => exact ⟨h.failure, (shelf?_setDocuments_of_ne s hne r.1).trans h.shelf⟩

/-- A container stands after a call that spares it. -/
theorem Stands.answer (h : Stands c shelf s) {call : Call} (hcall : call.Spares c) : Stands c shelf (Memory.answer call s).2 := by
  rw [Memory.answer, answerUnless_of_none h.failure rfl]
  cases call with
  | query other spec max continuation => exact h
  | create other d => exact h.store hcall _
  | upsert other d => exact h.store hcall _
  | replace other id partition d => exact h.store hcall _
  | delete other id partition => exact h.store hcall _

/-- A container stands after calls that spare it. -/
theorem Stands.after (h : Stands c shelf s) {clock : Nat → Instant} {ids : Nat → String} {calls : List Call}
    (hcalls : ∀ call ∈ calls, call.Spares c) : Stands c shelf ((surroundings clock ids).after s calls) := by
  induction calls generalizing s with
  | nil => exact h
  | cons call calls ih =>
    obtain ⟨hcall, hrest⟩ := List.forall_mem_cons.1 hcalls
    exact ih (h.answer hcall) hrest

end

/-! ## One page -/

/-- Where the page after a continuation starts. -/
def StartsAt (continuation : Option String) (offset : Nat) : Prop :=
  match continuation with
  | none => offset = 0
  | some token => offset? token = some offset

/-- The digits of a number of 64 bits are read as an offset. -/
theorem offset?_naturalText {n : Nat} (h : n < UInt64.size) : offset? (String.ofList (Decimal.naturalText n)) = some n := by
  have hdigits := Decimal.all_isAsciiDigit_naturalText n
  have hne := Decimal.naturalText_ne_nil n
  have hsign : ∀ rest, Decimal.naturalText n ≠ '+' :: rest := fun rest => (Decimal.ne_sign_of_digits hdigits rest).2
  rw [offset?, String.toList_ofList]
  split
  · next rest hrest => exact absurd hrest (hsign rest)
  · simp [hdigits, hne, Decimal.digitsValue_naturalText, h]

/-- The documents for which a formula holds that never fails. -/
theorem matching_passes {params : Fields Json} {condition : Option Formula} {p : Document → Bool}
    (h : ∀ d, Scope.passes ⟨d, params⟩ condition = .ok (p d)) (ds : List Document) :
    matching params condition ds = .ok (ds.filter p) := by
  cases condition with
  | none =>
    have hall : ds.filter p = ds := List.filter_eq_self.2 fun d _ => (Except.ok.inj (h d)).symm
    rw [matching, hall]
  | some f => exact filterM_ok h ds

/-- A query whose text and condition are understood answers with a page of the documents that it selects. -/
theorem query_eq {c : Container} {shelf : Shelf} {s : Memory} {spec : Spec} {query : Query} {found : List Document}
    {continuation : Option String} {offset : Nat} (hparse : parseQuery spec.query = .ok query) (hshelf : s.shelf? c = some shelf)
    (hmatching : matching (Fields.ofList spec.parameters) query.condition shelf.documents = .ok found)
    (hstart : StartsAt continuation offset) (max : Option Nat) :
    s.query c spec max continuation =
      .ok (pageOf query.projection offset max (if query.order.isEmpty then found else sortBy query.order found)) := by
  cases continuation with
  | none =>
    cases hstart
    simp only [Memory.query, hparse, Memory.requireShelf, hshelf, hmatching, bind, Except.bind, Except.mapError]
  | some token =>
    have htoken : offset? token = some offset := hstart
    simp only [Memory.query, hparse, Memory.requireShelf, hshelf, htoken, hmatching, bind, Except.bind, Except.mapError]

/-- A filter on quotable fields means the same under the names that its own are read as. -/
theorem passesUnder_seenName {w : Where} (h : ∀ field ∈ w.entries.names, Quotable field) (folding : Folding) (d : Document) :
    w.PassesUnder seenName folding d ↔ w.Passes folding d := by
  refine forall₂_congr fun e he => ?_
  rw [seenName_of_quotable (h e.1 (List.mem_map.2 ⟨e, he, rfl⟩))]

/-- The documents that pass a filter on quotable fields. -/
theorem filter_passesUnder_seenName {w : Where} (h : ∀ field ∈ w.entries.names, Quotable field) (folding : Folding)
    (ds : List Document) : (ds.filter fun d => w.PassesUnder seenName folding d) = ds.filter fun d => w.Passes folding d :=
  List.filter_congr fun d _ => decide_eq_decide.2 (passesUnder_seenName h folding d)

/-- The result of a search in a container, of which every page is a part. -/
theorem query_pages {c : Container} (shelf : Shelf) {filter : Where} (select : Select) (order : Order) (hfilter : filter.Valid) :
    ∃ compiled sorted, compileFindMany filter select order = .ok compiled ∧
      SortedBy (seenKeys order) (shelf.documents.filter fun d => filter.PassesUnder seenName .small d) sorted ∧
      ∀ {s : Memory} {continuation : Option String} {offset : Nat}, s.shelf? c = some shelf → StartsAt continuation offset →
        ∀ max, s.query c compiled.spec max continuation = .ok (pageOf (projected? select) offset max sorted) := by
  obtain ⟨compiled, condition, hcompiled, hparse, hpasses⟩ := compileFindMany_reads hfilter select order
  generalize hfound : (shelf.documents.filter fun d => filter.PassesUnder seenName .small d) = found at *
  have hmatching := hfound ▸ matching_passes hpasses shelf.documents
  refine ⟨_, if (seenKeys order).isEmpty then found else sortBy (seenKeys order) found, hcompiled, ?_, ?_⟩
  · split
    · next hempty =>
      rw [List.isEmpty_iff.1 hempty]
      exact sortedBy_nil found
    · exact sortedBy_sortBy _ found
  · intro s continuation offset hshelf hstart max
    exact query_eq hparse hshelf hmatching hstart max

/-- A page of a result begins at its offset and has at most as many documents as were asked for. -/
theorem pageOf_some (projection : Option (List String)) (offset take : Nat) (results : List Document) :
    pageOf projection offset (some take) results =
      ⟨some (.arr (((results.drop offset).take take).map fun d => .obj (projectFields projection d))),
        if offset + take < results.length then some (String.ofList (Decimal.naturalText (offset + take))) else none⟩ := by
  have hdocuments : (results.take (min (offset + take) results.length)).drop offset = (results.drop offset).take take := by
    rw [← List.take_take, List.take_length, List.drop_take, Nat.add_sub_cancel_left]
  rw [pageOf]
  simp only [hdocuments]
  by_cases hlt : offset + take < results.length
  · rw [Nat.min_eq_left hlt.le]
  · rw [Nat.min_eq_right (Nat.not_lt.1 hlt), if_neg (Nat.lt_irrefl _), if_neg hlt]

/-- The page of a search that begins at an offset into its result. -/
def pageFrom (select : Select) (take : Nat) (sorted : List Document) (offset : Nat) : RecordsPage Document where
  items := ((sorted.drop offset).take take).map fun d => select.project (strip d)
  nextCursor :=
    if offset + take < sorted.length then some (Cursor.encode (String.ofList (Decimal.naturalText (offset + take)))) else none

section

variable {name : String} {autoFields : AutoFields} {policy : WritePolicy} {query : QuerySettings} {clock : Nat → Instant}
  {ids : Nat → String} {c : Container} {shelf : Shelf} {args : FindArgs} {take : Nat}

variable (clock ids shelf) in
/-- A search has one result while its container is left alone, and every page is a part of it: the documents that pass the filter
under the names that its own are read as, sorted under such names. -/
theorem search_reads (hfilter : args.filter.Valid)
    (htake : (Repository.ofDocuments (.make name autoFields policy query) (adapter c)).pageSize args.take = .ok take) :
    ∃ sorted, SortedBy (seenKeys args.order) (shelf.documents.filter fun d => args.filter.PassesUnder seenName .small d) sorted ∧
      ∀ {w : World service Memory} {continuation : Option String} {offset : Nat}, Stands c shelf w.store →
        StartsAt continuation offset → ∃ log,
          ((Repository.ofDocuments (.make name autoFields policy query) (adapter c)).findMany
            { args with cursor := continuation.map Cursor.encode }).Yields (surroundings clock ids) w
            (.ok (pageFrom args.select take sorted offset)) { w with log } := by
  obtain ⟨compiled, sorted, hcompiled, hsorted, hpages⟩ := query_pages shelf args.select args.order hfilter
  refine ⟨sorted, hsorted, fun {w continuation offset} hstands hstart => ?_⟩
  have hne : continuation ≠ some "" := by
    rintro rfl
    cases hstart
  have hcount : count32? take = some take := if_pos (Repository.pageSize_lt htake)
  have hact : w.store.act (.query c compiled.spec (some take) continuation) =
      (.ok (pageOf (projected? args.select) offset (some take) sorted), w.store) := by
    rw [Memory.act, hpages hstands.shelf hstart]
    rfl
  have hask : (ask c compiled (some take) continuation).Yields (surroundings clock ids) w
      (.ok (pageOf (projected? args.select) offset (some take) sorted))
      { w with log := w.log ++ [.query c compiled.spec (some take) continuation] } :=
    Yields.call (surroundings clock ids) (.query c compiled.spec (some take) continuation)
      (answerUnless_of_none hstands.failure hact) (·.mapError .storeFailure)
  refine ⟨w.log ++ [.query c compiled.spec (some take) continuation], ?_⟩
  have hfind : ((adapter c).findMany ⟨args.filter, args.select, args.order, take, continuation⟩).Yields
      (surroundings clock ids) w
      (.ok ⟨((sorted.drop offset).take take).map fun d => strip (projectFields (projected? args.select) d),
        if offset + take < sorted.length then some (String.ofList (Decimal.naturalText (offset + take))) else none⟩)
      { w with log := w.log ++ [.query c compiled.spec (some take) continuation] } := by
    show (findMany c _).Yields _ _ _ _
    rw [findMany, hcompiled, hcount]
    refine (Yields.of _ _).bind rfl (hask.bind rfl ?_)
    rw [pageOf_some, normalizeItems_objects]
    exact (Yields.of _ _).bind rfl (by rw [List.map_map]; exact .pure _ _)
  have hrequest := @Repository.pageRequest_eq _ _ _ { args with cursor := continuation.map Cursor.encode } _ _ hfilter htake rfl hne
  have hpage := Repository.findMany_yields (by rfl) hrequest hfind
  have hfrom : pageFrom args.select take sorted offset = ⟨(((sorted.drop offset).take take).map fun d =>
      strip (projectFields (projected? args.select) d)).map args.select.project,
      (if offset + take < sorted.length then some (String.ofList (Decimal.naturalText (offset + take))) else none).map
        Cursor.encode⟩ := by
    rw [List.map_map, pageFrom, RecordsPage.mk.injEq]
    refine ⟨List.map_congr_left fun d _ => (project_strip args.select d).symm, ?_⟩
    split <;> rfl
  rw [hfrom]
  exact hpage

variable (clock ids shelf) in
/-- The same where all names are read as they are. -/
theorem search_yields (hfilter : args.filter.Valid) (hnames : ∀ field ∈ args.filter.entries.names, Quotable field)
    (horder : ∀ field ∈ args.order.entries.names, Quotable field)
    (htake : (Repository.ofDocuments (.make name autoFields policy query) (adapter c)).pageSize args.take = .ok take) :
    ∃ sorted, SortedBy (args.order.entries.map sortKey) (shelf.documents.filter fun d => args.filter.Passes .small d) sorted ∧
      ∀ {w : World service Memory} {continuation : Option String} {offset : Nat}, Stands c shelf w.store →
        StartsAt continuation offset → ∃ log,
          ((Repository.ofDocuments (.make name autoFields policy query) (adapter c)).findMany
            { args with cursor := continuation.map Cursor.encode }).Yields (surroundings clock ids) w
            (.ok (pageFrom args.select take sorted offset)) { w with log } := by
  rw [← seenKeys_of_quotable horder, ← filter_passesUnder_seenName hnames]
  exact search_reads clock ids shelf hfilter htake

end

/-! ## All pages -/

/-- Pages of a result from an offset on, each after the one before it, enumerate the rest of the result, provided that the container
is left alone. -/
theorem follow_enumerates {r : Repository service Document} {clock : Nat → Instant} {ids : Nat → String} {c : Container}
    {shelf : Shelf} {args : FindArgs} {take : Nat} {sorted : List Document} (hpos : 1 ≤ take)
    (hlength : sorted.length < UInt64.size)
    (hpage : ∀ {w : World service Memory} {continuation : Option String} {offset : Nat}, Stands c shelf w.store →
      StartsAt continuation offset → ∃ log, (r.findMany { args with cursor := continuation.map Cursor.encode }).Yields
        (surroundings clock ids) w (.ok (pageFrom args.select take sorted offset)) { w with log })
    {fetches : List (List Call)} (hspares : ∀ calls ∈ fetches, ∀ call ∈ calls, call.Spares c) {w : World service Memory}
    {continuation : Option String} {offset : Nat} (hw : Stands c shelf w.store) (hstart : StartsAt continuation offset)
    (hcount : pageCount take (sorted.drop offset).length ≤ fetches.length) :
    ∃ visits, r.follow (surroundings clock ids) { args with cursor := continuation.map Cursor.encode } fetches w = .ok visits ∧
      Enumerates take ((sorted.drop offset).map fun d => args.select.project (strip d)) (visits.map (·.page)) := by
  induction fetches generalizing w continuation offset with
  | nil => exact absurd (Nat.le_trans (Nat.le_max_left _ _) hcount) (by simp)
  | cons calls rest ih =>
    obtain ⟨hcalls, hrest⟩ := List.forall_mem_cons.1 hspares
    have hw' : Stands c shelf ((surroundings clock ids).after w.store calls) := hw.after hcalls
    obtain ⟨log, hyields⟩ := @hpage { w with store := (surroundings clock ids).after w.store calls } _ _ hw' hstart
    rw [pageFrom] at hyields
    by_cases hlt : offset + take < sorted.length
    · have hdrop : (sorted.drop offset).drop take = sorted.drop (offset + take) := List.drop_drop
      have hmore : take < (sorted.drop offset).length := by rw [List.length_drop]; omega
      have hleft : pageCount take (sorted.drop (offset + take)).length ≤ rest.length := by
        rw [pageCount_of_lt hpos hmore, ← List.length_drop, hdrop, List.length_cons] at hcount
        exact Nat.le_of_succ_le_succ hcount
      rw [if_pos hlt] at hyields
      obtain ⟨visits, hvisits, henumerates⟩ := @ih hrest
        { w with store := (surroundings clock ids).after w.store calls, log }
        (some (String.ofList (Decimal.naturalText (offset + take)))) (offset + take) hw' (offset?_naturalText (by omega)) hleft
      refine ⟨_, (Repository.follow_next rfl hyields rfl).trans (congrArg _ hvisits), ?_⟩
      rw [← hdrop, List.map_drop] at henumerates
      rw [List.map_cons, List.map_take]
      exact henumerates.cons hpos (by rwa [List.length_map]) _
    · have hrest : (sorted.drop offset).length ≤ take := by rw [List.length_drop]; omega
      rw [if_neg hlt, List.take_of_length_le hrest] at hyields
      exact ⟨_, Repository.follow_last rfl hyields rfl, .single hpos (by rwa [List.length_map])⟩

/-- While its container is left alone, a search has one result: the documents that pass the filter, in the order of the sort keys
and otherwise as they were stored. Following the cursors from the first page on enumerates it, and a page may be fetched from any
offset, even one past the end. -/
theorem cursors_enumerate (name : String) (autoFields : AutoFields) (policy : WritePolicy) (query : QuerySettings)
    (clock : Nat → Instant) (ids : Nat → String) (c : Container) (args : FindArgs) {take : Nat} {shelf : Shelf}
    {w : World service Memory} (hfilter : args.filter.Valid) (hnames : ∀ field ∈ args.filter.entries.names, Quotable field)
    (horder : ∀ field ∈ args.order.entries.names, Quotable field)
    (htake : query.Asks args.take take) (hpos : 1 ≤ take) (hcursor : args.cursor = none) (hstands : Stands c shelf w.store)
    (hlength : shelf.documents.length < UInt64.size) :
    let r := Repository.ofDocuments (.make name autoFields policy query) (adapter c)
    let env := surroundings clock ids
    ∃ sorted, SortedBy (args.order.entries.map sortKey) (shelf.documents.filter fun d => args.filter.Passes .small d) sorted ∧
      (∀ fetches : List (List Call), (∀ calls ∈ fetches, ∀ call ∈ calls, call.Spares c) →
        pageCount take sorted.length ≤ fetches.length →
        ∃ visits, r.follow env args fetches w = .ok visits ∧
          Enumerates take (sorted.map fun d => args.select.project (strip d)) (visits.map (·.page))) ∧
      ∀ token offset, offset? token = some offset →
        (Operation.run env r.config .none w (r.findMany { args with cursor := some (Cursor.encode token) })).1 =
          .ok (pageFrom args.select take sorted offset) := by
  intro r env
  obtain ⟨sorted, hsorted, hpage⟩ := search_yields clock ids shelf hfilter hnames horder (Repository.pageSize_of_asks rfl htake)
  have hshort : sorted.length < UInt64.size := by
    rw [hsorted.perm.length_eq]
    exact Nat.lt_of_le_of_lt (List.length_filter_le _ _) hlength
  refine ⟨sorted, hsorted, fun fetches hspares hcount => ?_, fun token offset htoken => ?_⟩
  · have hstart : StartsAt none 0 := rfl
    have hfollow := follow_enumerates hpos hshort hpage hspares hstands hstart hcount
    rwa [Option.map_none, ← hcursor] at hfollow
  · obtain ⟨log, hyields⟩ := @hpage w (some token) offset hstands htoken
    exact congrArg Prod.fst (hyields.run rfl r.config .none)

/-- The same for four documents of which three pass and two of these tie, two to a page, while another container is written to. -/
theorem cursors_enumerate_of_ties :
    let c : Container := ⟨"app", "users", "id"⟩
    let document (id : String) (rank : Int64) : Document := [("id", .str id), ("rank", Json.ofInt64 rank), ("_ts", .null)]
    let shelf : Shelf := ⟨"id", [document "b" 2, document "c" 0, document "d" 7, document "a" 2]⟩
    let args : FindArgs :=
      ⟨Keyed.ofList [("rank", ⟨[.compare .gt (.integer 1)], .sensitive⟩)], some 2, none, Select.ofFields ["rank", "id"],
        Keyed.ofList [("rank", .descending)]⟩
    let w : World service Memory := ⟨⟨[(("app", "users"), shelf), (("app", "orders"), ⟨"id", []⟩)], none⟩, 0, 0, []⟩
    let r := Repository.ofDocuments (.make "User" .default .existenceChecked .default) (adapter c)
    let env := surroundings (fun n => ⟨n, 0⟩) (fun n => String.ofList (Decimal.naturalText n))
    let sorted := [document "d" 7, document "b" 2, document "a" 2]
    SortedBy [("rank", false)] [document "b" 2, document "d" 7, document "a" 2] sorted ∧
      (∃ visits, r.follow env args [[], [.create ⟨"app", "orders", "id"⟩ (document "o" 1)]] w = .ok visits ∧
        Enumerates 2 (sorted.map fun d => args.select.project (strip d)) (visits.map (·.page))) ∧
      (Operation.run env r.config .none w
        (r.findMany { args with cursor := some (Cursor.encode "18446744073709551615") })).1 = .ok ⟨[], none⟩ := by
  intro c document shelf args w r env named
  have hfound : (shelf.documents.filter fun d => args.filter.Passes .small d) =
      [document "b" 2, document "d" 7, document "a" 2] := rfl
  have htake : QuerySettings.default.Asks args.take 2 := ⟨by decide, by decide, rfl⟩
  have hstands : Stands c shelf w.store := ⟨rfl, rfl⟩
  obtain ⟨sorted, hsorted, hfollow, hpage⟩ := cursors_enumerate "User" .default .existenceChecked .default
    (fun n => ⟨n, 0⟩) (fun n => String.ofList (Decimal.naturalText n)) c args rfl (by decide) (by decide) htake (by decide) rfl
    hstands (by decide)
  rw [hfound] at hsorted
  have hnamed : sortBy [("rank", false)] [document "b" 2, document "d" 7, document "a" 2] = named := by
    have hbd : (compareBy [("rank", false)] (document "b" 2) (document "d" 7)).isLE = false := rfl
    have hda : (compareBy [("rank", false)] (document "d" 7) (document "a" 2)).isLE = true := rfl
    have hba : (compareBy [("rank", false)] (document "b" 2) (document "a" 2)).isLE = true := rfl
    simp [named, sortBy, List.mergeSort, hbd, hda, hba]
  obtain rfl : sorted = named := (sortedBy_iff.1 hsorted).trans hnamed
  refine ⟨hsorted, hfollow _ ?_ (by decide), ?_⟩
  · have hother : ("app", "orders") ≠ ("app", "users") := by decide
    exact List.forall_mem_cons.2 ⟨nofun, List.forall_mem_cons.2 ⟨List.forall_mem_cons.2 ⟨hother, nofun⟩, nofun⟩⟩
  · have hend : pageFrom args.select 2 named 18446744073709551615 = ⟨[], none⟩ := by
      have hlength : named.length = 3 := rfl
      have hdrop : named.drop 18446744073709551615 = [] := List.drop_eq_nil_of_le (by omega)
      rw [pageFrom, hdrop, if_neg (by omega)]
      rfl
    rw [hpage "18446744073709551615" 18446744073709551615 (by decide), hend]

end DocQuery.Cosmos
