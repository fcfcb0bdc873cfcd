import DocQuery.Proofs.Dynamo.Records

/-!
# Chains of pages while others write

Between two pages of a chain others may write to the table. Each page shows some of what stands in the table when it is fetched, all
of it behind the page before, and passes over nothing that stands there and passes the filter (`Walk`). So a record that stays
where it is comes up on the one page that goes past its position, no key comes up twice, and the records come up in their order
(`cursors_complete_amid_writes`).
-/

namespace DocQuery

variable {S ρ : Type}

/-- A chain of pages of which the last has no cursor. -/
def Ended (visits : List (Visit S ρ)) : Prop := ∃ visit, visits.getLast? = some visit ∧ visit.page.nextCursor = none

theorem ended_singleton {visit : Visit S ρ} : Ended [visit] ↔ visit.page.nextCursor = none := by
  simp [Ended]

/-- A longer chain ends as the rest of it does. -/
theorem ended_cons {visit : Visit S ρ} {visits : List (Visit S ρ)} (h : visits ≠ []) : Ended (visit :: visits) ↔ Ended visits := by
  rw [Ended, Ended, List.getLast?_cons_of_ne_nil h]

/-- A chain that has ended has a page. -/
theorem Ended.ne_nil {visits : List (Visit S ρ)} (h : Ended visits) : visits ≠ [] := by
  rintro rfl
  obtain ⟨visit, hnone, -⟩ := h
  cases hnone

namespace Dynamo

/-- A page shows candidates of a search: they stand in the table when it is fetched, they pass the filter, and they are not too
many. -/
structure Shows (t : Table) (course : Course) (select : Select) (visit : Visit Memory Document) (found : List Candidate) :
    Prop where
  serves : Serves t visit.store
  items : visit.page.items = found.map fun c => select.project c.document
  length : found.length ≤ course.take
  standing : ∀ c ∈ found, c ∈ visit.store.standing t course.bySortKey
  passes : ∀ c ∈ found, course.passes c.document = true

/-- A chain of pages goes through a table from a bound on. -/
structure Walk (t : Table) (course : Course) (select : Select) (bound : Option Rows.Position)
    (visits : List (Visit Memory Document)) (pages : List (List Candidate)) : Prop where
  shows : List.Forall₂ (Shows t course select) visits pages
  behind : ∀ c ∈ pages.flatten, c.position.Behind course.forward bound
  ordered : pages.flatten.Pairwise fun a b => a.position.Before course.forward b.position
  complete : Ended visits → ∀ c, (∀ visit ∈ visits, c ∈ visit.store.standing t course.bySortKey) →
    course.passes c.document = true → c.position.Behind course.forward bound → c ∈ pages.flatten

section

variable {t : Table} {course : Course} {select : Select} {bound : Option Rows.Position} {s : Memory} {cs : List Candidate}
  {last : Candidate} {visits : List (Visit Memory Document)} {pages : List (List Candidate)}

/-- A page of what is left behind a bound. -/
theorem shows_pageBehind (hs : Serves t s) (h : Remains course (s.rows t) bound cs) :
    Shows t course select ⟨s, pageBehind t course select cs⟩ ((cs.take course.take).filter fun c => course.passes c.document) where
  serves := hs
  items := rfl
  length := (List.length_filter_le _ _).trans (List.length_take_le _ _)
  standing _ hc := (h.mem_iff.1 (List.mem_of_mem_take (List.mem_filter.1 hc).1)).1
  passes _ hc := (List.mem_filter.1 hc).2

/-- What stands in the table and passes the filter is left behind a bound that it lies behind. -/
theorem Remains.mem_of_passes (h : Remains course (s.rows t) bound cs) {c : Candidate} (hc : c ∈ s.standing t course.bySortKey)
    (hpasses : course.passes c.document = true) (hbehind : c.position.Behind course.forward bound) : c ∈ cs :=
  h.mem_iff.2 ⟨hc, course.key_of_passes _ hpasses, hbehind⟩

/-- A page that shows all that is left has no cursor, and is the last one. -/
theorem walk_last (hs : Serves t s) (h : Remains course (s.rows t) bound cs) (hlength : cs.length ≤ course.take) :
    Walk t course select bound [⟨s, pageBehind t course select cs⟩] [cs.filter fun c => course.passes c.document] where
  shows := by
    have hshows := @shows_pageBehind _ _ select _ _ _ hs h
    rw [List.take_of_length_le hlength] at hshows
    exact .cons hshows .nil
  behind c hc := by
    rw [List.flatten_singleton] at hc
    exact (h.mem_iff.1 (List.mem_filter.1 hc).1).2.2
  ordered := by
    rw [List.flatten_singleton]
    exact h.ordered.sublist List.filter_sublist
  complete _ c hc hpasses hbehind := by
    rw [List.flatten_singleton]
    exact List.mem_filter.2 ⟨h.mem_of_passes (hc _ List.mem_cons_self) hpasses hbehind, hpasses⟩

/-- The cursor of a page that leaves something names the last item that was looked at. -/
theorem nextCursor_pageBehind (hlength : course.take < cs.length) (hlast : (cs.take course.take).getLast? = some last) :
    (pageBehind t course select cs).nextCursor = some (Cursor.encode (Json.obj (t.rows.keyOf last.item)).text) := by
  rw [pageBehind, if_pos hlength, hlast]
  rfl

/-- A page that leaves something has a cursor, and the others go on behind it. -/
theorem walk_next (hs : Serves t s) (h : Remains course (s.rows t) bound cs) (hlength : course.take < cs.length)
    (hlast : (cs.take course.take).getLast? = some last) (hrest : Walk t course select (some last.position) visits pages) :
    Walk t course select bound (⟨s, pageBehind t course select cs⟩ :: visits)
      (((cs.take course.take).filter fun c => course.passes c.document) :: pages) := by
  have hmem : ∀ c ∈ (cs.take course.take).filter fun c => course.passes c.document, c ∈ cs.take course.take :=
    fun c hc => (List.mem_filter.1 hc).1
  have hbound : ∀ c ∈ cs.take course.take, c.position.Behind course.forward bound :=
    fun c hc => (h.mem_iff.1 (List.mem_of_mem_take hc)).2.2
  have hafter : ∀ c ∈ pages.flatten, last.position.Before course.forward c.position :=
    fun c hc => Rows.Position.behind_some.1 (hrest.behind c hc)
  refine ⟨.cons (shows_pageBehind hs h) hrest.shows, ?_, ?_, ?_⟩
  · intro c hc b hb
    rcases List.mem_append.1 hc with hc | hc
    · exact hbound c (hmem c hc) b hb
    · exact (hbound last (List.mem_of_getLast? hlast) b hb).trans (hafter c hc)
  · refine List.pairwise_append.2
      ⟨h.ordered.sublist (List.filter_sublist.trans (List.take_sublist _ _)), hrest.ordered, fun a ha b hb => ?_⟩
    rcases before_last h.ordered hlast (hmem a ha) with rfl | ha
    · exact hafter b hb
    · exact ha.trans (hafter b hb)
  · intro hended c hc hpasses hbehind
    obtain ⟨hfirst, hlater⟩ := List.forall_mem_cons.1 hc
    have hleft : c ∈ cs.take course.take ++ cs.drop course.take := by
      rw [List.take_append_drop]
      exact h.mem_of_passes hfirst hpasses hbehind
    refine List.mem_append.2 ((List.mem_append.1 hleft).imp (fun hc => List.mem_filter.2 ⟨hc, hpasses⟩) fun hc => ?_)
    have hne : visits ≠ [] := by
      rintro rfl
      rw [ended_singleton, nextCursor_pageBehind hlength hlast] at hended
      cases hended
    exact hrest.complete ((ended_cons hne).1 hended) c hlater hpasses ((h.drop hlast).mem_iff.1 hc).2.2

end

/-! ## Following the cursors -/

section

variable {clock : Nat → Instant} {ids : Nat → String} {t : Table} {s : Memory} {calls : List Call}

/-- Calls that store readable items keep a table that can be read. -/
theorem Serves.after (h : Serves t s) (hcalls : ∀ call ∈ calls, call.Stores (Readable t)) :
    Serves t ((surroundings clock ids).after s calls) := by
  induction calls generalizing s with
  | nil => exact h
  | cons call calls ih =>
    obtain ⟨hcall, hrest⟩ := List.forall_mem_cons.1 hcalls
    exact ih (h.answer hcall) hrest

/-- Calls that leave a table alone leave it as it is. -/
theorem Serves.rows_after (h : Serves t s) (hcalls : ∀ call ∈ calls, call.Stores (Readable t))
    (hspares : ∀ call ∈ calls, call.Spares t) : ((surroundings clock ids).after s calls).rows t = s.rows t := by
  induction calls generalizing s with
  | nil => rfl
  | cons call calls ih =>
    obtain ⟨hcall, hrest⟩ := List.forall_mem_cons.1 hcalls
    obtain ⟨hspare, hothers⟩ := List.forall_mem_cons.1 hspares
    exact (ih (h.answer hcall) hrest hothers).trans (h.rows_answer hspare)

end

/-- A page leaves something, and its cursor goes on behind the last item that was looked at, or it shows all that is left, and has
no cursor. -/
theorem pageBehind_cases {t : Table} {s : Memory} {course : Course} {bound : Option Rows.Position} {cs : List Candidate}
    (hs : Serves t s) (h : Remains course (s.rows t) bound cs) (hpos : 1 ≤ course.take) (select : Select) :
    (course.take < cs.length ∧ ∃ last continuation, (cs.take course.take).getLast? = some last ∧
      (pageBehind t course select cs).nextCursor = some (Cursor.encode continuation) ∧
      Resumes t course.bySortKey (some continuation) (some last.position)) ∨
    cs.length ≤ course.take ∧ (pageBehind t course select cs).nextCursor = none := by
  rcases Nat.lt_or_ge course.take cs.length with hlt | hle
  · have hne : cs.take course.take ≠ [] := List.ne_nil_of_length_pos (by rw [List.length_take]; omega)
    have hlast := List.getLast?_eq_some_getLast hne
    obtain ⟨hreadable, hposition⟩ := hs.candidate (h.mem_iff.1 (List.mem_of_mem_take (List.mem_of_getLast? hlast))).1
    exact .inl ⟨hlt, _, _, hlast, nextCursor_pageBehind hlt hlast, resumes_some hreadable hposition⟩
  · refine .inr ⟨hle, ?_⟩
    rw [pageBehind, if_neg (Nat.not_lt.2 hle)]
    rfl

/-- Following the cursors walks through the table from where a continuation goes on. If the table is left alone, it takes as many
pages as what is left fills. -/
theorem follow_walks {r : Repository service Document} {clock : Nat → Instant} {ids : Nat → String} {t : Table} {course : Course}
    {args : FindArgs} (hpos : 1 ≤ course.take)
    (hpage : ∀ {w : World service Memory} {continuation : Option String} {bound : Option Rows.Position}, Serves t w.store →
      Resumes t course.bySortKey continuation bound → ∃ cs log, Remains course (w.store.rows t) bound cs ∧
        (r.findMany { args with cursor := continuation.map Cursor.encode }).Yields (surroundings clock ids) w
          (.ok (pageBehind t course args.select cs)) { w with log })
    {fetches : List (List Call)} (hcalls : ∀ calls ∈ fetches, ∀ call ∈ calls, call.Stores (Readable t))
    {w : World service Memory} {continuation : Option String} {bound : Option Rows.Position} (hw : Serves t w.store)
    (hresumes : Resumes t course.bySortKey continuation bound) :
    ∃ visits pages,
      r.follow (surroundings clock ids) { args with cursor := continuation.map Cursor.encode } fetches w = .ok visits ∧
      Walk t course args.select bound visits pages ∧
      ((∀ calls ∈ fetches, ∀ call ∈ calls, call.Spares t) → ∀ cs, Remains course (w.store.rows t) bound cs →
        pageCount course.take cs.length ≤ fetches.length →
        visits.length = pageCount course.take cs.length ∧ Ended visits) := by
  induction fetches generalizing w continuation bound with
  | nil =>
    refine ⟨[], [], rfl, ⟨.nil, List.forall_mem_nil _, .nil, ?_⟩, fun _ cs _ hcount => ?_⟩
    · rintro ⟨visit, hlast, -⟩
      cases hlast
    · exact absurd (Nat.le_trans (Nat.le_max_left _ _) hcount) (by simp)
  | cons first rest ih =>
    obtain ⟨hfirst, hlater⟩ := List.forall_mem_cons.1 hcalls
    have hw' : Serves t ((surroundings clock ids).after w.store first) := hw.after hfirst
    obtain ⟨cs, log, hremains, hyields⟩ :=
      @hpage { w with store := (surroundings clock ids).after w.store first } _ _ hw' hresumes
    have hsame : (∀ call ∈ first, call.Spares t) → ∀ cs', Remains course (w.store.rows t) bound cs' →
        cs'.length = cs.length := by
      intro hspares cs' hcs'
      rw [← hw.rows_after hfirst hspares] at hcs'
      exact (hcs'.perm.trans hremains.perm.symm).length_eq
    rcases pageBehind_cases hw' hremains hpos args.select with ⟨hlt, last, next, hlast, hcursor, hnext⟩ | ⟨hle, hcursor⟩
    · obtain ⟨visits, pages, hvisits, hwalk, hcount⟩ :=
        @ih hlater { w with store := (surroundings clock ids).after w.store first, log } _ _ hw' hnext
      refine ⟨_, _, (Repository.follow_next rfl hyields hcursor).trans (congrArg _ hvisits),
        walk_next hw' hremains hlt hlast hwalk, ?_⟩
      intro hspares cs' hcs' hle
      obtain ⟨hspare, hothers⟩ := List.forall_mem_cons.1 hspares
      rw [hsame hspare cs' hcs', pageCount_of_lt hpos hlt, List.length_cons, ← List.length_drop] at hle
      rw [hsame hspare cs' hcs', pageCount_of_lt hpos hlt, List.length_cons, ← List.length_drop]
      obtain ⟨hlength, hended⟩ := hcount hothers _ (hremains.drop hlast) (Nat.le_of_succ_le_succ hle)
      exact ⟨congrArg (· + 1) hlength, (ended_cons hended.ne_nil).2 hended⟩
    · refine ⟨_, _, Repository.follow_last rfl hyields hcursor, walk_last hw' hremains hle, fun hspares cs' hcs' _ => ?_⟩
      obtain ⟨hspare, -⟩ := List.forall_mem_cons.1 hspares
      rw [hsame hspare cs' hcs', pageCount_of_le hpos hle]
      exact ⟨rfl, ended_singleton.2 hcursor⟩

/-! ## The records of a chain -/

/-- A page carries records of a search: they stand in the table when it is fetched, they pass the filter, and they are not too
many. -/
structure Carries (t : Table) (args : FindArgs) (take : Nat) (visit : Visit Memory Document) (records : List Record) : Prop where
  items : visit.page.items = records.map fun r => args.select.project r.document
  length : records.length ≤ take
  stands : ∀ r ∈ records, r.StandsIn t visit.store
  passes : ∀ r ∈ records, args.filter.Passes .casings r.document

section

variable {t : Table} {args : FindArgs} {forward : Option Bool} {take : Nat} {visits : List (Visit Memory Document)}
  {pages : List (List Candidate)}

/-- A page that shows candidates carries their records. -/
theorem Shows.carries {visit : Visit Memory Document} {found : List Candidate}
    (h : Shows t (courseOf t args.filter forward take) args.select visit found) :
    Carries t args take visit (found.map Candidate.record) where
  items := by
    rw [h.items, List.map_map]
    rfl
  length := by
    rw [List.length_map]
    exact h.length
  stands := List.forall_mem_map.2 fun c hc => h.serves.standsIn_record (h.standing c hc)
  passes := List.forall_mem_map.2 fun c hc => of_decide_eq_true (h.passes c hc)

/-- What a chain shows stands in the table at one of its fetches. -/
theorem standing_of_shows {course : Course} {select : Select} (h : List.Forall₂ (Shows t course select) visits pages)
    {c : Candidate} (hc : c ∈ pages.flatten) : ∃ s, Serves t s ∧ c ∈ s.standing t course.bySortKey := by
  induction h with
  | nil => cases hc
  | cons hshows _ ih =>
    rcases List.mem_append.1 hc with hc | hc
    · exact ⟨_, hshows.serves, hshows.standing c hc⟩
    · exact ih hc

/-- The table can be read at each fetch of a chain. -/
theorem serves_of_shows {course : Course} {select : Select} (h : List.Forall₂ (Shows t course select) visits pages)
    {visit : Visit Memory Document} (hvisit : visit ∈ visits) : Serves t visit.store := by
  induction h with
  | nil => cases hvisit
  | cons hshows _ ih =>
    rcases List.mem_cons.1 hvisit with rfl | hvisit
    · exact hshows.serves
    · exact ih hvisit

/-- The records of a chain have different keys. -/
theorem nodup_keys {course : Course} {select : Select} (h : List.Forall₂ (Shows t course select) visits pages)
    (hordered : pages.flatten.Pairwise fun a b => a.position.Before course.forward b.position) :
    (pages.flatten.map fun c => c.record.key).Nodup := by
  refine List.pairwise_map.2 (hordered.imp_of_mem fun {a b} ha hb hbefore hkey => ?_)
  obtain ⟨_, hsa, hca⟩ := standing_of_shows h ha
  obtain ⟨_, hsb, hcb⟩ := standing_of_shows h hb
  rw [Rows.position_eq_of_key_eq (hsa.candidate hca).2 (hsb.candidate hcb).2 hkey] at hbefore
  exact hbefore.asymm hbefore

/-- The records of a chain come up in the order of the search. -/
theorem pairwise_before_record {direction : Direction} (hup : forward.getD true = (direction == .ascending)) {select : Select}
    (h : List.Forall₂ (Shows t (courseOf t args.filter forward take) select) visits pages)
    (hordered : pages.flatten.Pairwise fun a b => a.position.Before (courseOf t args.filter forward take).forward b.position) :
    (pages.flatten.map Candidate.record).Pairwise (Record.Before (sortField? t args.filter) direction) := by
  refine List.pairwise_map.2 (hordered.imp_of_mem fun {a b} ha hb hbefore => ?_)
  obtain ⟨_, hsa, hca⟩ := standing_of_shows h ha
  obtain ⟨_, hsb, hcb⟩ := standing_of_shows h hb
  have hbefore : a.position.Before (direction == .ascending) b.position := hup ▸ hbefore
  exact (before_iff_record hsa hsb hca hcb direction).1 hbefore

/-- A record that stood in the table at each page of a chain that has ended, and that passes the filter, has come up. -/
theorem Walk.mem_record {select : Select} (h : Walk t (courseOf t args.filter forward take) select none visits pages)
    (hended : Ended visits) {r : Record} (hstands : ∀ visit ∈ visits, r.StandsIn t visit.store)
    (hpasses : args.filter.Passes .casings r.document) : r ∈ pages.flatten.map Candidate.record := by
  have hserves : ∀ visit ∈ visits, Serves t visit.store := fun visit hvisit => serves_of_shows h.shows hvisit
  obtain ⟨first, hfirst⟩ := List.exists_mem_of_ne_nil visits hended.ne_nil
  obtain ⟨p, hp, hkey⟩ := (hstands first hfirst).position (hserves first hfirst) (courseOf t args.filter forward take).bySortKey
  refine List.mem_map.2 ⟨⟨p, r.item, r.document⟩, ?_, by rw [Candidate.record, hkey]⟩
  exact h.complete hended _ (fun visit hvisit => (hstands visit hvisit).mem_standing (hserves visit hvisit) hp)
    (decide_eq_true hpasses) (Rows.Position.behind_none _ _)

/-- At the beginning as many candidates are left to a search as there are documents that it looks at. -/
theorem Remains.length_eq {s : Memory} {cs : List Candidate} (hs : Serves t s)
    (h : Remains (courseOf t args.filter forward take) (s.rows t) none cs) :
    cs.length = (s.documents t).countP fun d => LooksAt t args.filter d := by
  rw [h.perm.length_eq, ← List.countP_eq_length_filter, ← hs.documents_eq (courseOf t args.filter forward take).bySortKey,
    List.countP_map]
  refine List.countP_congr fun c _ => ?_
  rw [key_courseOf, decide_eq_true (Rows.Position.behind_none _ _), Bool.and_true]
  rfl

end

/-- Following the cursors of a search while others write: each page carries at most as many records as asked for, which stand in the
table when it is fetched and pass the filter. Over the whole chain no key comes up twice, and the records come up strictly in order: by
the sort key and then by the key text for a query, by the key text for a scan, and all reversed downward. When the chain ends, every
record that stood in the table at each page and passes the filter has come up. If nobody writes to the table, the chain ends after as
many pages as the records fill that meet the conditions on the keys, or all records for a scan. -/
theorem cursors_complete_amid_writes (name : String) (autoFields : AutoFields) (policy : WritePolicy) (query : QuerySettings)
    (clock : Nat → Instant) (ids : Nat → String) (t : Table) (args : FindArgs) {direction : Direction} {take : Nat}
    {w : World service Memory} (hfilter : args.filter.Valid) (hlimit : WithinLimit args.filter)
    (hdirection : Goes t args.filter args.order direction) (htake : query.Asks args.take take) (hpos : 1 ≤ take)
    (hcursor : args.cursor = none) (hserves : Serves t w.store) (fetches : List (List Call))
    (hcalls : ∀ calls ∈ fetches, ∀ call ∈ calls, call.Stores (Readable t)) :
    let r := Repository.ofDocuments (.make name autoFields policy query) (adapter t)
    ∃ visits pages, r.follow (surroundings clock ids) args fetches w = .ok visits ∧
      List.Forall₂ (Carries t args take) visits pages ∧
      (pages.flatten.map (·.key)).Nodup ∧
      pages.flatten.Pairwise (Record.Before (sortField? t args.filter) direction) ∧
      (Ended visits → ∀ record : Record, (∀ visit ∈ visits, record.StandsIn t visit.store) →
        args.filter.Passes .casings record.document → record ∈ pages.flatten) ∧
      ((∀ calls ∈ fetches, ∀ call ∈ calls, call.Spares t) →
        let n := (w.store.documents t).countP fun d => LooksAt t args.filter d
        pageCount take n ≤ fetches.length → visits.length = pageCount take n ∧ Ended visits) := by
  intro r
  obtain ⟨forward, hforward, hup⟩ := hdirection.forward
  have hpage := @search_yields name autoFields policy query clock ids t args forward take hfilter hlimit hforward
    (Repository.pageSize_of_asks rfl htake) hpos
  obtain ⟨visits, pages, hvisits, hwalk, hcount⟩ :=
    follow_walks hpos hpage hcalls hserves (resumes_none t (courseOf t args.filter forward take).bySortKey)
  rw [Option.map_none, ← hcursor] at hvisits
  have hrecords : (pages.map fun found => found.map Candidate.record).flatten = pages.flatten.map Candidate.record :=
    List.map_flatten.symm
  refine ⟨visits, pages.map fun found => found.map Candidate.record, hvisits,
    List.forall₂_map_right_iff.2 (hwalk.shows.imp fun _ _ h => h.carries), ?keys, ?order, ?complete, ?count⟩
  case keys =>
    rw [hrecords, List.map_map]
    exact nodup_keys hwalk.shows hwalk.ordered
  case order =>
    rw [hrecords]
    exact pairwise_before_record hup hwalk.shows hwalk.ordered
  case complete =>
    intro hended record hstands hpasses
    rw [hrecords]
    exact hwalk.mem_record hended hstands hpasses
  case count =>
    intro hspares n hle
    obtain ⟨cs, -, hremains, -⟩ := hpage hserves (resumes_none t (courseOf t args.filter forward take).bySortKey)
    have hlength : cs.length = n := Remains.length_eq hserves hremains
    rw [← hlength] at hle ⊢
    exact hcount hspares cs hremains hle

/-- The same for the days of one customer downward, two to a page and without their keys. After the first page its last record is
removed, and one is added on either side: the one behind it does not pass, so the second page has one record. -/
theorem cursors_complete_amid_writes_of_days :
    let t : Table := ⟨"orders", "customer", some "day"⟩
    let document (day : Int64) (note : String) : Document :=
      [("customer", .str "c-1"), ("day", Json.ofInt64 day), ("note", .str note)]
    let put (day : Int64) (note : String) : Call := .put ⟨"orders", ofDocument (document day note), none, none, none⟩
    let remove (day : Int64) : Call :=
      .delete ⟨"orders", ofDocument [("customer", .str "c-1"), ("day", Json.ofInt64 day)], none, none⟩
    let args : FindArgs :=
      ⟨Keyed.ofList [("customer", ⟨[.compare .equals (.text "c-1")], .sensitive⟩),
          ("note", ⟨[.text .contains "paid"], .insensitive⟩)],
        some 2, none, Select.ofFields ["note"], Keyed.ofList [("day", .descending)]⟩
    let before : List Call := [put 1 "paid", put 4 "prepaid", put 9 "Paid"]
    let between : List Call := [remove 4, put 2 "open", put 5 "paid"]
    let w : World service Memory := ⟨Memory.empty.withTable t, 0, 0, []⟩
    let r := Repository.ofDocuments (.make "Order" .default .existenceChecked .default) (adapter t)
    let env := surroundings (fun n => ⟨n, 0⟩) fun n => String.ofList (Decimal.naturalText n)
    ∃ visits pages, r.follow env args [before, between] w = .ok visits ∧
      visits.map (fun visit => visit.page.items.map fun d => (Json.obj d).text) =
        [["\x7b\"note\":\"Paid\"\x7d", "\x7b\"note\":\"prepaid\"\x7d"], ["\x7b\"note\":\"paid\"\x7d"]] ∧
      Ended visits ∧
      List.Forall₂ (Carries t args 2) visits pages ∧
      (pages.flatten.map (·.key)).Nodup ∧
      pages.flatten.Pairwise (Record.Before (some "day") .descending) ∧
      ∀ record : Record, (∀ visit ∈ visits, record.StandsIn t visit.store) → args.filter.Passes .casings record.document →
        record ∈ pages.flatten := by
  intro t document put remove args before between w r env
  have hput : ∀ day note, Json.parse? (Json.obj (t.rows.keyOf (ofDocument (document day note)))).text =
      some (.obj (t.rows.keyOf (ofDocument (document day note)))) → (put day note).Stores (Readable t) :=
    fun day note h => ⟨⟨_, toMembers_ofMembers _⟩, h⟩
  have hbefore : ∀ call ∈ before, call.Stores (Readable t) := by
    refine List.forall_mem_cons.2 ⟨hput 1 "paid" (by cbv), List.forall_mem_cons.2 ⟨hput 4 "prepaid" (by cbv), ?_⟩⟩
    exact List.forall_mem_singleton.2 (hput 9 "Paid" (by cbv))
  have hbetween : ∀ call ∈ between, call.Stores (Readable t) := by
    refine List.forall_mem_cons.2 ⟨trivial, List.forall_mem_cons.2 ⟨hput 2 "open" (by cbv), ?_⟩⟩
    exact List.forall_mem_singleton.2 (hput 5 "paid" (by cbv))
  have hgoes : Goes t args.filter args.order .descending := .asked rfl rfl rfl
  have htake : QuerySettings.default.Asks args.take 2 := ⟨by decide, by decide, rfl⟩
  have hserves : Serves t w.store := serves_new t
  obtain ⟨visits, pages, hvisits, hcarries, hkeys, hordered, hcomplete, -⟩ := cursors_complete_amid_writes "Order" .default
    .existenceChecked .default (fun n => ⟨n, 0⟩) (fun n => String.ofList (Decimal.naturalText n)) t args rfl (by decide) hgoes
    htake (by decide) rfl hserves [before, between]
    (List.forall_mem_cons.2 ⟨hbefore, List.forall_mem_singleton.2 hbetween⟩)
  -- what is left to each page is what stands behind its start, from the last to the first
  let course := courseOf t args.filter (some false) 2
  let left (s : Memory) (bound : Option Rows.Position) : List Candidate :=
    (((s.rows t).standing course.bySortKey (s.rows t).items).filter fun c =>
      course.key c.document && decide (c.position.Behind course.forward bound)).reverse
  have hpage : ∀ (s : Memory) (log : List Call) (continuation : Option String) (bound : Option Rows.Position), Serves t s →
      Resumes t course.bySortKey continuation bound →
      (left s bound).Pairwise (fun a b => a.position.Before course.forward b.position) →
      ∃ log', (r.findMany { args with cursor := continuation.map Cursor.encode }).Yields env ⟨s, 0, 0, log⟩
        (.ok (pageBehind t course args.select (left s bound))) ⟨s, 0, 0, log'⟩ := by
    intro s log continuation bound hs hresumes hordered
    obtain ⟨cs, log', hremains, hyields⟩ := @search_yields "Order" .default .existenceChecked .default (fun n => ⟨n, 0⟩)
      (fun n => String.ofList (Decimal.naturalText n)) t args (some false) 2 rfl (by decide) rfl rfl (by decide) ⟨s, 0, 0, log⟩
      continuation bound hs hresumes
    have hleft : left s bound = cs := Remains.unique ⟨List.reverse_perm _, hordered⟩ hremains
    exact ⟨log', hleft ▸ hyields⟩
  let prepaid := ofDocument (document 4 "prepaid")
  let start : Rows.Position := ⟨some (Json.ofInt64 4), "\x7b\"S\":\"c-1\"\x7d\x1f\x7b\"N\":\"4\"\x7d"⟩
  have hstart : Resumes t course.bySortKey (some (Json.obj (t.rows.keyOf prepaid)).text) (some start) :=
    resumes_some ⟨⟨_, toMembers_ofMembers _⟩, by cbv⟩ rfl
  let s₁ := env.after w.store before
  let s₂ := env.after s₁ between
  obtain ⟨log, hfirst⟩ := hpage s₁ [] none none (hserves.after hbefore) (resumes_none t _) (by decide +kernel)
  obtain ⟨_, hsecond⟩ := hpage s₂ log _ (some start) ((hserves.after hbefore).after hbetween) hstart (by decide +kernel)
  have hnext : (pageBehind t course args.select (left s₁ none)).nextCursor =
      some (Cursor.encode (Json.obj (t.rows.keyOf prepaid)).text) := by decide +kernel
  have hend : (pageBehind t course args.select (left s₂ (some start))).nextCursor = none := by decide +kernel
  have hmore := @Repository.follow_next _ _ _ env r args before [between] w ⟨s₁, 0, 0, log⟩ _ rfl _ hfirst hnext
  have hlast := @Repository.follow_last _ _ _ env r _ between [] ⟨s₁, 0, 0, log⟩ _ _ rfl hsecond hend
  let named : List (Visit Memory Document) :=
    [⟨s₁, pageBehind t course args.select (left s₁ none)⟩, ⟨s₂, pageBehind t course args.select (left s₂ (some start))⟩]
  have hfollow : .ok named = Except.ok visits := (hmore.trans (congrArg _ hlast)).symm.trans hvisits
  obtain rfl := Except.ok.inj hfollow
  have hended : Ended named := ⟨_, rfl, hend⟩
  have hday : sortField? t args.filter = some "day" := rfl
  rw [hday] at hordered
  exact ⟨named, pages, hvisits, by decide +kernel, hended, hcarries, hkeys, hordered, hcomplete hended⟩

end Dynamo

end DocQuery
