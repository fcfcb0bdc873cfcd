import DocQuery.Proofs.Dynamo.Contract
import DocQuery.Proofs.Dynamo.Plans
import DocQuery.Proofs.Dynamo.Positions
import DocQuery.Proofs.Repository.Pages

/-!
# The pages of a table

A continuation is the key of the last item that a page looked at. It stands for that item's position, even when the item is gone,
so the next page goes on strictly behind it, whatever was written in the meantime (`search_yields`). So following the cursors goes
through positions in one direction, and comes by every record that stays where it is.
-/

namespace DocQuery.Dynamo

open Expression Operation

/-! ## Documents of projected items -/

section

variable {item : Item} {d : Document}

/-- The document of an item has its values in the fields of its attributes. -/
theorem get?_toDocument (h : toDocument item = .ok d) (name : String) :
    match Fields.get? item name with
    | some typed => ∃ j, toJson typed = .ok j ∧ Fields.get? d name = some j
    | none => Fields.get? d name = none := by
  rw [toDocument] at h
  induction item generalizing d with
  | nil => cases h; rfl
  | cons e item ih =>
    obtain ⟨n, typed⟩ := e
    rw [toMembers] at h
    obtain ⟨j, hj, h⟩ := of_bind_eq_ok h
    obtain ⟨rest, hrest, h⟩ := of_bind_eq_ok h
    cases h
    rw [Fields.get?_cons, Fields.get?_cons]
    by_cases hn : n = name
    · rw [if_pos hn, if_pos hn]
      exact ⟨j, hj, rfl⟩
    · rw [if_neg hn, if_neg hn]
      exact ih hrest

/-- Picking attributes is picking fields. -/
theorem toDocument_pick (h : toDocument item = .ok d) (names : List String) :
    toDocument (Select.pick names item) = .ok (Select.pick names d) := by
  induction names with
  | nil => rfl
  | cons name names ih =>
    have hname := get?_toDocument h name
    rw [Select.pick, Select.pick, List.filterMap_cons, List.filterMap_cons]
    cases hitem : Fields.get? item name with
    | none =>
      rw [hitem] at hname
      simp only [hname, Option.map_none]
      exact ih
    | some typed =>
      rw [hitem] at hname
      obtain ⟨j, hj, hd⟩ := hname
      rw [toDocument, Select.pick] at ih
      simp only [hd, Option.map_some, toDocument, toMembers, hj, ih]
      rfl

/-- Projecting an item is projecting its document. -/
theorem toDocument_projectItem (h : toDocument item = .ok d) (select : Select) :
    toDocument (projectItem select.selected? item) = .ok (select.project d) := by
  rw [Select.project]
  cases hs : select.selected? with
  | none => exact h
  | some names =>
    rw [projectItem, Select.ofList_pick (Select.nodup_of_selected? hs)]
    exact toDocument_pick h names

/-- Projected items are read as the projected documents. -/
theorem readItems_project (select : Select) (es : List (Item × Document)) (h : ∀ e ∈ es, toDocument e.1 = .ok e.2) :
    readItems (some (.arr (es.map fun e => .obj (projectItem select.selected? e.1)))) =
      .ok (es.map fun e => select.project e.2) := by
  rw [readItems, normalizeItems_objects]
  show (es.map _).mapM readItem = _
  induction es with
  | nil => rfl
  | cons e es ih =>
    obtain ⟨he, hrest⟩ := List.forall_mem_cons.1 h
    rw [List.map_cons, List.mapM_cons, ih hrest, readItem, toDocument_projectItem he]
    rfl

/-- The items of candidates are read as their documents. -/
theorem readItems_candidates (select : Select) {cs : List Candidate} (h : ∀ c ∈ cs, toDocument c.item = .ok c.document) :
    readItems (some (.arr (cs.map fun c => .obj (projectItem select.selected? c.item)))) =
      .ok (cs.map fun c => select.project c.document) := by
  have hread := readItems_project select (cs.map fun c => (c.item, c.document)) (List.forall_mem_map.2 h)
  rwa [List.map_map, List.map_map] at hread

end

/-! ## One page -/

/-- A call by which the store hands out a page. -/
inductive Brings (s : Memory) (page : Page) : Call → Prop
  | scan {r : ScanRequest} : s.scan r = .ok page → Brings s page (.scan r)
  | query {r : QueryRequest} : s.query r = .ok page → Brings s page (.query r)

/-- A page of a search is the page that its call brings. -/
theorem findMany_yields {clock : Nat → Instant} {ids : Nat → String} {t : Table} {request : PageRequest}
    {call : service.Call} {page : Page} {items : List Document} {w : World service Memory} (hplan : planRead t request = .ok call)
    (hf : w.store.failure = none) (hpage : Brings w.store page call) (hitems : readItems page.items = .ok items) :
    (findMany t request).Yields (surroundings clock ids) w
      (.ok ⟨items, page.last.map fun key => (Json.obj key).text⟩) { w with log := w.log ++ [call] } := by
  have hrest : (do
      let items ← Operation.of (readItems page.items)
      return (⟨items, page.last.map fun key => (Json.obj key).text⟩ : RecordPage) : Operation service RecordPage).Yields
      (surroundings clock ids) { w with log := w.log ++ [call] }
      (.ok ⟨items, page.last.map fun key => (Json.obj key).text⟩) { w with log := w.log ++ [call] } := by
    rw [hitems]
    exact (Yields.of _ _).bind rfl (.pure _ _)
  rw [findMany, hplan]
  refine (Yields.of _ _).bind rfl ?_
  cases hpage with
  | @scan r hr =>
    have hact : w.store.act (.scan r) = (.ok page, w.store) := by
      rw [Memory.act, hr]
      rfl
    exact (Yields.call (surroundings clock ids) (.scan r) (answerUnless_of_none hf hact) _).bind rfl hrest
  | @query r hr =>
    have hact : w.store.act (.query r) = (.ok page, w.store) := by
      rw [Memory.act, hr]
      rfl
    exact (Yields.call (surroundings clock ids) (.query r) (answerUnless_of_none hf hact) _).bind rfl hrest

/-- How a search goes through a table: a filter with a plan through those documents that meet its key conditions, by the sort key,
and any other filter through all documents. -/
def courseOf (t : Table) (filter : Where) (forward : Option Bool) (take : Nat) : Course where
  key d := decide (∀ plan ∈ keyPlan? t filter, ∀ e ∈ plan.1, e.2.Passes (Fields.get? d e.1))
  passes d := decide (filter.Passes .casings d)
  key_of_passes d h := by
    refine decide_eq_true fun plan hplan => ?_
    exact ((passes_of_keyPlan? hplan d).1 (of_decide_eq_true h)).1
  bySortKey := (keyPlan? t filter).isSome
  forward := forward.getD true
  take := take

/-- A scan is not asked for in a direction. -/
theorem forward_of_scan {t : Table} {order : Order} {forward : Option Bool} (h : forward? t false order = .ok forward) :
    forward = none := by
  rw [forward?] at h
  split at h <;> cases h
  rfl

/-- A request for a page is sent as one call, which reads the table as the search goes through it. -/
theorem planRead_takes {t : Table} {filter : Where} {order : Order} {forward : Option Bool} {take : Nat} (hv : filter.Valid)
    (hw : WithinLimit filter) (hf : forward? t (keyPlan? t filter).isSome order = .ok forward) (htake : take < UInt32.size)
    (select : Select) :
    ∃ plan : Option Item → ReadPlan,
      (∀ start, (plan start).Takes t (courseOf t filter forward take) select start) ∧
      ∀ {continuation start}, startOf continuation = .ok start →
        ∃ call : service.Call, planRead t ⟨filter, select, order, take, continuation⟩ = .ok call ∧
          ∀ {s page}, Serves t s → (plan start).read (s.rows t) = .ok page → Brings s page call := by
  have hcount : count32? take = some take := if_pos htake
  cases hp : keyPlan? t filter with
  | some plan =>
    obtain ⟨keys, remaining⟩ := plan
    rw [hp] at hf
    obtain ⟨texts, tables, hread, hs⟩ := readTexts?_stands select (keys_of_keyPlan? hp hv) (valid_of_keyPlan? hp hv)
      (withinLimit_of_keyPlan? hp hw)
    obtain ⟨key, hkey, -⟩ := keyFormula_of_keyPlan? hp
    obtain ⟨key', hkey', hparsed⟩ := hs.keyCondition (by rintro rfl; cases hkey)
    obtain rfl : key = key' := Option.some.inj (hkey.symm.trans hkey')
    have hmeets : (courseOf t filter forward take).key = fun d => decide (∀ e ∈ keys, e.2.Passes (Fields.get? d e.1)) := by
      funext d
      simp [courseOf, hp]
    refine ⟨fun start => queryPlan select keys remaining tables key forward (some take) start, fun start => ?_,
      fun {continuation start} hstart => ?_⟩
    · refine ⟨⟨_, hmeets ▸ decides_queryPlan hs hkey forward (some take) start, fun d => ?_⟩, ?_, rfl, ?_, rfl, rfl, rfl⟩
      · rw [hmeets, ← Bool.decide_and]
        exact decide_eq_decide.2 (passes_of_keyPlan? hp d)
      · exact .inr fun f hf => not_isKey_of_mem_paths hp hf
      · simp [courseOf, hp, queryPlan]
    · refine ⟨_, planRead_of_some ⟨filter, select, order, take, continuation⟩ hv hp hf hstart hread, fun hserves hpage =>
        .query ?_⟩
      rw [hcount, query_eq hs hparsed, requireTable_eq hserves.table]
      exact hpage
  | none =>
    rw [hp] at hf
    obtain rfl := forward_of_scan hf
    have hplain : Plain [] := List.forall_mem_nil _
    obtain ⟨texts, tables, hread, hs⟩ := readTexts?_stands select hplain hv hw
    have hmeets : (courseOf t filter none take).key = fun _ => true := by
      funext d
      simp [courseOf, hp]
    refine ⟨fun start => { scanPlan select filter tables (some take) with start }, fun start => ?_,
      fun {continuation start} hstart => ?_⟩
    · have hdecides := decides_scanPlan hs (some take)
      refine ⟨⟨_, ⟨hmeets ▸ hdecides.key, hdecides.filter⟩, fun d => ?_⟩, .inl rfl, rfl, ?_, rfl, rfl, rfl⟩
      · rw [hmeets, Bool.true_and]
        rfl
      · simp [courseOf, hp, scanPlan]
    · refine ⟨_, planRead_of_none ⟨filter, select, order, take, continuation⟩ hv hp hf hstart hread, fun hserves hpage =>
        .scan ?_⟩
      rw [hcount, scan_from_eq hs, requireTable_eq hserves.table]
      exact hpage

/-- Where a continuation goes on: behind the position of the item whose key it names. -/
def Resumes (t : Table) (bySortKey : Bool) (continuation : Option String) (bound : Option Rows.Position) : Prop :=
  ∃ start, startOf continuation = .ok start ∧ t.rows.Starts bySortKey start bound

/-- The first page goes on from the beginning. -/
theorem resumes_none (t : Table) (bySortKey : Bool) : Resumes t bySortKey none none := ⟨none, rfl, rfl⟩

/-- The page after an item goes on behind it. -/
theorem resumes_some {t : Table} {bySortKey : Bool} {item : Item} {p : Rows.Position} (h : Readable t item)
    (hp : t.rows.position bySortKey item = .ok p) :
    Resumes t bySortKey (some (Json.obj (t.rows.keyOf item)).text) (some p) := by
  refine ⟨some (t.rows.keyOf item), ?_, p, ?_, rfl⟩
  · simp only [startOf, startKey, h.key]
    rfl
  · rw [Rows.position_keyOf]
    exact hp

/-- A page of a search, of what is left behind its start. -/
def pageBehind (t : Table) (course : Course) (select : Select) (cs : List Candidate) : RecordsPage Document where
  items := ((cs.take course.take).filter fun c => course.passes c.document).map fun c => select.project c.document
  nextCursor :=
    (if course.take < cs.length then (cs.take course.take).getLast?.map fun c => t.rows.keyOf c.item else none).map
      fun key => Cursor.encode (Json.obj key).text

section

variable {name : String} {autoFields : AutoFields} {policy : WritePolicy} {query : QuerySettings} {clock : Nat → Instant}
  {ids : Nat → String} {t : Table} {args : FindArgs} {forward : Option Bool} {take : Nat}

variable (clock ids) in
/-- A page of a search goes on strictly behind the item that its continuation names, whatever the table is by then. -/
theorem search_yields (hfilter : args.filter.Valid) (hlimit : WithinLimit args.filter)
    (hforward : forward? t (keyPlan? t args.filter).isSome args.order = .ok forward)
    (htake : (Repository.ofDocuments (.make name autoFields policy query) (adapter t)).pageSize args.take = .ok take)
    (hpos : 1 ≤ take) {w : World service Memory} {continuation : Option String} {bound : Option Rows.Position}
    (hw : Serves t w.store) (hresumes : Resumes t (courseOf t args.filter forward take).bySortKey continuation bound) :
    ∃ cs log, Remains (courseOf t args.filter forward take) (w.store.rows t) bound cs ∧
      ((Repository.ofDocuments (.make name autoFields policy query) (adapter t)).findMany
        { args with cursor := continuation.map Cursor.encode }).Yields (surroundings clock ids) w
        (.ok (pageBehind t (courseOf t args.filter forward take) args.select cs)) { w with log } := by
  obtain ⟨plan, hplan, hcall⟩ := planRead_takes hfilter hlimit hforward (Repository.pageSize_lt htake) args.select
  obtain ⟨start, hstart, hposition⟩ := hresumes
  have hne : continuation ≠ some "" := by
    rintro rfl
    cases hstart
  have hstarts : (w.store.rows t).Starts (courseOf t args.filter forward take).bySortKey start bound := by
    cases start with
    | none => exact hposition
    | some item =>
      obtain ⟨p, hp, rfl⟩ := hposition
      exact ⟨p, (hw.sound.position_eq _ item).trans hp, rfl⟩
  obtain ⟨cs, hremains, hread⟩ := ReadPlan.read_page (hplan start) hw hstarts hpos
  obtain ⟨call, hcall, hbrings⟩ := hcall hstart
  have hdocuments : ∀ c ∈ (cs.take take).filter fun c => decide (args.filter.Passes .casings c.document),
      toDocument c.item = .ok c.document := by
    intro c hc
    have hmem := List.mem_of_mem_take (List.mem_filter.1 hc).1
    exact (Rows.of_mem_standing (hremains.mem_iff.1 hmem).1).2.1
  have hfind : ((adapter t).findMany ⟨args.filter, args.select, args.order, take, continuation⟩).Yields (surroundings clock ids)
      w _ { w with log := w.log ++ [call] } :=
    findMany_yields hcall hw.failure (hbrings hw hread) (readItems_candidates args.select hdocuments)
  have hrequest := @Repository.pageRequest_eq _ _ _ { args with cursor := continuation.map Cursor.encode } _ _ hfilter htake rfl hne
  have hpage := Repository.findMany_yields (by rfl) hrequest hfind
  refine ⟨cs, w.log ++ [call], hremains, ?_⟩
  rw [pageBehind]
  simpa only [List.map_map, Option.map_map, Function.comp_def, Select.project_project, hw.sound.keyOf_eq] using hpage

end

end DocQuery.Dynamo
