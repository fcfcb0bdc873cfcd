import DocQuery.Proofs.Dynamo.Closed
import DocQuery.Proofs.Dynamo.Contract
import DocQuery.Proofs.Dynamo.Pages
import DocQuery.Proofs.Repository.Selection

/-!
# Selections in a table

What is selected takes the first aliases of a read, so the texts of its conditions differ from selection to selection. But they are
read back as the same conditions, and the store projects the items only after it has found them. So a read comes by the same items
whatever it selects of them, and every one of them has a document.
-/

namespace DocQuery.Dynamo

open Expression Operation

/-! ## Texts -/

section

variable {keys : List (String × KeyCondition)} {remaining : Where}

/-- The texts of a read fail to compile over the filter alone. -/
theorem compileTexts_ends (select : Select) (hk : Plain keys) (hv : remaining.Valid) :
    Compile.Ends (compileTexts select keys remaining) (remaining.fault? (some maxInList)) := by
  have hprojection : Compile.Succeeds (compileProjection select) := fun b => ⟨_, _, compileProjection_yields select b⟩
  have hkeys : Compile.Succeeds (keys.mapM fun e => compileKey e.1 e.2) := Compile.Succeeds.mapM fun e he b => by
    obtain ⟨f, b', hf, -⟩ := compileKey_stands (hk e he).1 b
    exact ⟨f, b', hf⟩
  refine hprojection.ends.bind fun text => ?_
  refine hkeys.ends.bind fun fragments => ?_
  have hfilter := (Compile.filter_ends dialect hv).bind fun filter => (Compile.Succeeds.pure (σ := List String)
    (Texts.mk text (Bindings.render dialect (Fragment.join " AND " fragments)) (filter.map (Bindings.render dialect)))).ends
  rwa [Option.or_none] at hfilter

/-- The texts of a read fail to compile over the fault of its filter. -/
theorem readTexts?_of_fault? (select : Select) (hk : Plain keys) (hv : remaining.Valid) {e : Error}
    (h : remaining.fault? (some maxInList) = some e) : readTexts? select keys remaining = .error e := by
  have hends := compileTexts_ends select hk hv ⟨[], []⟩
  rw [h] at hends
  rw [readTexts?]
  rcases hcompiled : (compileTexts select keys remaining).run.run ⟨[], []⟩ with ⟨e' | texts, b⟩
  · rw [hcompiled] at hends
    exact congrArg Except.error (Option.some.inj hends).symm
  · rw [hcompiled] at hends
    cases hends

/-- The texts of reads that differ in what they select only fail to compile alike, or are read back. -/
theorem readTexts?_select (hk : Plain keys) (hv : remaining.Valid) :
    (∃ e, ∀ select, readTexts? select keys remaining = .error e) ∨
      ∀ select, ∃ texts tables, readTexts? select keys remaining = .ok (texts, tables) ∧
        TextsStand select keys remaining texts tables := by
  cases hfault : remaining.fault? (some maxInList) with
  | none => exact .inr fun select => readTexts?_stands select hk hv (withinLimit_of_fault? hfault)
  | some e => exact .inl ⟨e, fun select => readTexts?_of_fault? select hk hv hfault⟩

end

/-! ## Reads -/

namespace ReadPlan

variable {p : ReadPlan} {rows : Rows} {key filter : Document → Bool}

/-- The store's refusal of a filter on keys, if there is one. -/
def accepted (p : ReadPlan) (rows : Rows) : Except StoreError Unit :=
  match p.keyCondition, p.filter with
  | some _, some filter =>
    match filter.paths.find? rows.isKey with
    | some key => .error (keyInFilter key)
    | none => .ok ()
  | _, _ => .ok ()

/-- What a read looks at, and the key of the last item if there may be more. -/
def found (p : ReadPlan) (rows : Rows) : Except StoreError (List Candidate × Option Item) := do
  let candidates ← p.candidates rows rows.items
  let behind ← p.afterStart rows (p.arrange candidates)
  let looked := p.looked behind
  .ok (looked, if looked.length < behind.length then looked.getLast?.map fun c => rows.keyOf c.item else none)

/-- What a read looks at, unless the store refuses it. -/
def visited (p : ReadPlan) (rows : Rows) : Except StoreError (List Candidate × Option Item) := do
  p.accepted rows
  p.found rows

/-- A read returns, of what it looks at, what passes its filter, projected. -/
theorem read_eq_visited (hp : p.Decides key filter) (rows : Rows) :
    p.read rows = (p.visited rows).map fun found =>
      ⟨some (.arr ((found.1.filter fun c => filter c.document).map fun c => .obj (projectItem p.projection c.item))), found.2⟩ := by
  have hfound : (do
      let found ← p.candidates rows rows.items
      let behind ← p.afterStart rows (p.arrange found)
      let looked := p.looked behind
      let items ← p.collect looked
      let last := if looked.length < behind.length then looked.getLast?.map fun c => rows.keyOf c.item else none
      .ok (⟨some (.arr items), last⟩ : Page)) = (p.found rows).map fun found =>
        ⟨some (.arr ((found.1.filter fun c => filter c.document).map fun c => .obj (projectItem p.projection c.item))), found.2⟩ := by
    rw [found]
    cases p.candidates rows rows.items with
    | error e => rfl
    | ok found =>
      simp only [bind, Except.bind, collect_eq hp]
      cases p.afterStart rows (p.arrange found) <;> rfl
  rw [read, visited, accepted]
  cases p.keyCondition with
  | none => exact hfound
  | some k =>
    cases p.filter with
    | none => exact hfound
    | some f =>
      simp only
      cases f.paths.find? rows.isKey with
      | some key => rfl
      | none => exact hfound

/-- Candidates do not depend on what is projected to, nor on values under which the key condition holds of the same documents. -/
theorem candidates_congr {values : Fields Json} (h : ∀ d, holds values p.keyCondition d = holds p.values p.keyCondition d)
    (projection : Option (List String)) (items : List (String × Item)) :
    ({ p with values, projection } : ReadPlan).candidates rows items = p.candidates rows items := by
  induction items with
  | nil => rfl
  | cons e items ih => simp only [candidates, h, ih]

/-- What a read looks at does not depend on what it projects to, nor on values under which its key condition holds of the same
documents. -/
theorem visited_congr {values : Fields Json} (h : ∀ d, holds values p.keyCondition d = holds p.values p.keyCondition d)
    (projection : Option (List String)) (rows : Rows) :
    ({ p with values, projection } : ReadPlan).visited rows = p.visited rows := by
  rw [visited, found, candidates_congr h]
  rfl

/-- Every candidate has a document. -/
theorem document_of_mem_candidates {items : List (String × Item)} {cs : List Candidate} (h : p.candidates rows items = .ok cs) :
    ∀ c ∈ cs, toDocument c.item = .ok c.document := by
  induction items generalizing cs with
  | nil => cases h; exact List.forall_mem_nil _
  | cons e items ih =>
    rw [candidates] at h
    obtain ⟨d, hd, h⟩ := of_bind_eq_ok h
    obtain ⟨meets, -, h⟩ := of_bind_eq_ok h
    cases meets with
    | false => exact ih h
    | true =>
      obtain ⟨position, -, h⟩ := of_bind_eq_ok h
      obtain ⟨rest, hrest, h⟩ := of_bind_eq_ok h
      cases h
      refine List.forall_mem_cons.2 ⟨?_, ih hrest⟩
      cases hdocument : toDocument e.2 with
      | error fault => rw [hdocument] at hd; cases hd
      | ok d' => rw [hdocument] at hd; cases hd; rfl

/-- Everything that a read looks at has a document. -/
theorem document_of_visited {found : List Candidate × Option Item} (h : p.visited rows = .ok found) :
    ∀ c ∈ found.1, toDocument c.item = .ok c.document := by
  obtain ⟨-, -, h⟩ := of_bind_eq_ok h
  obtain ⟨candidates, hcandidates, h⟩ := of_bind_eq_ok h
  obtain ⟨behind, hbehind, h⟩ := of_bind_eq_ok h
  cases h
  intro c hc
  have hlooked : c ∈ behind := by
    rw [looked] at hc
    split at hc
    · exact List.mem_of_mem_take hc
    · exact hc
  refine document_of_mem_candidates hcandidates c ((p.arrange_perm candidates).mem_iff.1 ?_)
  rw [afterStart] at hbehind
  split at hbehind
  · exact Except.ok.inj hbehind ▸ hlooked
  · obtain ⟨start, -, hbehind⟩ := of_bind_eq_ok hbehind
    exact List.mem_of_mem_filter (Except.ok.inj hbehind ▸ hlooked)

end ReadPlan

/-! ## Answers -/

/-- The page of an answer to a scan is the page that the store scans. -/
theorem answer_scan {s : Memory} (h : s.failure = none) (r : ScanRequest) :
    (Memory.answer (.scan r) s).1.map (pageOf (.scan r)) = s.scan r := by
  rw [Memory.answer, answerUnless_of_none h rfl, Memory.act]
  cases s.scan r <;> rfl

/-- The page of an answer to a query is the page that the store looks up. -/
theorem answer_query {s : Memory} (h : s.failure = none) (r : QueryRequest) :
    (Memory.answer (.query r) s).1.map (pageOf (.query r)) = s.query r := by
  rw [Memory.answer, answerUnless_of_none h rfl, Memory.act]
  cases s.query r <;> rfl

/-- A page of what a read has found, with a selection. -/
def Page.of (select : Select) (found : List Candidate × Option Item) : Page :=
  ⟨some (.arr (found.1.map fun c => .obj (projectItem select.selected? c.item))), found.2⟩

/-- Plans that decide the same, and differ besides in what they project to only, read the same items. -/
theorem read_eq_of {plans : Select → ReadPlan} {key filter : Document → Bool} (hdecides : ∀ select, (plans select).Decides key filter)
    (hplans : ∀ select, plans select =
      { plans Select.all with values := (plans select).values, projection := select.selected? }) (select : Select) (rows : Rows) :
    (plans select).read rows = (((plans Select.all).visited rows).map fun found =>
      (found.1.filter fun c => filter c.document, found.2)).map (Page.of select) := by
  have hkey (d : Document) : holds (plans select).values (plans Select.all).keyCondition d =
      holds (plans Select.all).values (plans Select.all).keyCondition d := by
    have hd := (hdecides select).key d
    rw [hplans select] at hd
    exact hd.trans ((hdecides Select.all).key d).symm
  have hvisited : (plans select).visited rows = (plans Select.all).visited rows := by
    rw [hplans select]
    exact ReadPlan.visited_congr hkey _ rows
  have hprojection : (plans select).projection = select.selected? := by rw [hplans select]
  rw [ReadPlan.read_eq_visited (hdecides select), hvisited, hprojection]
  cases (plans Select.all).visited rows <;> rfl

/-- Calls, one for each selection, that a store answers with a failure or with pages of the same items. -/
def AnsweredAlike (s : Memory) (calls : Select → Call) : Prop :=
  ∃ r : Except StoreError (List Candidate × Option Item),
    (∀ found, r = .ok found → ∀ c ∈ found.1, toDocument c.item = .ok c.document) ∧
      ∀ select, (Memory.answer (calls select) s).1.map (pageOf (calls select)) = r.map (Page.of select)

section

variable {s : Memory} {t : Table} {calls : Select → Call}

/-- Calls that read a table by plans that decide the same, and differ besides in what they project to only. -/
theorem AnsweredAlike.of_plans {plans : Select → ReadPlan} {key filter : Document → Bool}
    (hanswer : ∀ select, s.failure = none →
      (Memory.answer (calls select) s).1.map (pageOf (calls select)) = s.requireTable t.name >>= (plans select).read)
    (hdecides : ∀ select, (plans select).Decides key filter)
    (hplans : ∀ select, plans select =
      { plans Select.all with values := (plans select).values, projection := select.selected? }) : AnsweredAlike s calls := by
  cases hfailure : s.failure with
  | some e =>
    refine ⟨.error e, nofun, fun select => ?_⟩
    rw [Memory.answer, hfailure]
    rfl
  | none =>
    cases htable : s.requireTable t.name with
    | error e =>
      refine ⟨.error e, nofun, fun select => ?_⟩
      rw [hanswer select hfailure, htable]
      rfl
    | ok rows =>
      refine ⟨((plans Select.all).visited rows).map fun found => (found.1.filter fun c => filter c.document, found.2), ?_, ?_⟩
      · intro found hfound c hc
        cases hvisited : (plans Select.all).visited rows with
        | error e => rw [hvisited] at hfound; cases hfound
        | ok visited =>
          rw [hvisited] at hfound
          cases hfound
          exact ReadPlan.document_of_visited hvisited c (List.mem_of_mem_filter hc)
      · intro select
        rw [hanswer select hfailure, htable]
        exact read_eq_of hdecides hplans select rows

variable {keys : List (String × KeyCondition)} {remaining : Where} {texts : Select → Texts} {tables : Select → Tables}

/-- Texts of reads that differ in what they select only have the key condition in common. -/
theorem exists_keyCondition (hkeys : keys ≠ []) (h : ∀ select, TextsStand select keys remaining (texts select) (tables select)) :
    ∃ key, conjoin (Clause.formulas 0 (keyClauses keys)) = some key ∧
      ∀ select, parseFormula (texts select).keyCondition (tables select).names = .ok key := by
  obtain ⟨key, hkey, -⟩ := (h Select.all).keyCondition hkeys
  refine ⟨key, hkey, fun select => ?_⟩
  obtain ⟨key', hkey', hparsed⟩ := (h select).keyCondition hkeys
  obtain rfl : key = key' := Option.some.inj (hkey.symm.trans hkey')
  exact hparsed

/-- Queries with texts that are read back are answered alike. -/
theorem AnsweredAlike.query (hkeys : keys ≠ []) (h : ∀ select, TextsStand select keys remaining (texts select) (tables select))
    (s : Memory) (t : Table) (forward : Option Bool) (limit : Option Nat) (start : Option Item) :
    AnsweredAlike s fun select => .query (queryOf t (texts select) (tables select) forward limit start) := by
  obtain ⟨key, hkey, hparsed⟩ := exists_keyCondition hkeys h
  exact .of_plans (fun select hs => (answer_query hs _).trans (query_eq (h select) (hparsed select) forward limit start))
    (fun select => decides_queryPlan (h select) hkey forward limit start) fun _ => rfl

/-- Scans with texts that are read back are answered alike. -/
theorem AnsweredAlike.scan (h : ∀ select, TextsStand select [] remaining (texts select) (tables select)) (s : Memory) (t : Table)
    (limit : Option Nat) (start : Option Item) :
    AnsweredAlike s fun select => .scan { scanOf t (texts select) (tables select) limit with start } := by
  have hdecides (select : Select) : ({ scanPlan select remaining (tables select) limit with start } : ReadPlan).Decides _ _ :=
    ⟨(decides_scanPlan (h select) limit).key, (decides_scanPlan (h select) limit).filter⟩
  exact .of_plans (fun select hs => (answer_scan hs _).trans (scan_from_eq (h select) limit start)) hdecides fun _ => rfl

end

/-- The read that a request with a valid filter amounts to, step by step. -/
theorem planRead_eq (t : Table) (request : PageRequest) (hv : request.filter.Valid) {keys : List (String × KeyCondition)}
    {remaining : Where} (hp : (keyPlan? t request.filter).getD ([], request.filter) = (keys, remaining)) :
    planRead t request =
      (forward? t (!keys.isEmpty) request.order).bind fun forward => (startOf request.continuation).bind fun start =>
        (readTexts? request.select keys remaining).map fun (texts, tables) =>
          if keys.isEmpty then .scan { scanOf t texts tables (count32? request.take) with start }
          else .query (queryOf t texts tables forward (count32? request.take) start) := by
  obtain ⟨filter, select, order, take, continuation⟩ := request
  have hvalid : filter.validate = .ok () := hv
  have hplan : (keyPlan? t filter).getD ([], filter) = (keys, remaining) := hp
  simp only [planRead, hvalid, hplan]
  cases forward? t (!keys.isEmpty) order with
  | error e => rfl
  | ok forward =>
    cases continuation with
    | none =>
      cases readTexts? select keys remaining with
      | error e => rfl
      | ok texts => cases keys <;> rfl
    | some token =>
      simp only [startOf, bind, Except.bind]
      cases startKey token with
      | error e => rfl
      | ok key =>
        cases readTexts? select keys remaining with
        | error e => rfl
        | ok texts => cases keys <;> rfl

/-- What a read divides a valid filter into: the key conditions of its plan, if it has one, and the filter that remains. -/
theorem getD_keyPlan? (t : Table) {w : Where} (hv : w.Valid) :
    ∃ keys remaining, (keyPlan? t w).getD ([], w) = (keys, remaining) ∧ Plain keys ∧ remaining.Valid ∧
      ∀ d, w.Passes .casings d ↔ (∀ e ∈ keys, e.2.Passes (Fields.get? d e.1)) ∧ remaining.Passes .casings d := by
  cases hp : keyPlan? t w with
  | none => exact ⟨[], w, rfl, List.forall_mem_nil _, hv, fun d => by simp⟩
  | some plan => exact ⟨plan.1, plan.2, rfl, keys_of_keyPlan? hp hv, valid_of_keyPlan? hp hv, passes_of_keyPlan? hp⟩

/-- Requests for a page that differ in what they select only are refused alike, or are sent as calls that are answered alike. -/
theorem planRead_select (t : Table) {filter : Where} (hv : filter.Valid) (order : Order) (take : Nat) (continuation : Option String) :
    (∃ e, ∀ select, planRead t ⟨filter, select, order, take, continuation⟩ = .error e) ∨
      ∃ calls, (∀ select, planRead t ⟨filter, select, order, take, continuation⟩ = .ok (calls select)) ∧
        ∀ s, AnsweredAlike s calls := by
  obtain ⟨keys, remaining, hplan, hplain, hremaining, -⟩ := getD_keyPlan? t hv
  have heq (select : Select) := planRead_eq t ⟨filter, select, order, take, continuation⟩ hv hplan
  simp only [heq]
  cases forward? t (!keys.isEmpty) order with
  | error e => exact .inl ⟨e, fun _ => rfl⟩
  | ok forward =>
    cases startOf continuation with
    | error e => exact .inl ⟨e, fun _ => rfl⟩
    | ok start =>
      obtain ⟨e, he⟩ | hread := readTexts?_select hplain hremaining
      · exact .inl ⟨e, fun select => by simp only [Except.bind, he]; rfl⟩
      choose texts tables hread hstand using hread
      simp only [Except.bind, hread, Except.map]
      refine .inr ⟨_, fun select => rfl, fun s => ?_⟩
      cases keys with
      | nil => exact .scan hstand s t _ start
      | cons e keys => exact .query (List.cons_ne_nil e keys) hstand s t forward _ start

/-- The partition of an identifier is pinned by a single text. -/
theorem plain_partition (t : Table) (id : String) : Plain [(t.partitionKey, .single (.compare .equals (.text id)))] :=
  List.forall_mem_singleton.2 ⟨.compare (.text id) nofun, List.forall_mem_singleton.2 rfl⟩

/-- The request for the first record of a partition reads it under a limit of one. -/
theorem firstRequest_eq {t : Table} {id : String} {select : Select} {texts : Texts} {tables : Tables}
    (h : readTexts? select [(t.partitionKey, .single (.compare .equals (.text id)))] Keyed.empty = .ok (texts, tables)) :
    firstRequest t id select = .ok (queryOf t texts tables none (some 1) none) := by
  simp only [firstRequest, h, queryOf, filter_of_empty h]
  rfl

/-- Lookups in a partition that differ in what they select only are refused alike, or are sent as calls that are answered alike. -/
theorem firstRequest_select (t : Table) (id : String) : (∃ e, ∀ select, firstRequest t id select = .error e) ∨
    ∃ requests : Select → QueryRequest, (∀ select, firstRequest t id select = .ok (requests select)) ∧
      ∀ s, AnsweredAlike s fun select => .query (requests select) := by
  obtain ⟨e, he⟩ | hread := readTexts?_select (plain_partition t id) (show Where.Valid Keyed.empty from rfl)
  · exact .inl ⟨e, fun select => by rw [firstRequest, he]; rfl⟩
  choose texts tables hread hstand using hread
  exact .inr ⟨fun select => queryOf t (texts select) (tables select) none (some 1) none,
    fun select => firstRequest_eq (hread select), fun s => .query (List.cons_ne_nil _ _) hstand s t none (some 1) none⟩

/-! ## Operations -/

section

variable {call : Call} {answer : Except StoreError call.Answer} {r : Except StoreError Page}

/-- The records that an answer to a read of a table is read as. -/
theorem outcome_readPage (h : answer.map (pageOf call) = r) : Operation.outcome (I := service) readPage call answer =
    (r.mapError .storeFailure).bind fun page =>
      (readItems page.items).map fun items => ⟨items, page.last.map fun key => (Json.obj key).text⟩ := by
  subst h
  cases answer <;> rfl

/-- The first record that an answer to a read of a table is read as. -/
theorem outcome_readFirst (h : answer.map (pageOf call) = r) : Operation.outcome (I := service) readFirst call answer =
    (r.mapError .storeFailure).bind fun page => (readItems page.items).map List.head? := by
  subst h
  cases answer <;> rfl

end

/-- The item under the key of an identifier, if the store has the table. -/
def Memory.stored (s : Memory) (t : Table) (id : String) : Except StoreError (Option Item) := do
  let rows ← s.requireTable t.name
  let key ← rows.keyText (partitionItem t id)
  .ok (rows.find? key)

/-- A read by key answers with what it selects of the item that is stored under the key. -/
theorem get_stored (s : Memory) (t : Table) (id : String) (select : Select) :
    s.get (getRequest t id select) = (s.stored t id).map (Option.map (projectItem select.selected?)) := by
  have hprojection := parse_projection select (List.prefix_refl (projection [] select).2)
  simp only [Memory.get, getRequest, hprojection, Memory.stored, bind, Except.bind]
  cases s.requireTable t.name with
  | error e => rfl
  | ok rows =>
    simp only
    cases rows.keyText (partitionItem t id) <;> rfl

section

variable (config : EntityConfig) (options : Options) (clock : Nat → Instant) (ids : Nat → String) (latency : Nat) (t : Table)
  (w : World service Memory)

/-- Searches that differ in what they select only come to one page. -/
theorem findMany_uniform (args : FindArgs) : Uniform (fun _ => True)
    (fun select => (Operation.run ⟨Memory.answer, clock, ids, latency⟩ config options w
      ((Repository.ofDocuments config (adapter t)).findMany { args with select })).1)
    fun select (page : RecordsPage Document) => .ok (page.project select) := by
  refine Repository.findMany_select (findMany_eq_send t) fun take continuation hv => ?_
  obtain ⟨e, he⟩ | ⟨calls, hcalls, halike⟩ := planRead_select t hv args.order take continuation
  · exact .inl ⟨e, he⟩
  refine .inr ⟨calls, hcalls, ?_⟩
  obtain ⟨r, hdocuments, hr⟩ := halike w.store
  have houtcome (select : Select) := congrArg (Except.bind · ((Repository.ofDocuments config (adapter t)).pageFrom select))
    (outcome_readPage (hr select))
  cases r with
  | error e => exact .failed (.storeFailure e) houtcome
  | ok found =>
    refine ⟨.ok ⟨found.1.map (·.document), (found.2.map fun key => (Json.obj key).text).map Cursor.encode⟩,
      fun _ _ => trivial, fun select => (houtcome select).trans ?_⟩
    have hitems := readItems_candidates select (hdocuments found rfl)
    simp only [Except.map, Except.mapError, Page.of, hitems, Except.bind, Repository.pageFrom_ofDocuments, RecordsPage.project,
      List.map_map, Function.comp_def, Select.project_project]

/-- Lookups in a table with a sort key that differ in what they select only come to one record. -/
theorem findOne_uniform {sortKey : String} (hs : t.sortKey = some sortKey) (id : String) : Uniform (fun _ => True)
    (fun select => (Operation.run ⟨Memory.answer, clock, ids, latency⟩ config options w
      ((Repository.ofDocuments config (adapter t)).findOne id select)).1)
    fun select d => .ok (select.project d) := by
  refine Repository.findOne_select (findById_eq_send t id) ?_
  simp only [planFind, readFind, hs]
  obtain ⟨e, he⟩ | ⟨requests, hrequests, halike⟩ := firstRequest_select t id
  · exact .inl ⟨e, fun select => by rw [he]; rfl⟩
  refine .inr ⟨fun select => .query (requests select), fun select => by rw [hrequests]; rfl, ?_⟩
  obtain ⟨r, hdocuments, hr⟩ := halike w.store
  have houtcome (select : Select) := congrArg (Except.bind · ((Repository.ofDocuments config (adapter t)).recordFrom id select))
    (outcome_readFirst (hr select))
  cases r with
  | error e => exact .failed (.storeFailure e) houtcome
  | ok found =>
    have hitems (select : Select) := readItems_candidates select (hdocuments found rfl)
    simp only [Except.map, Except.mapError, Page.of, hitems, Except.bind, List.head?_map] at houtcome
    cases hfirst : found.1.head? with
    | none => exact .failed (.notFound id) fun select => (houtcome select).trans (by rw [hfirst]; rfl)
    | some c =>
      refine ⟨.ok c.document, fun _ _ => trivial, fun select => (houtcome select).trans ?_⟩
      rw [hfirst]
      exact congrArg Except.ok (Select.project_project select _)

/-- Lookups in a table without a sort key that differ in what they select only read what they select of one item. -/
theorem findOne_uniform_of_none (hs : t.sortKey = none) (id : String) : Uniform (fun item => w.store.stored t id = .ok (some item))
    (fun select => (Operation.run ⟨Memory.answer, clock, ids, latency⟩ config options w
      ((Repository.ofDocuments config (adapter t)).findOne id select)).1)
    fun select item => (readItem (projectItem select.selected? item)).map select.project := by
  refine Repository.findOne_select (findById_eq_send t id) ?_
  simp only [planFind, readFind, hs]
  refine .inr ⟨fun select => .get (getRequest t id select), fun select => rfl, ?_⟩
  simp only [Memory.answer]
  cases w.store.failure with
  | some e => exact .failed (.storeFailure e) fun _ => rfl
  | none =>
    simp only [Memory.act, get_stored]
    cases hstored : w.store.stored t id with
    | error e => exact .failed (.storeFailure e) fun _ => rfl
    | ok found =>
      cases found with
      | none => exact .failed (.notFound id) fun _ => rfl
      | some item =>
        refine ⟨.ok item, fun b h => Except.ok.inj h ▸ rfl, fun select => ?_⟩
        show ((readItem (projectItem select.selected? item)).map some).bind _ =
          (readItem (projectItem select.selected? item)).map select.project
        cases readItem (projectItem select.selected? item) <;> rfl

end

end DocQuery.Dynamo
