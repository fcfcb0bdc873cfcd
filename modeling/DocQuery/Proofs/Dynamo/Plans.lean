import DocQuery.Proofs.Dynamo.Reads

/-!
# A query selects what a scan would

A filter with a plan is sent as a query, with a key condition and the filter that remains, instead of a scan with the whole
filter. Both select the same records of every table, and the store never refuses the query over the remaining filter.
-/

namespace DocQuery.Dynamo

open Expression

/-- The query on a table with these texts. -/
def queryOf (t : Table) (texts : Texts) (tables : Tables) (forward : Option Bool) (limit : Option Nat) (start : Option Item) :
    QueryRequest where
  table := t.name
  keyCondition := texts.keyCondition
  filter := texts.filter
  projection := texts.projection
  names := tables.names
  values := tables.values
  forward := forward
  limit := limit
  start := start

/-- The scan of a table with these texts, from its beginning. -/
def scanOf (t : Table) (texts : Texts) (tables : Tables) (limit : Option Nat) : ScanRequest where
  table := t.name
  filter := texts.filter
  projection := texts.projection
  names := tables.names
  values := tables.values
  limit := limit
  start := none

/-- Two reads of a whole table that return the same items, in whatever order, or fail alike over an item that cannot be read. -/
def SameRecords : Except StoreError Page → Except StoreError Page → Prop
  | .ok p, .ok q => ∃ ps qs, p = ⟨some (.arr ps), none⟩ ∧ q = ⟨some (.arr qs), none⟩ ∧ ps.Perm qs
  | .error e, .error f => e = f ∧ ∃ fault, e = invalidAttribute fault
  | _, _ => False

/-- How the store refuses a query whose filter reads a key. -/
def keyInFilter (field : String) : StoreError :=
  invalid ("Filter Expression can only contain non-primary key attributes: Primary key attribute: " ++ field)

/-- An answer that is no such refusal. -/
def NotRefused {α : Type} (r : Except StoreError α) : Prop := ∀ field, r ≠ .error (keyInFilter field)

/-- A test of a sort key that may stand in a key condition. -/
inductive SortKeyTest (field : String) : Formula → Prop
  | compare {r : Relation} (name : String) : r ≠ .ne → SortKeyTest field (.compare (.path field) r (.param name))
  | beginsWith (name : String) : SortKeyTest field (.call .beginsWith [.path field, .param name])
  | between (low high : String) : SortKeyTest field (.between (.path field) (.param low) (.param high))

/-- What a key condition is: one equality of the partition key, and at most one test of the sort key. -/
inductive KeyFormula (t : Table) : Formula → Prop
  | partition (name : String) : KeyFormula t (.compare (.path t.partitionKey) .eq (.param name))
  | both (name : String) {sortKey : String} {test : Formula} : t.sortKey = some sortKey → SortKeyTest sortKey test →
      KeyFormula t (.and (.compare (.path t.partitionKey) .eq (.param name)) test)

/-! ## Key conditions of a plan -/

section

variable {t : Table} {w : Where} {keys : List (String × KeyCondition)} {remaining : Where}

/-- The formula of a plan's key conditions is an equality and at most one test. -/
theorem keyFormula_of_keyPlan? (h : keyPlan? t w = some (keys, remaining)) :
    ∃ f, conjoin (Clause.formulas 0 (keyClauses keys)) = some f ∧ KeyFormula t f := by
  obtain ⟨pinned, v, -, -, ⟨-, rfl, -⟩ | ⟨sortKey, f, c, hs, -, hc, rfl, -⟩⟩ := keyPlan?_cases h
  · exact ⟨_, rfl, .partition _⟩
  · refine ⟨_, rfl, .both _ hs ?_⟩
    cases orderly_of_sortKeyCondition? hc with
    | @compare op v hne => exact .compare _ (by cases op <;> first | exact absurd rfl hne | nofun)
    | startsWith part => exact .beginsWith _
    | between low high => exact .between _ _

/-- The filter that remains of a plan reads no keys. -/
theorem not_isKey_of_mem_paths (h : keyPlan? t w = some (keys, remaining)) {slot : Nat} {f : Formula}
    (hf : conjoin (Clause.formulas slot (remaining.clauses .casings placeholder)) = some f) :
    ∀ field ∈ f.paths, t.isKey field = false := by
  intro field hfield
  obtain ⟨c, hc, i, hfield⟩ := Clause.mem_paths_conjoin hf hfield
  obtain ⟨e, he, rfl⟩ := Where.mem_names_of_mem_paths hc hfield
  exact not_isKey_of_keyPlan? h e he

/-- A plan has key conditions. -/
theorem isEmpty_of_keyPlan? (h : keyPlan? t w = some (keys, remaining)) : keys.isEmpty = false := by
  obtain ⟨pinned, v, -, -, ⟨-, rfl, -⟩ | ⟨sortKey, f, c, -, -, -, rfl, -⟩⟩ := keyPlan?_cases h <;> rfl

/-- The key that a continuation names, if there is one. -/
def startOf (continuation : Option String) : Except Error (Option Item) :=
  match continuation with
  | some token => (startKey token).map some
  | none => .ok none

/-- A request whose filter has a plan is sent as a query. -/
theorem planRead_of_some (request : PageRequest) (hv : request.filter.validate = .ok ())
    (hp : keyPlan? t request.filter = some (keys, remaining)) {forward : Option Bool}
    (hf : forward? t true request.order = .ok forward) {start : Option Item} (hs : startOf request.continuation = .ok start)
    {texts : Texts} {tables : Tables} (hr : readTexts? request.select keys remaining = .ok (texts, tables)) :
    planRead t request = .ok (.query (queryOf t texts tables forward (count32? request.take) start)) := by
  simp only [planRead, hv, hp, Option.getD_some, isEmpty_of_keyPlan? hp, Bool.not_false, hf, hr, bind, Except.bind, if_true]
  obtain ⟨filter, select, order, take, _ | token⟩ := request
  · cases hs
    rfl
  · have hstart : (startKey token).map some = .ok start := hs
    simp only [hstart]
    rfl

/-- A request whose filter has no plan is sent as a scan. -/
theorem planRead_of_none (request : PageRequest) (hv : request.filter.validate = .ok ())
    (hp : keyPlan? t request.filter = none) {forward : Option Bool} (hf : forward? t false request.order = .ok forward)
    {start : Option Item} (hs : startOf request.continuation = .ok start) {texts : Texts} {tables : Tables}
    (hr : readTexts? request.select [] request.filter = .ok (texts, tables)) :
    planRead t request = .ok (.scan { scanOf t texts tables (count32? request.take) with start }) := by
  simp only [planRead, hv, hp, Option.getD_none, List.isEmpty_nil, Bool.not_true, hf, hr, bind, Except.bind]
  obtain ⟨filter, select, order, take, _ | token⟩ := request
  · cases hs
    rfl
  · have hstart : (startKey token).map some = .ok start := hs
    simp only [hstart]
    rfl

/-- What a request is sent as: a query by the plan of its filter, or a scan if this has none. -/
theorem planRead_cases {request : PageRequest} {call : Call} (h : planRead t request = .ok call) :
    request.filter.Valid ∧ ∃ forward texts tables start,
      ((∃ keys remaining, keyPlan? t request.filter = some (keys, remaining) ∧ forward? t true request.order = .ok forward ∧
          readTexts? request.select keys remaining = .ok (texts, tables) ∧
          call = .query (queryOf t texts tables forward (count32? request.take) start)) ∨
        keyPlan? t request.filter = none ∧ forward? t false request.order = .ok forward ∧
          readTexts? request.select [] request.filter = .ok (texts, tables) ∧
          call = .scan { scanOf t texts tables (count32? request.take) with start }) := by
  obtain ⟨⟨⟩, hv, h⟩ := of_bind_eq_ok h
  refine ⟨hv, ?_⟩
  cases hp : keyPlan? t request.filter with
  | some plan =>
    obtain ⟨keys, remaining⟩ := plan
    simp only [hp, Option.getD_some, isEmpty_of_keyPlan? hp, Bool.not_false, if_true] at h
    obtain ⟨forward, hforward, h⟩ := of_bind_eq_ok h
    split at h
    all_goals
      obtain ⟨start, -, h⟩ := of_bind_eq_ok h
      obtain ⟨⟨texts, tables⟩, hread, h⟩ := of_bind_eq_ok h
      exact ⟨forward, texts, tables, start, .inl ⟨keys, remaining, rfl, hforward, hread, (Except.ok.inj h).symm⟩⟩
  | none =>
    simp only [hp, Option.getD_none, List.isEmpty_nil, Bool.not_true, Bool.false_eq_true, if_false] at h
    obtain ⟨forward, hforward, h⟩ := of_bind_eq_ok h
    split at h
    all_goals
      obtain ⟨start, -, h⟩ := of_bind_eq_ok h
      obtain ⟨⟨texts, tables⟩, hread, h⟩ := of_bind_eq_ok h
      exact ⟨forward, texts, tables, start, .inr ⟨rfl, hforward, hread, (Except.ok.inj h).symm⟩⟩

end

/-! ## Reads of a table -/

/-- How the store reads a table for a query with this key condition. -/
def queryPlan (select : Select) (keys : List (String × KeyCondition)) (w : Where) (tables : Tables) (key : Formula)
    (forward : Option Bool) (limit : Option Nat) (start : Option Item) : ReadPlan where
  keyCondition := some key
  filter := conjoin (Clause.formulas (Clause.allOperands (keyClauses keys)).length (w.clauses .casings placeholder))
  projection := select.selected?
  values := tables.decoded
  bySortKey := true
  forward := forward.getD true
  limit := limit
  start := start

/-- How the store reads a table for a scan, from the beginning. -/
def scanPlan (select : Select) (w : Where) (tables : Tables) (limit : Option Nat) : ReadPlan where
  keyCondition := none
  filter := conjoin (Clause.formulas 0 (w.clauses .casings placeholder))
  projection := select.selected?
  values := tables.decoded
  bySortKey := false
  forward := true
  limit := limit
  start := none

section

variable {m : Memory} {t : Table} {select : Select} {keys : List (String × KeyCondition)} {w : Where} {texts : Texts}
  {tables : Tables} {key : Formula}

/-- What the store does with a query. -/
theorem query_eq (h : TextsStand select keys w texts tables)
    (hkey : Expression.parseFormula texts.keyCondition tables.names = .ok key) (forward : Option Bool) (limit : Option Nat)
    (start : Option Item) :
    m.query (queryOf t texts tables forward limit start) =
      m.requireTable t.name >>= (queryPlan select keys w tables key forward limit start).read := by
  simp only [Memory.query, queryOf, queryPlan, hkey, h.filter, h.projection, h.values, Except.mapError, bind, Except.bind]

/-- What the store does with a scan from a start. -/
theorem scan_from_eq (h : TextsStand select [] w texts tables) (limit : Option Nat) (start : Option Item) :
    m.scan { scanOf t texts tables limit with start } =
      m.requireTable t.name >>= ReadPlan.read { scanPlan select w tables limit with start } := by
  have hfilter := h.filter
  simp only [keyClauses, List.map_nil, Clause.allOperands, List.flatMap_nil, List.length_nil] at hfilter
  simp only [Memory.scan, scanOf, scanPlan, hfilter, h.projection, h.values, bind, Except.bind]

/-- What the store does with a scan. -/
theorem scan_eq (h : TextsStand select [] w texts tables) (limit : Option Nat) :
    m.scan (scanOf t texts tables limit) = m.requireTable t.name >>= (scanPlan select w tables limit).read :=
  scan_from_eq h limit none

/-- A query looks for the documents that meet its key conditions and pass its filter. -/
theorem decides_queryPlan (h : TextsStand select keys w texts tables)
    (hkey : conjoin (Clause.formulas 0 (keyClauses keys)) = some key) (forward : Option Bool) (limit : Option Nat)
    (start : Option Item) :
    (queryPlan select keys w tables key forward limit start).Decides
      (fun d => decide (∀ e ∈ keys, e.2.Passes (Fields.get? d e.1))) (fun d => decide (w.Passes .casings d)) where
  key d := by
    have hpasses := h.passes_key d
    rw [hkey] at hpasses
    exact holds_of_passes hpasses
  filter d := holds_of_passes (h.passes_filter d)

/-- A scan looks for the documents that pass its filter. -/
theorem decides_scanPlan (h : TextsStand select [] w texts tables) (limit : Option Nat) :
    (scanPlan select w tables limit).Decides (fun _ => true) (fun d => decide (w.Passes .casings d)) where
  key _ := rfl
  filter d := holds_of_passes (h.passes_filter d)

end

/-! ## Failures that are no refusals -/

namespace NotRefused

variable {α β : Type}

theorem ok (a : α) : NotRefused (.ok a : Except StoreError α) := nofun

/-- Neither what comes first nor what comes after it is refused. -/
theorem bind {x : Except StoreError α} {f : α → Except StoreError β} (hx : NotRefused x) (hf : ∀ a, NotRefused (f a)) :
    NotRefused (x >>= f) := by
  cases x with
  | error e => exact fun field h => hx field (congrArg Except.error (Except.error.inj h))
  | ok a => exact hf a

theorem map {x : Except StoreError α} (h : NotRefused x) (f : α → β) : NotRefused (x.map f) := by
  cases x with
  | error e => exact fun field he => h field (congrArg Except.error (Except.error.inj he))
  | ok a => exact ok _

/-- A failure whose reason begins with another letter. -/
theorem invalid {s : String} {c : Char} (h : s.toList.head? = some c) (hc : c ≠ 'F') (rest : String) :
    NotRefused (.error (Dynamo.invalid (s ++ rest)) : Except StoreError α) := by
  intro field he
  injection he with he
  unfold keyInFilter Dynamo.invalid at he
  injection he with he
  have hreason := congrArg String.toList he
  obtain ⟨cs, hcs⟩ := List.head?_eq_some_iff.1 h
  simp only [String.toList_append, List.append_cancel_left_eq, hcs] at hreason
  simp at hreason
  exact hc hreason.1

/-- An attribute that cannot be read. -/
theorem invalidAttribute (r : Except AttributeFault α) : NotRefused (r.mapError Dynamo.invalidAttribute) := by
  cases r with
  | ok a => exact ok a
  | error fault => exact invalid (s := "Backend contract violation: ") (c := 'B') (by simp) (by decide) _

variable {rows : Rows}

theorem keyText (item : Item) : NotRefused (rows.keyText item) := by
  rw [Rows.keyText]
  cases item.get? rows.partitionKey with
  | none => exact invalid (c := 'm') (by simp) (by decide) _
  | some value =>
    cases rows.sortKey with
    | none => exact ok _
    | some sortKey =>
      refine bind (ok _) fun partition => ?_
      simp only
      cases item.get? sortKey with
      | none => exact invalid (c := 'm') (by simp) (by decide) _
      | some value => exact ok _

theorem position (bySortKey : Bool) (item : Item) : NotRefused (rows.position bySortKey item) := by
  have hplaced : ∀ sortValue : Option Json,
      NotRefused (rows.keyText item >>= fun key => .ok (Rows.Position.mk sortValue key)) :=
    fun sortValue => bind (keyText item) fun key => ok _
  unfold Rows.position
  split
  · next sortKey _ =>
    cases item.get? sortKey with
    | none => exact bind (ok _) hplaced
    | some typed => exact bind (map (invalidAttribute _) some) hplaced
  · exact bind (ok _) hplaced

variable {p : ReadPlan} {key filter : Document → Bool}

theorem candidates (hp : p.Decides key filter) (items : List (String × Item)) : NotRefused (p.candidates rows items) := by
  induction items with
  | nil => exact ok _
  | cons e items ih =>
    rw [ReadPlan.candidates]
    refine bind (invalidAttribute _) fun d => ?_
    rw [hp.key]
    refine bind (ok _) fun meets => ?_
    cases meets with
    | false => exact ih
    | true => exact bind (position _ _) fun position => bind ih fun cs => ok _

/-- A read whose filter reads no keys is not refused over it, wherever it begins and whatever its limit is. -/
theorem read (hp : p.Decides key filter)
    (hpaths : ∀ f, p.filter = some f → ∀ field ∈ f.paths, rows.isKey field = false) : NotRefused (p.read rows) := by
  rw [ReadPlan.read_eq (.inr hpaths)]
  refine bind (candidates hp _) fun found => bind ?_ fun behind => ?_
  · rw [ReadPlan.afterStart]
    cases p.start with
    | none => exact ok _
    | some item => exact bind (position _ _) fun start => ok _
  · simp only [ReadPlan.collect_eq hp]
    exact ok _

/-- A query whose filter reads no keys of the table is not refused over it. -/
theorem query {m : Memory} {t : Table} (hm : m.Sound t) (hp : p.Decides key filter)
    (hpaths : ∀ f, p.filter = some f → ∀ field ∈ f.paths, t.isKey field = false) :
    NotRefused (m.requireTable t.name >>= p.read) := by
  rw [Memory.requireTable]
  cases hrows : m.table? t.name with
  | none =>
    intro field he
    unfold keyInFilter Dynamo.invalid at he
    cases he
  | some rows => exact read hp ((hm rows hrows).isKey_eq ▸ hpaths)

end NotRefused

/-- Reads that decide the same of every document return the same items. -/
theorem sameRecords_read {p q : ReadPlan} {t : Table} {rows : Rows} {key filter whole : Document → Bool}
    (hp : p.Decides key filter) (hq : q.Decides (fun _ => true) whole) (hr : rows.Sound t)
    (hpaths : ∀ f, p.filter = some f → ∀ field ∈ f.paths, t.isKey field = false) (hscan : q.keyCondition = none)
    (hps : p.start = none) (hqs : q.start = none) (hpl : ReadPlan.Ample p.limit rows.items.length)
    (hql : ReadPlan.Ample q.limit rows.items.length) (hprojection : p.projection = q.projection)
    (h : ∀ d, whole d = (key d && filter d)) :
    SameRecords (p.read rows) (q.read rows) := by
  have hread := ReadPlan.read_spec hp hr (.inr hpaths) hps hpl
  have hread' := ReadPlan.read_spec hq hr (.inl hscan) hqs hql
  cases hd : documents rows.items with
  | error fault =>
    rw [hd] at hread hread'
    simp only at hread hread'
    rw [hread, hread']
    exact ⟨rfl, fault, rfl⟩
  | ok ds =>
    rw [hd] at hread hread'
    obtain ⟨ps, hread, hps⟩ := hread
    obtain ⟨qs, hread', hqs⟩ := hread'
    simp only [Bool.true_and, h, ← hprojection] at hqs
    rw [hread, hread']
    exact ⟨ps, qs, rfl, rfl, hps.trans hqs.symm⟩

/-- Whatever a plan makes of a filter, the request has texts that the store accepts, as has the scan with the whole filter. The
key condition is one equality of the partition key and at most one test of the sort key. The filter that remains reads no keys.
A document meets the key condition and passes what remains exactly if it passes the whole filter. So the store does not refuse
the query over what remains, wherever it begins; and from the beginning, the query and the scan return the same items of every
table. -/
theorem query_selects_as_scan (t : Table) (w : Where) (hv : w.Valid) (hw : WithinLimit w) (keys : List (String × KeyCondition))
    (remaining : Where) (hp : keyPlan? t w = some (keys, remaining)) (select : Select) :
    ∃ texts tables scanTexts scanTables values scanValues key filter whole,
      readTexts? select keys remaining = .ok (texts, tables) ∧
      readTexts? select [] w = .ok (scanTexts, scanTables) ∧
      Memory.plainValues tables.values = .ok values ∧
      Memory.plainValues scanTables.values = .ok scanValues ∧
      parseFormula texts.keyCondition tables.names = .ok key ∧
      Memory.parseOptional (parseFormula · tables.names) texts.filter = .ok filter ∧
      Memory.parseOptional (parseFormula · scanTables.names) scanTexts.filter = .ok whole ∧
      KeyFormula t key ∧
      (∀ f, filter = some f → ∀ field ∈ f.paths, t.isKey field = false) ∧
      (∀ d, ∃ meets passes, Scope.eval ⟨d, values⟩ key = .ok meets ∧ Scope.passes ⟨d, values⟩ filter = .ok passes ∧
        Scope.passes ⟨d, scanValues⟩ whole = .ok (meets && passes)) ∧
      ∀ m : Memory, m.Sound t → ∀ (forward : Option Bool) (limit : Option Nat),
        (∀ start, NotRefused (m.query (queryOf t texts tables forward limit start))) ∧
        ∀ rows, m.table? t.name = some rows → ReadPlan.Ample limit rows.items.length →
          SameRecords (m.query (queryOf t texts tables forward limit none)) (m.scan (scanOf t scanTexts scanTables limit)) := by
  obtain ⟨texts, tables, hread, hs⟩ := readTexts?_stands select (keys_of_keyPlan? hp hv) (valid_of_keyPlan? hp hv)
    (withinLimit_of_keyPlan? hp hw)
  have hplain : Plain [] := nofun
  obtain ⟨scanTexts, scanTables, hscan, hss⟩ := readTexts?_stands select hplain hv hw
  obtain ⟨key, hkey, hform⟩ := keyFormula_of_keyPlan? hp
  obtain ⟨key', hkey', hparsed⟩ := hs.keyCondition (by rintro rfl; cases hkey)
  obtain rfl : key = key' := Option.some.inj (hkey.symm.trans hkey')
  have hmeets : ∀ d, Scope.passes ⟨d, tables.decoded⟩ (some key) = _ := fun d => hkey ▸ hs.passes_key d
  have hwhole : ∀ d, decide (w.Passes .casings d) =
      (decide (∀ e ∈ keys, e.2.Passes (Fields.get? d e.1)) && decide (remaining.Passes .casings d)) := by
    intro d
    rw [← Bool.decide_and]
    exact decide_eq_decide.2 (passes_of_keyPlan? hp d)
  refine ⟨texts, tables, scanTexts, scanTables, _, _, key, _, _, hread, hscan, hs.values, hss.values, hparsed, hs.filter,
    hss.filter, hform, fun f hf => not_isKey_of_mem_paths hp hf, fun d => ⟨_, _, hmeets d, hs.passes_filter d, ?_⟩, ?_⟩
  · rw [← hwhole]
    exact hss.passes_filter d
  · intro m hm forward limit
    refine ⟨fun start => ?_, fun rows hrows hlimit => ?_⟩
    · rw [query_eq hs hparsed]
      exact .query hm (decides_queryPlan hs hkey forward limit start) fun f hf => not_isKey_of_mem_paths hp hf
    · rw [query_eq hs hparsed, scan_eq hss, Memory.requireTable, hrows]
      exact sameRecords_read (decides_queryPlan hs hkey forward limit none) (decides_scanPlan hss limit) (hm rows hrows)
        (fun f hf => not_isKey_of_mem_paths hp hf) rfl rfl rfl hlimit hlimit rfl hwhole

/-- The same for a table with a sort key, and a filter with a range on it. -/
theorem query_selects_as_scan_of_range :
    let t : Table := ⟨"orders", "customer", some "day"⟩
    let w : Where := Keyed.ofList
      [("day", ⟨[.compare .lte (.integer 31), .compare .gte (.integer 1)], .insensitive⟩),
       ("note", ⟨[.text .contains "late", .member true [.text "paid"]], .insensitive⟩),
       ("customer", ⟨[.compare .equals (.text "c-1")], .sensitive⟩)]
    ∃ keys remaining, keyPlan? t w = some (keys, remaining) ∧ ∀ select,
    ∃ texts tables scanTexts scanTables values scanValues key filter whole,
      readTexts? select keys remaining = .ok (texts, tables) ∧
      readTexts? select [] w = .ok (scanTexts, scanTables) ∧
      Memory.plainValues tables.values = .ok values ∧
      Memory.plainValues scanTables.values = .ok scanValues ∧
      parseFormula texts.keyCondition tables.names = .ok key ∧
      Memory.parseOptional (parseFormula · tables.names) texts.filter = .ok filter ∧
      Memory.parseOptional (parseFormula · scanTables.names) scanTexts.filter = .ok whole ∧
      KeyFormula t key ∧
      (∀ f, filter = some f → ∀ field ∈ f.paths, t.isKey field = false) ∧
      (∀ d, ∃ meets passes, Scope.eval ⟨d, values⟩ key = .ok meets ∧ Scope.passes ⟨d, values⟩ filter = .ok passes ∧
        Scope.passes ⟨d, scanValues⟩ whole = .ok (meets && passes)) ∧
      ∀ m : Memory, m.Sound t → ∀ (forward : Option Bool) (limit : Option Nat),
        (∀ start, NotRefused (m.query (queryOf t texts tables forward limit start))) ∧
        ∀ rows, m.table? t.name = some rows → ReadPlan.Ample limit rows.items.length →
          SameRecords (m.query (queryOf t texts tables forward limit none)) (m.scan (scanOf t scanTexts scanTables limit)) := by
  intro t w
  exact ⟨_, _, rfl, query_selects_as_scan t w rfl (by decide) _ _ rfl⟩

end DocQuery.Dynamo
