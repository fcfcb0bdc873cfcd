import DocQuery.Proofs.Cosmos.Contract
import DocQuery.Proofs.Expression.Bounds
import DocQuery.Proofs.Repository.Selection

/-!
# Selections in a container

What is selected goes into the text of a query, before its condition and its sort keys, and these are read alike whatever stands
there. So a query looks at the same documents in the same order whatever it projects them to, and what it projects them to is enough
for the selection.
-/

namespace DocQuery.Cosmos

open Expression Operation

/-! ## Queries -/

/-- What follows the container in the text of a query. -/
def clausesText (text : Option String) (order : Order) : List Char :=
  (text.elim [] fun text => " WHERE ".toList ++ text.toList) ++
    (orderClause? order).elim [] fun text => " ORDER BY ".toList ++ text.toList

/-- A query is read as its projection and what follows its container, whatever that is. -/
theorem parseQuery_select (text : Option String) (order : Order) : ∃ r : Except Fault (Option Formula × List (String × Bool)),
    ∀ select, parseQuery (queryText select text order) =
      r.map fun p => ⟨projected? select, p.1, p.2⟩ := by
  have hclauses : Apart (clausesText text order) :=
    (apart_elim " WHERE " (apart_cons rfl) (by decide) _).append_apart (apart_elim " ORDER BY " (apart_cons rfl) (by decide) _)
  have htokens (select : Select) : ∃ ps, ProjectionWritten ps (projected? select) ∧
      tokenize (queryText select text order).toList =
        (tokenize (clausesText text order)).map fun ts => .word "SELECT" :: (ps ++ .word "FROM" :: .word "c" :: ts) := by
    obtain ⟨ps, hps, hp⟩ := fieldSelection_spells select
    have hselect : Spells ("SELECT".toList ++ [' ']) [.word "SELECT"] :=
      (SpellsApart.ofWord (by decide)).append_spells Spells.space rfl
    have hfrom : SpellsApart (' ' :: ("FROM".toList ++ [' ']) ++ "c".toList) ([.word "FROM"] ++ [.word "c"]) :=
      (Spells.keyword (by decide)).append_apart (SpellsApart.ofWord (by decide))
    have hall := hselect.append_apart (hps.append hfrom (apart_cons rfl)) _ hclauses
    refine ⟨ps, hp, ?_⟩
    rw [queryText_toList]
    simpa [clausesText] using hall
  cases hts : tokenize (clausesText text order) with
  | error fault =>
    refine ⟨.error (.token fault), fun select => ?_⟩
    obtain ⟨ps, -, hs⟩ := htokens select
    rw [hts] at hs
    rw [parseQuery, tokens, hs]
    rfl
  | ok ts =>
    refine ⟨readClauses (enough ts) ts, fun select => ?_⟩
    obtain ⟨ps, hp, hs⟩ := htokens select
    rw [hts] at hs
    exact parseQuery_eq_clauses hs hp

/-- The offset that a continuation stands for, if there is one. -/
def offsetOf (continuation : Option String) : Except StoreError Nat :=
  match continuation with
  | none => .ok 0
  | some token =>
    match offset? token with
    | some n => .ok n
    | none => .error (badRequest ("invalid continuation token " ++ token))

/-- The documents that a condition and sort keys come by. -/
def Memory.found (s : Memory) (c : Container) (parameters : List (String × Json)) (condition : Option Formula)
    (keys : List (String × Bool)) : Except StoreError (List Document) := do
  let shelf ← s.requireShelf c
  let found ← (matching (Fields.ofList parameters) condition shelf.documents).mapError fun fault => invalid fault.message
  .ok (if keys.isEmpty then found else sortBy keys found)

/-- The documents that a query comes by, and how many of them lie before its page. -/
def Memory.results (s : Memory) (c : Container) (parameters : List (String × Json)) (condition : Option Formula)
    (keys : List (String × Bool)) (continuation : Option String) : Except StoreError (Nat × List Document) := do
  let offset ← offsetOf continuation
  let found ← s.found c parameters condition keys
  .ok (offset, found)

/-- A query that can be read is answered with a page of the documents that it comes by. -/
theorem query_eq_results (s : Memory) (c : Container) {spec : Spec} {q : Query} (h : parseQuery spec.query = .ok q) (max : Option Nat)
    (continuation : Option String) : s.query c spec max continuation =
      (s.results c spec.parameters q.condition q.order continuation).map fun (offset, results) =>
        pageOf q.projection offset max results := by
  have hanswer (offset : Nat) : (do
      let shelf ← s.requireShelf c
      let found ← (matching (Fields.ofList spec.parameters) q.condition shelf.documents).mapError fun fault => invalid fault.message
      .ok (pageOf q.projection offset max (if q.order.isEmpty then found else sortBy q.order found))) =
      (do .ok (offset, ← s.found c spec.parameters q.condition q.order) : Except StoreError (Nat × List Document)).map
        fun p => pageOf q.projection p.1 max p.2 := by
    rw [Memory.found]
    cases s.requireShelf c with
    | error e => rfl
    | ok shelf =>
      simp only [bind, Except.bind]
      cases (matching (Fields.ofList spec.parameters) q.condition shelf.documents).mapError fun fault => invalid fault.message <;> rfl
  rw [Memory.query, h, Memory.results]
  cases continuation with
  | none => exact hanswer 0
  | some token =>
    simp only [offsetOf, Except.mapError]
    cases offset? token with
    | none => rfl
    | some offset => exact hanswer offset

/-- A query looks at the same documents whatever it selects of them. -/
theorem query_select (s : Memory) (c : Container) (b : Bindings Unit) (condition : Option Fragment) (order : Order) (max : Option Nat)
    (continuation : Option String) : ∃ r : Except StoreError (Nat × List Document),
      ∀ select, s.query c (finish b select condition order).spec max continuation =
        r.map fun (offset, results) => pageOf (projected? select) offset max results := by
  obtain ⟨parsed, hparsed⟩ := parseQuery_select (condition.map (Bindings.render dialect)) order
  cases parsed with
  | error fault =>
    refine ⟨.error (invalid fault.message), fun select => ?_⟩
    have hspec : parseQuery (finish b select condition order).spec.query = .error fault := hparsed select
    rw [Memory.query, hspec]
    rfl
  | ok p =>
    obtain ⟨formula, keys⟩ := p
    refine ⟨s.results c (finish b Select.all condition order).spec.parameters formula keys continuation, fun select => ?_⟩
    have hspec : parseQuery (finish b select condition order).spec.query = .ok ⟨projected? select, formula, keys⟩ :=
      hparsed select
    exact query_eq_results s c hspec max continuation

/-! ## Answers -/

/-- The documents of a page of a result from an offset on. -/
def window (offset : Nat) (max : Option Nat) (results : List Document) : List Document :=
  (results.take (match max with
    | some n => min (offset + n) results.length
    | none => results.length)).drop offset

/-- The documents of a page are read back, projected. -/
theorem normalizeItems_pageOf (projection : Option (List String)) (offset : Nat) (max : Option Nat) (results : List Document) :
    normalizeItems (pageOf projection offset max results).resources =
      .ok ((window offset max results).map (projectFields projection)) :=
  normalizeItems_objects _ _

section

variable (c : Container) (spec : Spec) (max : Option Nat) (continuation : Option String) (projection : Option (List String))
  (offset : Nat) (results : List Document)

/-- A page of projected documents as a search reads it. -/
theorem outcome_readPage :
    Operation.outcome (I := service) readPage (.query c spec max continuation) (.ok (pageOf projection offset max results)) =
      .ok ⟨((window offset max results).map (projectFields projection)).map strip, (pageOf none offset max results).continuation⟩ := by
  show (normalizeItems (pageOf projection offset max results).resources).map _ = _
  rw [normalizeItems_pageOf]
  rfl

/-- A page of projected documents as a lookup reads it. -/
theorem outcome_readFirst :
    Operation.outcome (I := service) readFirst (.query c spec max continuation) (.ok (pageOf projection offset max results)) =
      .ok (((window offset max results).head?.map (projectFields projection)).map strip) := by
  show (normalizeItems (pageOf projection offset max results).resources).map _ = _
  rw [normalizeItems_pageOf, ← List.head?_map]
  rfl

end

/-- Queries that differ in what they select only are answered alike: with a failure of the store, or with pages of one result. -/
theorem answer_select (s : Memory) (c : Container) (b : Bindings Unit) (condition : Option Fragment) (order : Order)
    (max : Option Nat) (continuation : Option String) : ∃ r : Except StoreError (Nat × List Document),
      ∀ select, (Memory.answer (.query c (finish b select condition order).spec max continuation) s).1 =
        r.map fun (offset, results) => pageOf (projected? select) offset max results := by
  simp only [Memory.answer]
  cases s.failure with
  | some e => exact ⟨.error e, fun _ => rfl⟩
  | none => exact query_select s c b condition order max continuation

section

variable (config : EntityConfig) (options : Options) (clock : Nat → Instant) (ids : Nat → String) (latency : Nat) (c : Container)
  (w : World service Memory)

/-- Searches that differ in what they select only come to one page. -/
theorem findMany_uniform (args : FindArgs) : Uniform (fun _ => True)
    (fun select => (Operation.run ⟨Memory.answer, clock, ids, latency⟩ config options w
      ((Repository.ofDocuments config (adapter c)).findMany { args with select })).1)
    fun select (page : RecordsPage Document) => .ok (page.project select) := by
  refine Repository.findMany_select (findMany_eq_send c) fun take continuation _ => ?_
  simp only [planRead, compileFindMany]
  rcases (Compile.filter dialect args.filter).run.run ⟨(), []⟩ with ⟨_ | condition, b⟩
  · exact .inl ⟨_, fun _ => rfl⟩
  refine .inr ⟨fun select => .query c (finish b select condition args.order).spec (count32? take) continuation, fun _ => rfl, ?_⟩
  obtain ⟨r, hr⟩ := answer_select w.store c b condition args.order (count32? take) continuation
  simp only [hr]
  cases r with
  | error e => exact .failed _ fun _ => rfl
  | ok p =>
    obtain ⟨offset, results⟩ := p
    refine ⟨.ok ⟨(window offset (count32? take) results).map strip,
      (pageOf none offset (count32? take) results).continuation.map Cursor.encode⟩, fun _ _ => trivial, fun select => ?_⟩
    refine (congrArg (Except.bind · _) (outcome_readPage _ _ _ _ _ _ _)).trans ?_
    simp only [Except.bind, Repository.pageFrom_ofDocuments, RecordsPage.project, List.map_map, Function.comp_def, project_strip]

/-- Lookups that differ in what they select only come to one record. -/
theorem findOne_uniform (id : String) : Uniform (fun _ => True)
    (fun select => (Operation.run ⟨Memory.answer, clock, ids, latency⟩ config options w
      ((Repository.ofDocuments config (adapter c)).findOne id select)).1)
    fun select d => .ok (select.project d) := by
  refine Repository.findOne_select (findById_eq_send c id) ?_
  simp only [planFind, compileFindById]
  rcases (Compile.condition dialect "id" .sensitive (.compare .equals (.text id))).run.run ⟨(), []⟩ with ⟨_ | condition, b⟩
  · exact .inl ⟨_, fun _ => rfl⟩
  refine .inr ⟨fun select => .query c (finish b select (some condition) Keyed.empty).spec (some 1) none, fun _ => rfl, ?_⟩
  obtain ⟨r, hr⟩ := answer_select w.store c b (some condition) Keyed.empty (some 1) none
  simp only [hr]
  cases r with
  | error e => exact .failed _ fun _ => rfl
  | ok p =>
    obtain ⟨offset, results⟩ := p
    cases hfound : (window offset (some 1) results).head? with
    | none =>
      refine .failed (.notFound id) fun select => (congrArg (Except.bind · _) (outcome_readFirst _ _ _ _ _ _ _)).trans ?_
      rw [hfound]
      rfl
    | some d =>
      refine ⟨.ok (strip d), fun _ _ => trivial, fun select =>
        (congrArg (Except.bind · _) (outcome_readFirst _ _ _ _ _ _ _)).trans ?_⟩
      rw [hfound]
      exact congrArg Except.ok (project_strip select d)

end

end DocQuery.Cosmos
