import DocQuery.Proofs.Dynamo.Selection
import DocQuery.Proofs.Filter.Reordering
import Mathlib.Data.List.Permutation

/-!
# Searches of a table in another order

A filter and the same filter in another order have the same key conditions (`keyPlan?_reordered`), and what remains of the one is
what remains of the other in another order. So a search with either is refused alike, fails over a list that is too long, or reads
the table by plans that find the same items (`findMany_reordered`).
-/

namespace DocQuery

/-- What remains of filters without a field is in another order, too. -/
theorem Where.Reordered.drop {w v : Where} (h : w.Reordered v) (name : String) :
    Where.Reordered (w.drop name) (v.drop name) := by
  intro other
  rw [get?_drop, get?_drop]
  split
  · exact .none
  · exact h other

namespace Dynamo

variable {t : Table} {w v : Where} {keys : List (String × KeyCondition)} {remaining : Where}

/-! ## Plans -/

/-- A field that a filter has, and what its conditions are in another order. -/
theorem get?_of_reordered (h : w.Reordered v) {name : String} {f : FieldFilter} (hf : w.get? name = some f) :
    ∃ g, v.get? name = some g ∧ f.Reordered g := by
  have hname := h name
  rw [hf] at hname
  generalize v.get? name = found at hname
  cases hname with
  | some hg => exact ⟨_, rfl, hg⟩

/-- A field that a filter lacks. -/
theorem get?_none_of_reordered (h : w.Reordered v) {name : String} (hf : w.get? name = none) : v.get? name = none := by
  have hname := h name
  rw [hf] at hname
  generalize v.get? name = found at hname
  cases hname with
  | none => rfl

/-- The filter of a sort key fits the same key condition in another order. -/
theorem sortKeyCondition?_of_reordered {f g : FieldFilter} (h : f.Reordered g) {c : KeyCondition}
    (hc : sortKeyCondition? f = some c) : sortKeyCondition? g = some c := by
  have hperm := h.conditions
  obtain ⟨single, hf, hcompatible, rfl⟩ | ⟨low, high, hf, rfl⟩ := sortKeyCondition?_cases hc
  · rw [hf] at hperm
    rw [sortKeyCondition?, ← List.singleton_perm.1 hperm]
    simp only [← h.mode, hcompatible, if_true]
  · have hg : g.conditions = [.compare .gte low, .compare .lte high] ∨ g.conditions = [.compare .lte high, .compare .gte low] := by
      rcases hf with hf | hf
      · exact List.pair_perm.1 (hf ▸ hperm)
      · exact (List.pair_perm.1 (hf ▸ hperm)).symm
    rw [sortKeyCondition?]
    rcases hg with hg | hg <;> rw [hg]

/-- A filter that has a plan has one with the same key conditions in another order. -/
theorem keyPlan?_of_reordered (h : w.Reordered v) (hp : keyPlan? t w = some (keys, remaining)) :
    ∃ rest, keyPlan? t v = some (keys, rest) ∧ remaining.Reordered rest := by
  obtain ⟨pinned, u, hw, hpinned, hcases⟩ := keyPlan?_cases hp
  obtain ⟨pinned', hv, hreordered⟩ := get?_of_reordered h hw
  have hpinned' : pinned'.conditions = [.compare .equals u] :=
    (List.singleton_perm.1 (hpinned ▸ hreordered.conditions)).symm
  rw [keyPlan?]
  simp only [hv, hpinned', Option.bind_eq_bind, Option.bind_some]
  obtain ⟨hsort, rfl, rfl⟩ | ⟨sortKey, f, c, hs, hf, hc, rfl, rfl⟩ := hcases
  · refine ⟨v.drop t.partitionKey, ?_, h.drop _⟩
    cases hs : t.sortKey with
    | none => rfl
    | some sortKey => simp only [get?_none_of_reordered h (hsort sortKey hs)]
  · obtain ⟨g, hg, hfg⟩ := get?_of_reordered h hf
    refine ⟨(v.drop t.partitionKey).drop sortKey, ?_, (h.drop _).drop _⟩
    simp only [hs, hg, sortKeyCondition?_of_reordered hfg hc, Option.bind_some]

/-- A filter has the same key conditions in another order, and what remains is in another order, if it has a plan at all. -/
theorem keyPlan?_reordered (t : Table) (h : w.Reordered v) :
    Option.Rel (fun p q => p.1 = q.1 ∧ p.2.Reordered q.2) (keyPlan? t w) (keyPlan? t v) := by
  cases hp : keyPlan? t w with
  | some plan =>
    obtain ⟨rest, hq, hrest⟩ := keyPlan?_of_reordered h hp
    rw [hq]
    exact .some ⟨rfl, hrest⟩
  | none =>
    cases hq : keyPlan? t v with
    | none => exact .none
    | some plan =>
      obtain ⟨rest, hp', -⟩ := keyPlan?_of_reordered h.symm hq
      rw [hp'] at hp
      cases hp

/-- A read divides a filter in another order into the same key conditions, and what remains is in another order. -/
theorem getD_keyPlan?_reordered (h : w.Reordered v) (hplan : (keyPlan? t w).getD ([], w) = (keys, remaining)) :
    ∃ rest, (keyPlan? t v).getD ([], v) = (keys, rest) ∧ remaining.Reordered rest := by
  have hplans := keyPlan?_reordered t h
  generalize keyPlan? t w = p, keyPlan? t v = q at hplan hplans ⊢
  cases hplans with
  | none =>
    obtain ⟨rfl, rfl⟩ : [] = keys ∧ w = remaining := Prod.mk.inj hplan
    exact ⟨v, rfl, h⟩
  | @some p q hpq =>
    obtain rfl : p = (keys, remaining) := hplan
    exact ⟨q.2, Prod.ext hpq.1.symm rfl, hpq.2⟩

/-! ## Texts of key conditions -/

/-- The text of the key conditions is compiled before the filter, so it does not depend on it. -/
theorem keyCondition_of_keys {select : Select} {rest : Where} {texts texts' : Texts} {tables tables' : Tables}
    (h : readTexts? select keys remaining = .ok (texts, tables)) (h' : readTexts? select keys rest = .ok (texts', tables')) :
    texts.keyCondition = texts'.keyCondition := by
  obtain ⟨b, hcompiled, -⟩ := compiled_of_readTexts? h
  obtain ⟨b', hcompiled', -⟩ := compiled_of_readTexts? h'
  obtain ⟨projected, b₁, hprojected, hcompiled⟩ := of_yields_bind hcompiled
  obtain ⟨projected', b₁', hprojected', hcompiled'⟩ := of_yields_bind hcompiled'
  obtain ⟨rfl, rfl⟩ := yields_unique hprojected hprojected'
  obtain ⟨fragments, b₂, hfragments, hcompiled⟩ := of_yields_bind hcompiled
  obtain ⟨fragments', b₂', hfragments', hcompiled'⟩ := of_yields_bind hcompiled'
  obtain ⟨rfl, rfl⟩ := yields_unique hfragments hfragments'
  obtain ⟨filter, b₃, -, hlast⟩ := of_yields_bind hcompiled
  obtain ⟨filter', b₃', -, hlast'⟩ := of_yields_bind hcompiled'
  obtain ⟨rfl, -⟩ := yields_unique (.pure _ b₃) hlast
  obtain ⟨rfl, -⟩ := yields_unique (.pure _ b₃') hlast'
  rfl

/-! ## Faults -/

/-- A list of a filter that is longer than a membership test takes. -/
def TooLong (e : Error) : Prop := ∃ field n, maxInList < n ∧ e = .malformedFilter field (.listTooLong maxInList n)

/-- A valid filter can fail to compile over a list that is too long only. -/
theorem tooLong_of_fault? (hv : w.Valid) {e : Error} (h : w.fault? (some maxInList) = some e) : TooLong e := by
  obtain ⟨entry, hentry, h⟩ := List.exists_of_findSome?_eq_some h
  obtain ⟨c, hc, h⟩ := List.exists_of_findSome?_eq_some h
  cases c with
  | compare op u => cases h
  | text test part => cases h
  | member negated vs =>
    have hne : vs.isEmpty = false := by
      simpa using (hv.condition hentry hc).1 negated vs rfl
    simp only [Condition.fault?, hne, Bool.false_eq_true, if_false, Option.bind_some] at h
    split at h
    · next hlong => exact ⟨_, _, hlong, (Option.some.inj h).symm⟩
    · cases h

/-- A filter without a fault has none in another order. -/
theorem fault?_of_reordered (h : w.Reordered v) (hw : w.fault? (some maxInList) = none) : v.fault? (some maxInList) = none := by
  have hconditions : ∀ e ∈ w.entries, ∀ c ∈ e.2.conditions, c.fault? (some maxInList) e.1 = none := fun e he =>
    List.findSome?_eq_none_iff.1 (List.findSome?_eq_none_iff.1 hw e he)
  have hreordered := h.forall_conditions (P := fun field _ c => c.fault? (some maxInList) field = none) hconditions
  exact List.findSome?_eq_none_iff.2 fun e he => List.findSome?_eq_none_iff.2 (hreordered e he)

/-! ## Reads -/

/-- A plan that reads a table for the documents that meet key conditions and pass a filter, and is not refused. -/
structure ReadPlan.Finds (p : ReadPlan) (t : Table) (keys : List (String × KeyCondition)) (w : Where) : Prop where
  decides : p.Decides (fun d => decide (∀ e ∈ keys, e.2.Passes (Fields.get? d e.1))) (fun d => decide (w.Passes .casings d))
  accepted : p.keyCondition = none ∨ ∀ f, p.filter = some f → ∀ field ∈ f.paths, t.isKey field = false

/-- Plans with one course that find the same documents read the same of a table. -/
theorem ReadPlan.Finds.read_eq {p : ReadPlan} {key filter : Option Expression.Formula} {values : Fields Json} {rows : Rows}
    (hp : p.Finds t keys w) (hq : ({ p with keyCondition := key, filter, values } : ReadPlan).Finds t keys v)
    (h : w.Reordered v) (hrows : rows.Sound t) :
    ({ p with keyCondition := key, filter, values } : ReadPlan).read rows = p.read rows := by
  have hcandidates (items : List (String × Item)) :
      ({ p with keyCondition := key, filter, values } : ReadPlan).candidates rows items = p.candidates rows items := by
    induction items with
    | nil => rfl
    | cons e items ih =>
      have hkey := hq.decides.key
      simp only at hkey
      simp only [candidates, hkey, hp.decides.key, ih]
  have hpasses (d : Document) : decide (v.Passes .casings d) = decide (w.Passes .casings d) :=
    decide_eq_decide.2 (h.passes_iff .casings d).symm
  rw [ReadPlan.read_eq (hrows.isKey_eq ▸ hq.accepted), ReadPlan.read_eq (hrows.isKey_eq ▸ hp.accepted), hcandidates]
  simp only [collect_eq hp.decides, collect_eq hq.decides, hpasses]
  rfl

/-- The course of a read, without what it reads for. -/
def ReadPlan.course (select : Select) (isQuery : Bool) (forward : Option Bool) (take : Nat) (start : Option Item) : ReadPlan where
  keyCondition := none
  filter := none
  projection := select.selected?
  values := []
  bySortKey := isQuery
  forward := forward.getD true
  limit := count32? take
  start := start

/-- A request with a valid filter that has no fault is sent as a call that reads the table for it, in the course that the request
asks for. -/
theorem planRead_finds (t : Table) (hv : w.Valid) (hplan : (keyPlan? t w).getD ([], w) = (keys, remaining)) (select : Select)
    {order : Order} (take : Nat) {continuation : Option String} {forward : Option Bool} {start : Option Item}
    (hforward : forward? t (!keys.isEmpty) order = .ok forward) (hstart : startOf continuation = .ok start)
    (hfault : remaining.fault? (some maxInList) = none) :
    ∃ call key filter values, planRead t ⟨w, select, order, take, continuation⟩ = .ok call ∧
      ({ ReadPlan.course select (!keys.isEmpty) forward take start with keyCondition := key, filter, values } : ReadPlan).Finds t
        keys remaining ∧
      ∀ s : Memory, s.failure = none → (Memory.answer call s).1.map (pageOf call) = s.requireTable t.name >>=
        ({ ReadPlan.course select (!keys.isEmpty) forward take start with keyCondition := key, filter, values } : ReadPlan).read := by
  have heq := planRead_eq t ⟨w, select, order, take, continuation⟩ hv hplan
  simp only [hforward, hstart, Except.bind] at heq
  cases hp : keyPlan? t w with
  | none =>
    rw [hp] at hplan
    obtain ⟨rfl, rfl⟩ : [] = keys ∧ w = remaining := Prod.mk.inj hplan
    obtain rfl := forward_of_scan hforward
    obtain ⟨texts, tables, hread, hs⟩ := readTexts?_stands select (List.forall_mem_nil _) hv (withinLimit_of_fault? hfault)
    have hdecides := decides_scanPlan hs (count32? take)
    rw [hread] at heq
    refine ⟨_, _, _, _, heq, ⟨⟨hdecides.key, hdecides.filter⟩, .inl rfl⟩, fun s hstore => ?_⟩
    exact (answer_scan hstore _).trans (scan_from_eq hs (count32? take) start)
  | some plan =>
    rw [hp] at hplan
    obtain rfl : plan = (keys, remaining) := hplan
    obtain ⟨texts, tables, hread, hs⟩ := readTexts?_stands select (keys_of_keyPlan? hp hv) (valid_of_keyPlan? hp hv)
      (withinLimit_of_fault? hfault)
    have hempty := isEmpty_of_keyPlan? hp
    obtain ⟨key, hkey, hparsed⟩ := hs.keyCondition (by rintro rfl; cases hempty)
    have hdecides := decides_queryPlan hs hkey forward (count32? take) start
    simp only [hread, hempty] at heq ⊢
    refine ⟨_, _, _, _, heq, ⟨⟨hdecides.key, hdecides.filter⟩, .inr fun f hf => not_isKey_of_mem_paths hp hf⟩, fun s hstore => ?_⟩
    exact (answer_query hstore _).trans (query_eq hs hparsed forward (count32? take) start)

/-- Projected items are read as the projected documents, in whatever order they are returned. -/
theorem readItems_perm (select : Select) {es : List (Item × Document)} (h : ∀ e ∈ es, toDocument e.1 = .ok e.2)
    {selected : Item × Document → Bool} {items : List Json}
    (hperm : items.Perm ((es.filter selected).map fun e => .obj (projectItem select.selected? e.1))) :
    ∃ records, readItems (some (.arr items)) = .ok records ∧
      records.Perm ((es.filter selected).map fun e => select.project e.2) := by
  have hmade : List.Forall₂ (fun j e => j = Json.obj (projectItem select.selected? e.1))
      ((es.filter selected).map fun e => .obj (projectItem select.selected? e.1)) (es.filter selected) :=
    List.forall₂_map_left_iff.2 (List.forall₂_same.2 fun _ _ => rfl)
  obtain ⟨found, hitems, hfound⟩ := List.perm_comp_forall₂ hperm hmade
  have hdocument : ∀ e ∈ found, toDocument e.1 = .ok e.2 := fun e he => h e (List.mem_of_mem_filter (hfound.mem_iff.1 he))
  have heq : items = found.map fun e => .obj (projectItem select.selected? e.1) := by
    rw [← List.forall₂_map_right_iff, List.forall₂_eq_eq_eq] at hitems
    exact hitems
  exact ⟨_, heq ▸ readItems_project select found hdocument, hfound.map _⟩

/-! ## Searches -/

/-- Results that are the same, or failures over lists that are too long. -/
def SameOrTooLong {α : Type} (r s : Except Error α) : Prop :=
  r = s ∨ ∃ e f, TooLong e ∧ TooLong f ∧ r = .error e ∧ s = .error f

/-- Requests whose filters differ in their order only are refused alike, fail over lists that are too long, or are sent as calls
that a store answers alike. -/
theorem planRead_reordered (t : Table) (h : w.Reordered v) (hv : w.Valid) (select : Select) (order : Order) (take : Nat)
    (continuation : Option String) :
    (∃ e, planRead t ⟨w, select, order, take, continuation⟩ = .error e ∧
        planRead t ⟨v, select, order, take, continuation⟩ = .error e) ∨
      (∃ e f, TooLong e ∧ TooLong f ∧ planRead t ⟨w, select, order, take, continuation⟩ = .error e ∧
        planRead t ⟨v, select, order, take, continuation⟩ = .error f) ∨
      ∃ c d, planRead t ⟨w, select, order, take, continuation⟩ = .ok c ∧
        planRead t ⟨v, select, order, take, continuation⟩ = .ok d ∧
        ∀ s : Memory, s.Sound t → (Memory.answer c s).1.map (pageOf c) = (Memory.answer d s).1.map (pageOf d) := by
  obtain ⟨keys, remaining, hplan, hplain, hremaining, -⟩ := getD_keyPlan? t hv
  obtain ⟨rest, hplan', hrest⟩ := getD_keyPlan?_reordered h hplan
  have heq := planRead_eq t ⟨w, select, order, take, continuation⟩ hv hplan
  have heq' := planRead_eq t ⟨v, select, order, take, continuation⟩ (h.valid hv) hplan'
  cases hforward : forward? t (!keys.isEmpty) order with
  | error e =>
    simp only [hforward, Except.bind] at heq heq'
    exact .inl ⟨e, heq, heq'⟩
  | ok forward =>
    cases hstart : startOf continuation with
    | error e =>
      simp only [hforward, hstart, Except.bind] at heq heq'
      exact .inl ⟨e, heq, heq'⟩
    | ok start =>
      cases hfault : remaining.fault? (some maxInList) with
      | some e =>
        obtain ⟨f, hfault'⟩ : ∃ f, rest.fault? (some maxInList) = some f := by
          refine Option.ne_none_iff_exists'.1 fun hnone => ?_
          rw [fault?_of_reordered hrest.symm hnone] at hfault
          cases hfault
        have hrest' := hrest.valid hremaining
        simp only [hforward, hstart, Except.bind, readTexts?_of_fault? select hplain hremaining hfault] at heq
        simp only [hforward, hstart, Except.bind, readTexts?_of_fault? select hplain hrest' hfault'] at heq'
        exact .inr (.inl ⟨e, f, tooLong_of_fault? hremaining hfault, tooLong_of_fault? hrest' hfault', heq, heq'⟩)
      | none =>
        obtain ⟨c, key, filter, values, hc, hfinds, hanswer⟩ :=
          planRead_finds t hv hplan select take hforward hstart hfault
        obtain ⟨d, key', filter', values', hd, hfinds', hanswer'⟩ :=
          planRead_finds t (h.valid hv) hplan' select take hforward hstart (fault?_of_reordered hrest hfault)
        refine .inr (.inr ⟨c, d, hc, hd, fun s hs => ?_⟩)
        cases hfailure : s.failure with
        | some e => simp only [Memory.answer, answerUnless, hfailure, Except.map]
        | none =>
          rw [hanswer s hfailure, hanswer' s hfailure, Memory.requireTable]
          cases htable : s.table? t.name with
          | none => rfl
          | some rows => exact (hfinds.read_eq hfinds' hrest (hs rows htable)).symm

/-- Reads of one table by one plan: queries with one key condition, or scans, in the same course. -/
def Call.SamePlan : Call → Call → Prop
  | .query q, .query r => q.table = r.table ∧ q.keyCondition = r.keyCondition ∧ q.forward = r.forward ∧ q.limit = r.limit ∧
      q.start = r.start
  | .scan q, .scan r => q.table = r.table ∧ q.limit = r.limit ∧ q.start = r.start
  | _, _ => False

/-- Requests whose filters differ in their order only are sent by one plan, if they are sent. -/
theorem planRead_samePlan (h : w.Reordered v) {select : Select} {order : Order} {take : Nat} {continuation : Option String}
    {c d : Call} (hc : planRead t ⟨w, select, order, take, continuation⟩ = .ok c)
    (hd : planRead t ⟨v, select, order, take, continuation⟩ = .ok d) : c.SamePlan d := by
  have hv := (planRead_cases hc).1
  obtain ⟨keys, remaining, hplan, -⟩ := getD_keyPlan? t hv
  obtain ⟨rest, hplan', -⟩ := getD_keyPlan?_reordered h hplan
  rw [planRead_eq t _ hv hplan] at hc
  rw [planRead_eq t _ (h.valid hv) hplan'] at hd
  obtain ⟨forward, hforward, hc⟩ := of_bind_eq_ok hc
  obtain ⟨forward', hforward', hd⟩ := of_bind_eq_ok hd
  obtain rfl : forward = forward' := Except.ok.inj (hforward.symm.trans hforward')
  obtain ⟨start, hstart, hc⟩ := of_bind_eq_ok hc
  obtain ⟨start', hstart', hd⟩ := of_bind_eq_ok hd
  obtain rfl : start = start' := Except.ok.inj (hstart.symm.trans hstart')
  cases hread : readTexts? select keys remaining with
  | error e => rw [hread] at hc; cases hc
  | ok read =>
    cases hread' : readTexts? select keys rest with
    | error e => rw [hread'] at hd; cases hd
    | ok read' =>
      rw [hread] at hc
      rw [hread'] at hd
      obtain rfl := Except.ok.inj hc
      obtain rfl := Except.ok.inj hd
      cases keys with
      | nil => exact ⟨rfl, rfl, rfl⟩
      | cons e keys => exact ⟨rfl, keyCondition_of_keys hread hread', rfl, rfl, rfl⟩

section

variable (config : EntityConfig) (options : Options) (clock : Nat → Instant) (ids : Nat → String) (latency : Nat)
  (world : World service Memory)

/-- Searches whose filters differ in their order only come to the same page, or fail over lists that are too long. -/
theorem findMany_reordered (t : Table) (h : w.Reordered v) (hv : w.Valid) (hsound : world.store.Sound t) (select : Select)
    (order : Order) (take : Nat) (continuation : Option String) :
    SameOrTooLong
      (Operation.run ⟨Memory.answer, clock, ids, latency⟩ config options world
        (findMany t ⟨w, select, order, take, continuation⟩)).1
      (Operation.run ⟨Memory.answer, clock, ids, latency⟩ config options world
        (findMany t ⟨v, select, order, take, continuation⟩)).1 := by
  rw [result_findMany, result_findMany]
  by_cases hcancelled : options.cancelAfter = some 0
  · rw [if_pos hcancelled, if_pos hcancelled]
    exact .inl rfl
  rw [if_neg hcancelled, if_neg hcancelled]
  obtain ⟨e, hc, hd⟩ | ⟨e, f, he, hf, hc, hd⟩ | ⟨c, d, hc, hd, hanswer⟩ := planRead_reordered t h hv select order take continuation
  · rw [hc, hd]
    exact .inl rfl
  · rw [hc, hd]
    exact .inr ⟨e, f, he, hf, rfl, rfl⟩
  · have houtcome := (outcome_readPage (hanswer world.store hsound)).trans (outcome_readPage rfl).symm
    simp only [hc, hd, Except.bind, houtcome]
    exact .inl rfl

/-- A search from the beginning for as many records as there are finds all those that pass the filter, or fails over a list that is
too long. -/
theorem findMany_finds {t : Table} {rows : Rows} {es : List (Item × Document)} (hv : w.Valid)
    (hfailure : world.store.failure = none) (htable : world.store.table? t.name = some rows) (hsound : rows.Sound t)
    (hdocuments : documents rows.items = .ok es) (hcancel : options.cancelAfter ≠ some 0)
    (hlate : Operation.late? (I := service) ⟨Memory.answer, clock, ids, latency⟩ config options = none) (select : Select)
    {take : Nat} (htake : rows.items.length ≤ take) :
    (∃ e, TooLong e ∧ (Operation.run ⟨Memory.answer, clock, ids, latency⟩ config options world
        (findMany t ⟨w, select, Keyed.empty, take, none⟩)).1 = .error e) ∨
      ∃ items, (Operation.run ⟨Memory.answer, clock, ids, latency⟩ config options world
          (findMany t ⟨w, select, Keyed.empty, take, none⟩)).1 = .ok ⟨items, none⟩ ∧
        items.Perm ((es.filter fun e => w.Passes .casings e.2).map fun e => select.project e.2) := by
  rw [result_findMany, if_neg hcancel, hlate]
  obtain ⟨keys, remaining, hplan, hplain, hremaining, hpasses⟩ := getD_keyPlan? t hv
  have hforward : forward? t (!keys.isEmpty) Keyed.empty = .ok none := rfl
  have hstart : startOf none = .ok none := rfl
  cases hfault : remaining.fault? (some maxInList) with
  | some e =>
    have heq := planRead_eq t ⟨w, select, Keyed.empty, take, none⟩ hv hplan
    simp only [hforward, hstart, Except.bind, readTexts?_of_fault? select hplain hremaining hfault] at heq
    rw [heq]
    exact .inl ⟨e, tooLong_of_fault? hremaining hfault, rfl⟩
  | none =>
    obtain ⟨call, key, filter, values, hcall, hfinds, hanswer⟩ :=
      planRead_finds t hv hplan select take hforward hstart hfault
    have hlimit : ReadPlan.Ample (count32? take) rows.items.length := by
      intro n hn
      rw [count32?] at hn
      split at hn
      · exact .inr (Option.some.inj hn ▸ htake)
      · cases hn
    have hread := ReadPlan.read_spec hfinds.decides hsound hfinds.accepted rfl hlimit
    rw [hdocuments] at hread
    obtain ⟨items, hitems, hperm⟩ := hread
    have hpage := hanswer world.store hfailure
    rw [requireTable_eq htable] at hpage
    obtain ⟨records, hrecords, hfound⟩ := readItems_perm select (documents_document hdocuments) hperm
    have houtcome := outcome_readPage (hpage.trans hitems)
    rw [hcall]
    refine .inr ⟨records, houtcome.trans ?_, ?_⟩
    · simp only [Except.mapError, Except.bind, hrecords]
      rfl
    · simpa only [← Bool.decide_and, ← hpasses] using hfound

end

end Dynamo

end DocQuery
