import DocQuery.Proofs.Compile.Shapes
import DocQuery.Proofs.Dynamo.Plans
import DocQuery.Proofs.Repository.Interleaving

/-!
# Reads under other names

A read refers to its fields by aliases, which are numbered in the order in which the fields first occur, and to its operands by
placeholders. So its texts show neither. Main statement: a request that is sent at all is also sent with other operands and under
other names of the fields, as long as its shape stays and different fields have different names, and with the same texts
(`Renaming.Requests.wording?`).
-/

namespace DocQuery.Dynamo

/-! ## Tables of aliases -/

/-- Fields in use, their other names, and that different ones have different other names. -/
structure Renaming where
  /-- The other name of a field. -/
  rename : String → String
  /-- The fields in use. -/
  used : List String
  /-- Different fields have different other names. -/
  injective : ∀ a ∈ used, ∀ b ∈ used, rename a = rename b → a = b

namespace Renaming

variable (ρ : Renaming) {names names' : List String} {field : String}

/-- Fields in use, and the same under their other names. -/
def Maps (names names' : List String) : Prop := names' = names.map ρ.rename ∧ ∀ name ∈ names, name ∈ ρ.used

/-- Fields in use are the same exactly if their other names are. -/
theorem rename_eq_iff {name : String} (hname : name ∈ ρ.used) (hfield : field ∈ ρ.used) :
    ρ.rename name = ρ.rename field ↔ name = field :=
  ⟨ρ.injective name hname field hfield, congrArg ρ.rename⟩

variable {ρ}

/-- A field has the place in a list that its other name has in the other list. -/
theorem Maps.findIdx? (h : ρ.Maps names names') (hfield : field ∈ ρ.used) :
    names'.findIdx? (· == ρ.rename field) = names.findIdx? (· == field) := by
  obtain ⟨rfl, hused⟩ := h
  induction names with
  | nil => rfl
  | cons name names ih =>
    obtain ⟨hname, hnames⟩ := List.forall_mem_cons.1 hused
    have hhead : (ρ.rename name == ρ.rename field) = (name == field) := by
      rw [Bool.eq_iff_iff, beq_iff_eq, beq_iff_eq, ρ.rename_eq_iff hname hfield]
    rw [List.map_cons, List.findIdx?_cons, List.findIdx?_cons, hhead, ih hnames]

/-- A field has the alias of its other name. -/
theorem Maps.aliasFor (h : ρ.Maps names names') (hfield : field ∈ ρ.used) :
    (aliasFor names field).1 = (aliasFor names' (ρ.rename field)).1 ∧
      ρ.Maps (aliasFor names field).2 (aliasFor names' (ρ.rename field)).2 := by
  rw [Dynamo.aliasFor, Dynamo.aliasFor, h.findIdx? hfield]
  cases names.findIdx? (· == field) with
  | some i => exact ⟨rfl, h⟩
  | none =>
    obtain ⟨rfl, hused⟩ := h
    refine ⟨by simp, by simp, fun name hname => ?_⟩
    rcases List.mem_append.1 hname with hname | hname
    · exact hused name hname
    · exact List.mem_singleton.1 hname ▸ hfield

/-- The dialect refers to a field as to its other name. -/
theorem agrees (hfield : field ∈ ρ.used) : dialect.Agrees ρ.Maps field (ρ.rename field) :=
  ⟨fun h => (h.aliasFor hfield).1, fun h => (h.aliasFor hfield).2⟩

/-- Fields have the aliases of their other names. -/
theorem Maps.aliasesFor (h : ρ.Maps names names') {fields : List String} (hfields : ∀ field ∈ fields, field ∈ ρ.used) :
    (aliasesFor names fields).1 = (aliasesFor names' (fields.map ρ.rename)).1 ∧
      ρ.Maps (aliasesFor names fields).2 (aliasesFor names' (fields.map ρ.rename)).2 := by
  induction fields generalizing names names' with
  | nil => exact ⟨rfl, h⟩
  | cons field fields ih =>
    obtain ⟨hfield, hrest⟩ := List.forall_mem_cons.1 hfields
    obtain ⟨halias, hlists⟩ := h.aliasFor hfield
    obtain ⟨haliases, hlast⟩ := ih hlists hrest
    simp only [Dynamo.aliasesFor, List.map_cons, halias, haliases]
    exact ⟨trivial, hlast⟩

/-- Projections of the same fields are compiled to the same text. -/
theorem projection_alike {select select' : Select} (hselect : select'.selected? = select.selected?.map (List.map ρ.rename))
    (hused : ∀ field ∈ select.selected?.getD [], field ∈ ρ.used) :
    Compile.Alike ρ.Maps Eq (compileProjection select) (compileProjection select') := by
  intro b c hbc
  have hprojection : (projection b.table select).1 = (projection c.table select').1 ∧
      ρ.Maps (projection b.table select).2 (projection c.table select').2 := by
    rw [projection, projection, hselect]
    cases hs : select.selected? with
    | none => exact ⟨rfl, hbc.table⟩
    | some fields =>
      rw [hs] at hused
      obtain ⟨haliases, hlists⟩ := hbc.table.aliasesFor hused
      exact ⟨congrArg (fun aliases => some (String.intercalate ", " aliases)) haliases, hlists⟩
  exact .ok hprojection.1 ⟨hprojection.2, hbc.params⟩

end Renaming

/-! ## Key conditions -/

/-- Values that are equal after a function, if there are any. -/
theorem rel_of_map_eq {α β : Type} {f : α → β} {a b : Option α} (h : a.map f = b.map f) :
    Option.Rel (fun x y => f x = f y) a b := by
  cases a with
  | none =>
    rw [Option.map_eq_none_iff.1 h.symm]
    exact .none
  | some x =>
    obtain ⟨y, rfl, hy⟩ := Option.map_eq_some_iff.1 h.symm
    exact .some hy.symm

/-- What remains of a key condition without its operands; nothing of a range. -/
def KeyCondition.shape : KeyCondition → Option Condition.Shape
  | .single c => some (c.shape .casings .sensitive)
  | .between _ _ => none

/-- Whether the only condition of a field is an equality can be seen from its shape. -/
theorem exists_equals_iff (f : FieldFilter) :
    (∃ v, f.conditions = [.compare .equals v]) ↔ (f.shape .casings).2 = [.compare .equals] := by
  constructor
  · rintro ⟨v, hv⟩
    simp [FieldFilter.shape, hv, Condition.shape]
  · intro h
    obtain ⟨c, hc, hshape⟩ := List.map_eq_singleton_iff.1 h
    cases c with
    | compare op v =>
      cases hshape
      exact ⟨v, hc⟩
    | text t part => cases hshape
    | member negated vs => cases hshape

/-- Whether a condition fits a key condition can be seen from its shape. -/
theorem keyCompatible_congr {mode : Mode} {c c' : Condition} (h : c.shape .casings mode = c'.shape .casings mode) :
    keyCompatible mode c = keyCompatible mode c' := by
  cases c <;> cases c' <;> simp_all [Condition.shape, keyCompatible]

/-- Two conditions fit a key condition as the bounds of a range only, which can be seen from their shapes. -/
theorem shape_sortKeyCondition?_pair (mode : Mode) (c e : Condition) :
    (sortKeyCondition? ⟨[c, e], mode⟩).map KeyCondition.shape =
      if c.shape .casings mode = .compare .gte ∧ e.shape .casings mode = .compare .lte ∨
          c.shape .casings mode = .compare .lte ∧ e.shape .casings mode = .compare .gte then some none else none := by
  cases c with
  | compare op v =>
    cases e with
    | compare op' v' => cases op <;> cases op' <;> rfl
    | text t part => cases op <;> rfl
    | member negated vs => cases op <;> rfl
  | text t part => simp [sortKeyCondition?, Condition.shape]
  | member negated vs => simp [sortKeyCondition?, Condition.shape]

/-- The shape of the key condition that a sort key meets can be seen from the shape of its filter. -/
theorem sortKeyCondition?_rel {f f' : FieldFilter} (h : f.shape .casings = f'.shape .casings) :
    Option.Rel (fun c c' => c.shape = c'.shape) (sortKeyCondition? f) (sortKeyCondition? f') := by
  obtain ⟨conditions, mode⟩ := f
  obtain ⟨conditions', mode'⟩ := f'
  obtain ⟨rfl, hconditions⟩ := Prod.mk.inj h
  cases forall₂_of_map_eq hconditions with
  | nil => exact .none
  | cons hc hrest =>
    cases hrest with
    | nil =>
      simp only [sortKeyCondition?, keyCompatible_congr hc]
      split
      · exact .some (congrArg some (Condition.shape_sensitive hc))
      · exact .none
    | cons he hrest =>
      cases hrest with
      | nil =>
        refine rel_of_map_eq ?_
        rw [shape_sortKeyCondition?_pair, shape_sortKeyCondition?_pair, hc, he]
      | cons hg hrest =>
        simp only [sortKeyCondition?]
        exact .none

namespace Renaming

variable {ρ : Renaming} {field : String}

/-- Key conditions of one shape are compiled to the same fragment. -/
theorem compileKey_alike (hfield : field ∈ ρ.used) {c c' : KeyCondition} (h : c.shape = c'.shape) :
    Compile.Alike ρ.Maps Eq (compileKey field c) (compileKey (ρ.rename field) c') := by
  cases c with
  | single c =>
    cases c' with
    | single c' => exact Compile.condition_alike (fun _ _ => rfl) (agrees hfield) (Option.some.inj h)
    | between low high => cases h
  | between low high =>
    cases c' with
    | single c' => cases h
    | between low' high' =>
      refine (Compile.reference_alike (agrees hfield)).bind fun target _ htarget => ?_
      refine (Compile.bindOperand_alike low low').bind fun slot _ hslot => ?_
      exact (Compile.bindOperand_alike high high').map fun _ _ hslot' => by rw [htarget, hslot, hslot']

/-! ## Entries under other names -/

/-- A field in use with what goes with it, and the same under its other name with something of the same shape. -/
structure Entry {α β : Type} (ρ : Renaming) (shape : α → β) (e e' : String × α) : Prop where
  used : e.1 ∈ ρ.used
  rename : e'.1 = ρ.rename e.1
  shape : shape e.2 = shape e'.2

/-- Filters of one shape, the fields of which are in use in one and have their other names in the other. -/
abbrev Filters (ρ : Renaming) (w w' : Where) : Prop := List.Forall₂ (ρ.Entry (FieldFilter.shape .casings)) w.entries w'.entries

section

variable {α β : Type} {shape : α → β} {es es' : Fields α}

/-- With a field goes something exactly if something of the same shape goes with its other name. -/
theorem get?_rel (h : List.Forall₂ (ρ.Entry shape) es es') (hfield : field ∈ ρ.used) :
    Option.Rel (fun a a' => shape a = shape a') (es.get? field) (es'.get? (ρ.rename field)) := by
  induction h with
  | nil => exact .none
  | @cons e e' es es' he hes ih =>
    obtain ⟨name, a⟩ := e
    obtain ⟨_, a'⟩ := e'
    obtain ⟨hname, rfl, hshape⟩ := he
    rw [Fields.get?_cons, Fields.get?_cons]
    by_cases hself : name = field
    · rw [if_pos hself, if_pos ((ρ.rename_eq_iff hname hfield).2 hself)]
      exact .some hshape
    · rw [if_neg hself, if_neg fun hrename => hself ((ρ.rename_eq_iff hname hfield).1 hrename)]
      exact ih

/-- What remains without a field, and without its other name. -/
theorem drop (h : List.Forall₂ (ρ.Entry shape) es es') (hfield : field ∈ ρ.used) :
    List.Forall₂ (ρ.Entry shape) (es.drop field) (es'.drop (ρ.rename field)) := by
  refine List.rel_filter (fun e e' he => ?_) h
  simp only [bne_iff_ne, ne_eq, he.rename, ρ.rename_eq_iff he.used hfield]

end

/-! ## Plans -/

variable {t t' : Table} {w w' : Where}

/-- Two tables of which the keys of one are those of the other under their other names. -/
structure Keys (ρ : Renaming) (t t' : Table) : Prop where
  partitionKey : t'.partitionKey = ρ.rename t.partitionKey
  sortKey : t'.sortKey = t.sortKey.map ρ.rename
  partition_used : t.partitionKey ∈ ρ.used
  sort_used : ∀ sortKey, t.sortKey = some sortKey → sortKey ∈ ρ.used

/-- Key conditions and the filter that remains, and the same under other names. -/
def Plans (ρ : Renaming) (plan plan' : List (String × KeyCondition) × Where) : Prop :=
  List.Forall₂ (ρ.Entry KeyCondition.shape) plan.1 plan'.1 ∧ ρ.Filters plan.2 plan'.2

/-- A filter that does not pin the partition key by an equality alone has no plan. -/
theorem keyPlan?_eq_none (h : ∀ pinned ∈ w.get? t.partitionKey, ¬∃ v, pinned.conditions = [.compare .equals v]) :
    keyPlan? t w = none := by
  cases hplan : keyPlan? t w with
  | none => rfl
  | some plan =>
    obtain ⟨pinned, v, hpinned, hv, -⟩ := keyPlan?_cases hplan
    exact absurd ⟨v, hv⟩ (h pinned hpinned)

/-- A filter has a plan exactly if it has one under other names, which is then the same under these. -/
theorem keyPlan?_rel (ht : ρ.Keys t t') (hw : ρ.Filters w w') : Option.Rel ρ.Plans (keyPlan? t w) (keyPlan? t' w') := by
  have hpinned : Option.Rel _ (w.get? t.partitionKey) (w'.get? (ρ.rename t.partitionKey)) := get?_rel hw ht.partition_used
  have hremaining : ρ.Filters (w.drop t.partitionKey) (w'.drop (ρ.rename t.partitionKey)) := drop hw ht.partition_used
  generalize hp : w.get? t.partitionKey = found, hp' : w'.get? (ρ.rename t.partitionKey) = found' at hpinned
  cases hpinned with
  | none =>
    rw [keyPlan?_eq_none (t := t) (by rw [hp]; nofun), keyPlan?_eq_none (t := t') (by rw [ht.partitionKey, hp']; nofun)]
    exact .none
  | @some pinned pinned' hshape =>
    by_cases hequals : ∃ v, pinned.conditions = [.compare .equals v]
    · obtain ⟨v, hv⟩ := hequals
      obtain ⟨v', hv'⟩ : ∃ v', pinned'.conditions = [.compare .equals v'] := by
        rw [exists_equals_iff, ← hshape, ← exists_equals_iff]
        exact ⟨v, hv⟩
      have hpartition : ρ.Entry KeyCondition.shape (t.partitionKey, .single (.compare .equals v))
          (ρ.rename t.partitionKey, .single (.compare .equals v')) := ⟨ht.partition_used, rfl, rfl⟩
      simp only [keyPlan?, ht.partitionKey, ht.sortKey, hp, hp', hv, hv', Option.bind_eq_bind, Option.bind_some]
      cases hs : t.sortKey with
      | none => exact .some ⟨.cons hpartition .nil, hremaining⟩
      | some sortKey =>
        have hused := ht.sort_used sortKey hs
        have hsort := get?_rel hw hused
        simp only [Option.map_some, Keyed.get?]
        generalize w.entries.get? sortKey = found, w'.entries.get? (ρ.rename sortKey) = found' at hsort
        cases hsort with
        | none => exact .some ⟨.cons hpartition .nil, hremaining⟩
        | @some f f' hfilter =>
          have hkey := sortKeyCondition?_rel hfilter
          simp only
          generalize sortKeyCondition? f = key, sortKeyCondition? f' = key' at hkey
          cases hkey with
          | none => exact .none
          | some hkey => exact .some ⟨.cons hpartition (.cons ⟨hused, rfl, hkey⟩ .nil), drop hremaining hused⟩
    · have hequals' : ¬∃ v, pinned'.conditions = [.compare .equals v] := by
        rwa [exists_equals_iff, ← hshape, ← exists_equals_iff]
      rw [keyPlan?_eq_none (t := t) (by simpa [hp] using hequals),
        keyPlan?_eq_none (t := t') (by simpa [ht.partitionKey, hp'] using hequals')]
      exact .none

/-! ## Texts -/

variable {select select' : Select} {keys keys' : List (String × KeyCondition)}

/-- The texts of a read are the same under other names. -/
theorem compileTexts_alike (hselect : select'.selected? = select.selected?.map (List.map ρ.rename))
    (hused : ∀ field ∈ select.selected?.getD [], field ∈ ρ.used) (hkeys : List.Forall₂ (ρ.Entry KeyCondition.shape) keys keys')
    (hw : ρ.Filters w w') (hv : w.Valid) (hv' : w'.Valid) :
    Compile.Alike ρ.Maps Eq (compileTexts select keys w) (compileTexts select' keys' w') := by
  have hfields : List.Forall₂ (fun e e' => dialect.Agrees ρ.Maps e.1 e'.1 ∧ e.2.shape .casings = e'.2.shape .casings)
      w.entries w'.entries := hw.imp fun e e' he => ⟨he.rename ▸ agrees he.used, he.shape⟩
  have hkey : ∀ e e', ρ.Entry KeyCondition.shape e e' →
      Compile.Alike ρ.Maps Eq (compileKey e.1 e.2) (compileKey e'.1 e'.2) := fun e e' he => by
    rw [he.rename]
    exact compileKey_alike he.used he.shape
  refine (projection_alike hselect hused).bind fun projection _ hprojection => ?_
  refine (Compile.Alike.mapM hkeys hkey).bind fun fragments fragments' hfragments => ?_
  rw [List.forall₂_eq_eq_eq] at hfragments
  refine (Compile.filter_alike (fun _ _ => rfl) hv hv' hfields).map fun filter _ hfilter => ?_
  rw [hprojection, hfragments, hfilter]

/-- The texts of a read can be compiled under other names if they can be at all. They are then the same, with as many aliases and
placeholders. -/
theorem readTexts?_renamed (hselect : select'.selected? = select.selected?.map (List.map ρ.rename))
    (hused : ∀ field ∈ select.selected?.getD [], field ∈ ρ.used) (hkeys : List.Forall₂ (ρ.Entry KeyCondition.shape) keys keys')
    (hw : ρ.Filters w w') (hv : w.Valid) (hv' : w'.Valid) {texts : Texts} {tables : Tables}
    (h : readTexts? select keys w = .ok (texts, tables)) :
    ∃ tables', readTexts? select' keys' w' = .ok (texts, tables') ∧ tables'.fields.length = tables.fields.length ∧
      tables'.attributes.length = tables.attributes.length := by
  have houtcomes := compileTexts_alike hselect hused hkeys hw hv hv' ⟨[], []⟩ ⟨[], []⟩ ⟨⟨rfl, nofun⟩, rfl⟩
  rw [readTexts?] at h ⊢
  generalize (compileTexts select keys w).run.run ⟨[], []⟩ = r, (compileTexts select' keys' w').run.run ⟨[], []⟩ = r'
    at houtcomes h ⊢
  cases houtcomes with
  | error e e' b c => cases h
  | @ok texts' texts b c htexts hmatched =>
    cases htexts
    cases h
    refine ⟨Tables.ofBindings c, rfl, ?_, ?_⟩
    · simp [Tables.ofBindings, hmatched.table.1]
    · simp [Tables.ofBindings, hmatched.params]

end Renaming

/-! ## Reads as they are sent -/

/-- The texts of a read with the names of its aliases and placeholders, but not what these stand for. -/
structure Wording where
  /-- The key condition, if the read is a query. -/
  keyCondition : Option String
  /-- The filter. -/
  filter : Option String
  /-- The projection. -/
  projection : Option String
  /-- The aliases. -/
  aliases : List String
  /-- The placeholders. -/
  placeholders : List String

/-- The wording of a scan or a query. -/
def Call.wording? : Call → Option Wording
  | .scan r => some ⟨none, r.filter, r.projection, Fields.names (r.names.getD []), Fields.names (r.values.getD [])⟩
  | .query r =>
    some ⟨some r.keyCondition, r.filter, r.projection, Fields.names (r.names.getD []), Fields.names (r.values.getD [])⟩
  | .get _ | .put _ | .update _ | .delete _ => none

/-- The aliases of tables are numbered. -/
theorem names_names (tables : Tables) :
    Fields.names (tables.names.getD []) = (List.range' 0 tables.fields.length).map aliasName := by
  rw [Tables.names]
  cases tables.fields with
  | nil => rfl
  | cons field fields => exact Fields.names_numbered aliasName id (field :: fields)

/-- The placeholders of tables are numbered. -/
theorem names_values (tables : Tables) :
    Fields.names (tables.values.getD []) = (List.range' 0 tables.attributes.length).map placeholder := by
  rw [Tables.values]
  cases tables.attributes with
  | nil => rfl
  | cons value values => exact Fields.names_numbered placeholder id (value :: values)

/-- The call that a search begins with is the read that it amounts to. -/
theorem findMany_call? {t : Table} {r : PageRequest} {call : Call} :
    (ExceptT.run (findMany t r)).call? = some call ↔ planRead t r = .ok call := by
  rw [findMany]
  cases planRead t r with
  | error e => exact ⟨nofun, nofun⟩
  | ok planned => exact ⟨fun h => congrArg Except.ok (Option.some.inj h), fun h => congrArg some (Except.ok.inj h)⟩

namespace Renaming

variable {ρ : Renaming} {t t' : Table} {r r' : PageRequest}

/-- Two requests for pages of tables, of which the second is of the same shape as the first, with the other names for the fields. -/
structure Requests (ρ : Renaming) (t t' : Table) (r r' : PageRequest) : Prop where
  keys : ρ.Keys t t'
  filter : r'.filter.shape .casings = (r.filter.shape .casings).map fun e => (ρ.rename e.1, e.2)
  filter_used : ∀ name ∈ r.filter.entries.names, name ∈ ρ.used
  select : r'.select.selected? = r.select.selected?.map (List.map ρ.rename)
  select_used : ∀ name ∈ r.select.selected?.getD [], name ∈ ρ.used
  order : r'.order.entries = r.order.entries.map fun e => (ρ.rename e.1, e.2)
  order_used : ∀ name ∈ r.order.entries.names, name ∈ ρ.used

/-- The filters of two such requests. -/
theorem Requests.filters (h : ρ.Requests t t' r r') : ρ.Filters r.filter r'.filter := by
  have hshapes : r.filter.entries.map (fun e => (ρ.rename e.1, e.2.shape .casings)) =
      r'.filter.entries.map fun e => (e.1, e.2.shape .casings) := by
    have hfilter := h.filter
    rw [Where.shape, Where.shape, List.map_map] at hfilter
    exact hfilter.symm
  have hused : ∀ e ∈ r.filter.entries, e.1 ∈ ρ.used := fun e he => h.filter_used e.1 (List.mem_map_of_mem he)
  refine (List.forall₂_and_left _ _ |>.2 ⟨hused, forall₂_of_map_eq hshapes⟩).imp fun e e' he => ?_
  obtain ⟨hrename, hshape⟩ := Prod.mk.inj he.2
  exact ⟨he.1, hrename.symm, hshape⟩

/-- A direction through a partition is asked for under other names if it is at all. -/
theorem Requests.forward? (h : ρ.Requests t t' r r') (isQuery : Bool) :
    Dynamo.forward? t' isQuery r'.order = Dynamo.forward? t isQuery r.order := by
  have hused := h.order_used
  rw [Dynamo.forward?, Dynamo.forward?, h.order, h.keys.sortKey]
  cases hentries : r.order.entries with
  | nil => rfl
  | cons e entries =>
    cases entries with
    | cons => rfl
    | nil =>
      obtain ⟨field, direction⟩ := e
      have hfield : field ∈ ρ.used := hused field (by simp [hentries, Fields.names])
      have hsort : (t.sortKey.map ρ.rename == some (ρ.rename field)) = (t.sortKey == some field) := by
        cases hs : t.sortKey with
        | none => rfl
        | some sortKey =>
          rw [Bool.eq_iff_iff, beq_iff_eq, beq_iff_eq]
          simp [ρ.rename_eq_iff (h.keys.sort_used sortKey hs) hfield]
      simp only [List.map_cons, List.map_nil, hsort]

/-- A request is sent under other names if it is sent at all, with the same texts. -/
theorem Requests.wording? (h : ρ.Requests t t' r r') (hv : r'.filter.Valid) {start : Option Item}
    (hstart : startOf r'.continuation = .ok start) {call : Call} (hcall : planRead t r = .ok call) :
    ∃ call' wording, planRead t' r' = .ok call' ∧ call.wording? = some wording ∧ call'.wording? = some wording := by
  obtain ⟨hvalid, forward, texts, tables, _, ⟨keys, remaining, hp, hforward, hread, rfl⟩ | ⟨hp, hforward, hread, rfl⟩⟩ :=
    planRead_cases hcall
  · have hplan := keyPlan?_rel h.keys h.filters
    rw [hp] at hplan
    generalize hp' : keyPlan? t' r'.filter = found at hplan
    cases hplan with
    | @some _ plan' hplan =>
      obtain ⟨hkeys, hremaining⟩ := hplan
      obtain ⟨tables', hread', hfields, hattributes⟩ := readTexts?_renamed h.select h.select_used hkeys hremaining
        (valid_of_keyPlan? hp hvalid) (valid_of_keyPlan? hp' hv) hread
      refine ⟨_, _, planRead_of_some r' hv hp' (h.forward? true ▸ hforward) hstart hread', rfl, ?_⟩
      simp [Call.wording?, queryOf, names_names, names_values, hfields, hattributes]
  · have hplan := keyPlan?_rel h.keys h.filters
    rw [hp] at hplan
    generalize hp' : keyPlan? t' r'.filter = found at hplan
    cases hplan with
    | none =>
      obtain ⟨tables', hread', hfields, hattributes⟩ := readTexts?_renamed h.select h.select_used .nil h.filters hvalid hv hread
      refine ⟨_, _, planRead_of_none r' hv hp' (h.forward? false ▸ hforward) hstart hread', rfl, ?_⟩
      simp [Call.wording?, scanOf, names_names, names_values, hfields, hattributes]

end Renaming

end DocQuery.Dynamo
