import DocQuery.Proofs.Dynamo.Mentions
import DocQuery.Proofs.Dynamo.Renaming
import DocQuery.Proofs.Repository.Atomic

/-!
# Requests are closed

The service refuses a request whose expressions mention an alias or a placeholder that its tables lack, and one whose tables have an
entry that no expression mentions. Main statement: no operation on a table sends a request of either kind, whatever it is asked for
and whatever the service answers (`adapter_closed`).
-/

namespace DocQuery.Dynamo

open Operation

/-! ## Requests and their expressions -/

/-- The expressions of a request. -/
def Call.expressions : Call → List String
  | .scan r => r.projection.toList ++ r.filter.toList
  | .query r => r.projection.toList ++ r.keyCondition :: r.filter.toList
  | .get r => r.projection.toList
  | .put r => r.condition.toList
  | .update r => r.assignments :: r.condition.toList
  | .delete r => r.condition.toList

/-- The fields of a request by alias. -/
def Call.names : Call → Option (Fields String)
  | .scan r => r.names
  | .query r => r.names
  | .get r => r.names
  | .put r => r.names
  | .update r => r.names
  | .delete r => r.names

/-- The attributes of a request by placeholder. -/
def Call.values : Call → Option (Fields Json)
  | .scan r => r.values
  | .query r => r.values
  | .put r => r.values
  | .update r => r.values
  | .get _ | .delete _ => none

/-- The words with a mark in the expressions of a request, each as often as it occurs. -/
def Call.marked (c : Call) (mark : Char) : List String := (c.expressions.map String.toList).flatMap (Dynamo.marked mark)

/-- A closed request: its expressions mention just the aliases and the placeholders of its tables, which are left out where nothing
is mentioned; every placeholder is mentioned once; no field has two aliases, and no alias two fields. -/
structure Call.Closed (c : Call) : Prop where
  aliases : ∀ a, a ∈ c.marked '#' ↔ a ∈ (c.names.getD []).names
  names_none : c.names = none ↔ c.marked '#' = []
  placeholders : c.marked ':' = (c.values.getD []).names
  values_none : c.values = none ↔ c.marked ':' = []
  once : (c.marked ':').Nodup
  alias_unique : (c.names.getD []).names.Nodup
  field_unique : ((c.names.getD []).map (·.2)).Nodup

/-- Tables are left out where they are empty. -/
theorem names_eq_none {t : Tables} : t.names = none ↔ t.fields = [] := by
  rw [Tables.names]
  cases t.fields <;> simp

theorem values_eq_none {t : Tables} : t.values = none ↔ t.attributes = [] := by
  rw [Tables.values]
  cases t.attributes <;> simp

/-- The fields that go with aliases. -/
theorem map_snd_names (t : Tables) : (t.names.getD []).map (·.2) = t.fields := by
  rw [Tables.names]
  cases t.fields with
  | nil => rfl
  | cons field fields =>
    simp [Function.comp_def]

/-- A request whose expressions use its tables from the start on is closed. -/
theorem Call.closed_of_uses {c : Call} {t : Tables} (hnames : c.names = t.names) (hvalues : c.values = t.values)
    (h : Uses [] t.fields 0 t.attributes.length (c.marked '#') (c.marked ':')) : c.Closed := by
  have hslots : c.marked ':' = Fields.names (c.values.getD []) := by
    rw [h.slots, hvalues, names_values, Nat.sub_zero]
  refine ⟨fun a => ?_, ?_, hslots, ?_, ?_, ?_, ?_⟩
  · rw [hnames, names_names, List.mem_map]
    constructor
    · intro ha
      obtain ⟨i, hi, rfl⟩ := h.known a ha
      exact ⟨i, List.mem_range'_1.2 ⟨Nat.zero_le i, by rwa [Nat.zero_add]⟩, rfl⟩
    · rintro ⟨i, hi, rfl⟩
      have hlt := (List.mem_range'_1.1 hi).2
      exact h.used i (Nat.zero_le i) (by rwa [Nat.zero_add] at hlt)
  · rw [hnames, names_eq_none]
    constructor
    · intro hnil
      refine List.eq_nil_iff_forall_not_mem.2 fun a ha => ?_
      obtain ⟨i, hi, -⟩ := h.known a ha
      rw [hnil] at hi
      exact Nat.not_lt_zero i hi
    · intro hnone
      refine List.length_eq_zero_iff.1 (Nat.eq_zero_of_not_pos fun hpos => ?_)
      exact List.not_mem_nil (hnone ▸ h.used 0 (Nat.le_refl 0) hpos)
  · rw [hslots, hvalues, values_eq_none, names_values, List.map_eq_nil_iff, List.range'_eq_nil_iff, List.length_eq_zero_iff]
  · rw [hslots, hvalues, names_values]
    exact (List.nodup_range' 1).map placeholder_injective
  · rw [hnames, names_names]
    exact (List.nodup_range' 1).map aliasName_injective
  · rw [hnames, map_snd_names]
    exact h.distinct List.nodup_nil

/-! ## Reads -/

section

variable {select : Select} {keys : List (String × KeyCondition)} {remaining : Where} {texts : Texts} {tables : Tables}

/-- What texts and tables of a read are compiled to. -/
theorem compiled_of_readTexts? (h : readTexts? select keys remaining = .ok (texts, tables)) :
    ∃ b, (compileTexts select keys remaining).Yields ⟨[], []⟩ texts b ∧ tables = Tables.ofBindings b := by
  rw [readTexts?] at h
  rcases hcompiled : (compileTexts select keys remaining).run.run ⟨[], []⟩ with ⟨_ | compiled, b⟩
  · rw [hcompiled] at h
    cases h
  · rw [hcompiled] at h
    cases h
    exact ⟨b, hcompiled, rfl⟩

/-- The texts of a read use the tables that go with them. -/
theorem readTexts?_uses (h : readTexts? select keys remaining = .ok (texts, tables)) :
    Uses [] tables.fields 0 tables.attributes.length ((texts.all.map String.toList).flatMap (marked '#'))
      ((texts.all.map String.toList).flatMap (marked ':')) := by
  obtain ⟨b, hcompiled, rfl⟩ := compiled_of_readTexts? h
  rw [Tables.ofBindings, List.length_map]
  exact compileTexts_takes hcompiled

/-- Without key conditions there is no text of them. -/
theorem keyCondition_of_nil (h : readTexts? select [] remaining = .ok (texts, tables)) : texts.keyCondition = "" := by
  obtain ⟨b, hcompiled, rfl⟩ := compiled_of_readTexts? h
  obtain ⟨projected, b₁, -, hrest⟩ := of_yields_bind hcompiled
  obtain ⟨fragments, b₂, hfragments, hrest⟩ := of_yields_bind hrest
  obtain ⟨filter, b₃, -, hlast⟩ := of_yields_bind hrest
  obtain ⟨rfl, rfl⟩ := yields_unique (.pure _ b₃) hlast
  obtain ⟨rfl, rfl⟩ := yields_unique (.pure [] b₁) hfragments
  rfl

/-- Without a filter there is no text of it. -/
theorem filter_of_empty (h : readTexts? select keys Keyed.empty = .ok (texts, tables)) : texts.filter = none := by
  obtain ⟨b, hcompiled, rfl⟩ := compiled_of_readTexts? h
  obtain ⟨projected, b₁, -, hrest⟩ := of_yields_bind hcompiled
  obtain ⟨fragments, b₂, -, hrest⟩ := of_yields_bind hrest
  obtain ⟨filter, b₃, hfilter, hlast⟩ := of_yields_bind hrest
  obtain ⟨rfl, rfl⟩ := yields_unique (.pure _ b₃) hlast
  obtain ⟨rfl, rfl⟩ := yields_unique (rfl : (Compile.filter dialect Keyed.empty).Yields b₂ none b₂) hfilter
  rfl

end

/-- The read that a request for a page amounts to is closed. -/
theorem planRead_closed {t : Table} {request : PageRequest} {call : Call} (h : planRead t request = .ok call) : call.Closed := by
  obtain ⟨-, forward, texts, tables, start, ⟨keys, remaining, -, -, hread, rfl⟩ | ⟨-, -, hread, rfl⟩⟩ := planRead_cases h
  · exact Call.closed_of_uses rfl rfl (readTexts?_uses hread)
  · have huses := readTexts?_uses hread
    rw [Texts.all, keyCondition_of_nil hread] at huses
    refine Call.closed_of_uses rfl rfl ?_
    simpa [Call.marked, Call.expressions, scanOf, marked] using huses

/-- The query for the first record of a partition is closed. -/
theorem firstRequest_closed {t : Table} {id : String} {select : Select} {request : QueryRequest}
    (h : firstRequest t id select = .ok request) : (Call.query request).Closed := by
  obtain ⟨⟨texts, tables⟩, hread, hrequest⟩ := of_bind_eq_ok h
  obtain rfl := Except.ok.inj hrequest
  have huses := readTexts?_uses hread
  rw [Texts.all, filter_of_empty hread] at huses
  exact Call.closed_of_uses rfl rfl huses

/-! ## Operations -/

/-- A condition on its own binds nothing. -/
theorem existence_values (t : Table) (policy : WritePolicy) (function : String) :
    (existence t .empty policy function).2.values = none := by
  cases policy <;> rfl

/-- Sending a closed request. -/
theorem ask_closed {c : Call} (h : c.Closed) : (ask c).Sends Call.Closed fun _ => True := ⟨h, fun _ _ _ => trivial⟩

/-- Sending a closed write. -/
theorem write_closed {c : Call} (h : c.Closed) (refusal : Error) : (write c refusal).Sends Call.Closed fun _ => True :=
  ⟨h, fun _ _ _ => trivial⟩

/-- A search sends closed requests. -/
theorem findMany_closed (t : Table) (request : PageRequest) : (findMany t request).Sends Call.Closed fun _ => True := by
  refine Sends.of_bind fun call hcall => ?_
  refine Sends.bind (ask_closed (planRead_closed hcall)) fun answer _ => ?_
  exact Sends.of_bind fun items _ => Sends.pure trivial

/-- Looking for the first record of a partition sends closed requests. -/
theorem firstOf_closed (t : Table) (id : String) (select : Select) : (firstOf t id select).Sends Call.Closed fun _ => True := by
  refine Sends.of_bind fun request hrequest => ?_
  refine Sends.bind (ask_closed (firstRequest_closed hrequest)) fun page _ => ?_
  exact Sends.of_bind fun items _ => Sends.pure trivial

/-- Looking for a record sends closed requests. -/
theorem findById_closed (t : Table) (id : String) (select : Select) : (findById t id select).Sends Call.Closed fun _ => True := by
  rw [findById]
  cases t.sortKey with
  | some sortKey => exact firstOf_closed t id select
  | none =>
    have hget : (Call.get ⟨t.name, partitionItem t id, (projection [] select).1,
        (Tables.mk (projection [] select).2 []).names⟩).Closed :=
      Call.closed_of_uses (t := ⟨(projection [] select).2, []⟩) rfl rfl (projection_uses select [] 0)
    refine Sends.bind (ask_closed hget) fun (item : Option Item) _ => ?_
    cases item with
    | none => exact Sends.pure trivial
    | some item =>
      dsimp only
      cases readItem item <;> exact fun _ _ => trivial

/-- Resolving a key sends closed requests. -/
theorem resolveKey_closed (t : Table) (id : String) : (resolveKey t id).Sends Call.Closed fun _ => True := by
  rw [resolveKey]
  cases t.sortKey with
  | none => exact Sends.pure trivial
  | some sortKey =>
    refine Sends.bind (firstOf_closed t id _) fun record _ => ?_
    cases record with
    | none => exact Sends.pure trivial
    | some record =>
      dsimp only
      split
      · exact Sends.pure trivial
      · exact Sends.throw _

/-- Storing a record sends closed requests. -/
theorem insert_closed (t : Table) (d : Document) (policy : WritePolicy) : (insert t d policy).Sends Call.Closed fun _ => True := by
  have hput : (Call.put ⟨t.name, ofDocument d, (existence t .empty policy "attribute_not_exists").1,
      (existence t .empty policy "attribute_not_exists").2.names, none⟩).Closed :=
    Call.closed_of_uses rfl (existence_values t policy _).symm (existence_uses t .empty policy (by decide))
  refine Sends.of_bind fun id _ => ?_
  have hwrite : Sends Call.Closed (fun _ => True) (do
      let _ ← write (.put ⟨t.name, ofDocument d, (existence t .empty policy "attribute_not_exists").1,
        (existence t .empty policy "attribute_not_exists").2.names, none⟩) (.alreadyExists id)
      return d) := Sends.bind (write_closed hput _) fun _ _ => Sends.pure trivial
  cases t.sortKey with
  | none => exact hwrite
  | some sortKey =>
    dsimp only
    split
    · exact Sends.throw _
    · exact hwrite

/-- Changing a record sends closed requests. -/
theorem update_closed (t : Table) (id : String) (changes : Document) (policy : WritePolicy) :
    (update t id changes policy).Sends Call.Closed fun _ => True := by
  rw [update]
  dsimp only
  split
  · exact Sends.throw _
  refine Sends.bind (resolveKey_closed t id) fun key _ => ?_
  cases key with
  | none => exact Sends.throw _
  | some key =>
    refine Sends.bind (write_closed (Call.closed_of_uses rfl rfl ?_) _) fun (stored : Option Item) _ => ?_
    · have hset := Mentions.after "SET ".toList (by decide) (mentions_commas (assign .empty (changes.filter (!t.isKey ·.1))).1)
      have hcondition : Unmarked ("attribute_exists".toList ++ ['(']) := by decide
      have huses := (assign_uses .empty (changes.filter (!t.isKey ·.1))).append
        (existence_uses t (assign .empty (changes.filter (!t.isKey ·.1))).2 policy hcondition)
      rw [← hset.aliases, ← hset.slots, ← String.toList_append] at huses
      exact huses
    · cases stored with
      | none => exact Sends.throw _
      | some item => exact Sends.of fun _ _ => trivial

/-- Removing a record sends closed requests. -/
theorem delete_closed (t : Table) (id : String) (policy : WritePolicy) : (delete t id policy).Sends Call.Closed fun _ => True := by
  refine Sends.bind (resolveKey_closed t id) fun key _ => ?_
  cases key with
  | none =>
    cases policy with
    | existenceChecked => exact Sends.throw _
    | unchecked => exact Sends.pure trivial
  | some key =>
    have hdelete : (Call.delete ⟨t.name, key, (existence t .empty policy "attribute_exists").1,
        (existence t .empty policy "attribute_exists").2.names⟩).Closed :=
      Call.closed_of_uses rfl (existence_values t policy _).symm (existence_uses t .empty policy (by decide))
    exact write_closed hdelete _

/-- Every operation on a table sends closed requests only, whatever it is asked for and whatever the service answers. -/
theorem adapter_closed (t : Table) :
    (∀ request, ((adapter t).findMany request).Sends Call.Closed fun _ => True) ∧
      (∀ id select, ((adapter t).findById id select).Sends Call.Closed fun _ => True) ∧
      (∀ d policy, ((adapter t).insert d policy).Sends Call.Closed fun _ => True) ∧
      (∀ id changes policy, ((adapter t).update id changes policy).Sends Call.Closed fun _ => True) ∧
      ∀ id policy, ((adapter t).delete id policy).Sends Call.Closed fun _ => True :=
  ⟨findMany_closed t, findById_closed t, insert_closed t, update_closed t, delete_closed t⟩

end DocQuery.Dynamo
