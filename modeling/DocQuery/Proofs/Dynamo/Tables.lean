import DocQuery.Proofs.Dynamo.Attributes
import DocQuery.Proofs.Dynamo.Keys
import DocQuery.Proofs.Dynamo.Reads
import DocQuery.Proofs.Dynamo.Rows

/-!
# Tables under writes

A call that writes puts one item under its own key text, or removes one (`Memory.act_cases`). So whatever others ask of the store, a
table stays in order and readable, as long as they store readable items only (`Serves.answer`).
-/

namespace DocQuery.Dynamo

/-! ## Rows in order -/

namespace Rows

variable {rows : Rows} {items : List (String × Item)} {key : String}

/-- Putting an item under a key text keeps the order. -/
theorem Sorted.insert (h : Sorted items) (key : String) (item : Item) : Sorted (insertSorted key item items) := by
  by_cases hkey : key ∈ Fields.names items
  · obtain ⟨e, he, rfl⟩ := List.mem_map.1 hkey
    obtain ⟨as, bs, rfl⟩ := List.append_of_mem he
    rw [insertSorted_replace h]
    exact h.replace item
  · obtain ⟨as, bs, -, hinsert, hsorted⟩ := insertSorted_new h hkey item
    rw [hinsert]
    exact hsorted

/-- Removing an item keeps the order. -/
theorem Sorted.drop (h : Sorted items) (key : String) : Sorted (Fields.drop items key) := h.sublist List.filter_sublist

/-- Items in order, each under its own key text, differ in the values of their key attributes. -/
theorem Sorted.nodup_address (h : Sorted rows.items) (hown : ∀ e ∈ rows.items, rows.keyText e.2 = .ok e.1) :
    (rows.items.map fun e => rows.address e.2).Nodup := by
  refine List.pairwise_map.2 ((List.pairwise_map.1 h.nodup).imp_of_mem ?_)
  intro a b ha hb hne he
  have hkey := (keyText_eq_iff (hown a ha)).2 he
  rw [hown b hb] at hkey
  exact hne (Except.ok.inj hkey).symm

end Rows

/-! ## Readable items -/

/-- The empty table of a schema. -/
def Table.rows (t : Table) : Rows := ⟨t.partitionKey, t.sortKey, []⟩

/-- An item that has a document, and whose key attributes are parsed back from their text. -/
structure Readable (t : Table) (item : Item) : Prop where
  document : ∃ d, toDocument item = .ok d
  key : Json.parse? (Json.obj (t.rows.keyOf item)).text = some (.obj (t.rows.keyOf item))

/-- An item has a document exactly if each of its attributes has a value. -/
theorem toDocument_ok_iff {item : Item} : (∃ d, toDocument item = .ok d) ↔ ∀ e ∈ item, ∃ j, toJson e.2 = .ok j := by
  refine ⟨fun ⟨d, hd⟩ => toJson_of_toMembers hd, fun h => ?_⟩
  induction item with
  | nil => exact ⟨[], rfl⟩
  | cons e item ih =>
    obtain ⟨⟨j, hj⟩, hrest⟩ := List.forall_mem_cons.1 h
    obtain ⟨d, hd⟩ := ih hrest
    rw [toDocument] at hd
    exact ⟨(e.1, j) :: d, by rw [toDocument, toMembers, hj, hd]; rfl⟩

/-- What an assignment assigns has a value, if the values of the request have. -/
theorem toJson_of_assigned {values : Option (Fields Json)} {plain : Fields Json} (hvalues : Memory.plainValues values = .ok plain)
    {term : Expression.Term} {typed : Json} (h : Memory.assigned values term = .ok typed) : ∃ j, toJson typed = .ok j := by
  cases term with
  | path field => cases h
  | lower field => cases h
  | literal l =>
    cases h
    exact ⟨_, toJson_ofJson_settled _⟩
  | param name =>
    rw [Memory.assigned] at h
    split at h
    · next hfound =>
      cases h
      obtain ⟨members, rfl, hmember⟩ := Option.bind_eq_some_iff.1 hfound
      have hplain : ∃ d, toDocument members = .ok d := by
        rw [Memory.plainValues, Option.getD_some] at hvalues
        cases hd : toMembers members with
        | error fault => rw [hd] at hvalues; cases hvalues
        | ok d => exact ⟨d, hd⟩
      exact toDocument_ok_iff.1 hplain _ (Fields.mem_of_get? hmember)
    · cases h

section

variable {rows : Rows} {values : Option (Fields Json)} {assignments : List (String × Expression.Term)} {item changed : Item}

/-- Assignments of attributes that have values make an item that has a document of one that has. -/
theorem toDocument_applyAll {plain : Fields Json} (hvalues : Memory.plainValues values = .ok plain)
    (hitem : ∃ d, toDocument item = .ok d) (h : Memory.applyAll rows values item assignments = .ok changed) :
    ∃ d, toDocument changed = .ok d := by
  induction assignments generalizing item with
  | nil => cases h; exact hitem
  | cons a rest ih =>
    obtain ⟨field, term⟩ := a
    rw [Memory.applyAll] at h
    split at h
    · cases h
    · obtain ⟨typed, htyped, h⟩ := of_bind_eq_ok h
      refine ih (toDocument_ok_iff.2 fun e he => ?_) h
      rcases Fields.mem_put he with rfl | he
      · exact toJson_of_assigned hvalues htyped
      · exact toDocument_ok_iff.1 hitem e he

/-- The names of the key attributes are those of the keys. -/
theorem Rows.isKey_of_mem {name : String} (h : name ∈ rows.partitionKey :: rows.sortKey.toList) : rows.isKey name = true := by
  rw [Rows.isKey, Bool.or_eq_true, beq_iff_eq, beq_iff_eq]
  exact (List.mem_cons.1 h).imp_right Option.mem_toList.1

/-- Assignments leave the key attributes as they are. -/
theorem keyOf_applyAll (h : Memory.applyAll rows values item assignments = .ok changed) :
    rows.keyOf changed = rows.keyOf item := by
  induction assignments generalizing item with
  | nil => cases h; rfl
  | cons a rest ih =>
    obtain ⟨field, term⟩ := a
    rw [Memory.applyAll] at h
    split at h
    · cases h
    · next hfield =>
      obtain ⟨typed, -, h⟩ := of_bind_eq_ok h
      rw [ih h, Rows.keyOf, Rows.keyOf]
      refine congrArg Fields.ofList (List.filterMap_congr fun name hname => ?_)
      have hne : name ≠ field := fun he => hfield (he ▸ Rows.isKey_of_mem hname)
      rw [Fields.get?_put_of_ne item typed hne]

end

/-! ## Tables that can be read -/

/-- The rows of a table in a store; where there is no such table, there are none. -/
def Memory.rows (s : Memory) (t : Table) : Rows := (s.table? t.name).getD t.rows

/-- A store without a failure in its way, in which a table stands, in order, with readable items under their own keys. -/
structure Serves (t : Table) (s : Memory) : Prop where
  failure : s.failure = none
  table : s.table? t.name = some (s.rows t)
  sound : (s.rows t).Sound t
  sorted : Rows.Sorted (s.rows t).items
  readable : ∀ e ∈ (s.rows t).items, Readable t e.2

/-- A new table can be read. -/
theorem serves_new (t : Table) : Serves t (Memory.empty.withTable t) := by
  have hrows : (Memory.empty.withTable t).table? t.name = some t.rows := if_pos rfl
  have heq : (Memory.empty.withTable t).rows t = t.rows := by rw [Memory.rows, hrows]; rfl
  exact ⟨rfl, hrows.trans (congrArg some heq.symm), heq ▸ ⟨rfl, rfl, List.forall_mem_nil _⟩, heq ▸ .nil, heq ▸ List.forall_mem_nil _⟩

/-- A call that stores only items with a property, if it stores any: a new one, or one that may be made of a key. -/
def Call.Stores (p : Item → Prop) : Call → Prop
  | .scan _ | .query _ | .get _ | .delete _ => True
  | .put r => p r.item
  | .update r => p r.key

/-- A call that leaves a table alone: one that reads, or one that is about another table. -/
def Call.Spares (t : Table) : Call → Prop
  | .scan _ | .query _ | .get _ => True
  | .put r => r.table ≠ t.name
  | .update r => r.table ≠ t.name
  | .delete r => r.table ≠ t.name

variable {t : Table} {s : Memory} {rows after : Rows} {call : Call}

/-- Sound rows have the key attributes of their schema. -/
theorem Rows.Sound.keyOf_eq (h : rows.Sound t) : rows.keyOf = t.rows.keyOf := by
  funext item
  rw [keyOf, keyOf, h.partitionKey, h.sortKey]
  rfl

/-- A call that changes a table does not leave it alone. -/
theorem Change.table_ne (h : Change call rows after) (hspares : call.Spares t) : call.table ≠ t.name := by
  cases h <;> exact hspares

/-- A change keeps the order. -/
theorem Change.sorted (h : Change call rows after) (hr : Rows.Sorted rows.items) : Rows.Sorted after.items := by
  cases h with
  | put hkey => exact hr.insert _ _
  | update hkey hvalues hitem => exact hr.insert _ _
  | delete key => exact hr.drop key

/-- Readable items stay readable under a change that stores readable items. -/
theorem Change.readable (h : Change call rows after) (hcall : call.Stores (Readable t)) (hsound : rows.Sound t)
    (hr : ∀ e ∈ rows.items, Readable t e.2) : ∀ e ∈ after.items, Readable t e.2 := by
  cases h with
  | put hkey =>
    intro e he
    rcases Rows.mem_insertSorted he with rfl | he
    · exact hcall
    · exact hr e he
  | @update r _ key values _ _ hkey hvalues hitem =>
    have hold : Readable t ((rows.find? key).getD r.key) := by
      cases hfound : rows.find? key with
      | none => exact hcall
      | some found => exact hr _ (Fields.mem_of_get? hfound)
    intro e he
    rcases Rows.mem_insertSorted he with rfl | he
    · refine ⟨toDocument_applyAll hvalues hold.document hitem, ?_⟩
      rw [← hsound.keyOf_eq, keyOf_applyAll hitem, hsound.keyOf_eq]
      exact hold.key
    · exact hr e he
  | delete key => exact fun e he => hr e (List.mem_filter.1 he).1

/-- The rows of a table that was set. -/
theorem Memory.rows_setTable (s : Memory) (t : Table) (rows : Rows) : (s.setTable t.name rows).rows t = rows := by
  rw [Memory.rows, table?_setTable]
  rfl

/-- The rows of the other tables are as they were. -/
theorem Memory.rows_setTable_of_ne (s : Memory) {name : String} (h : t.name ≠ name) (rows : Rows) :
    (s.setTable name rows).rows t = s.rows t := by
  rw [Memory.rows, table?_setTable_of_ne s h, Memory.rows]

/-- A call that stores readable items keeps a table that can be read. -/
theorem Serves.answer (h : Serves t s) (hcall : call.Stores (Readable t)) : Serves t (Memory.answer call s).2 := by
  rw [Memory.answer, answerUnless_of_none h.failure rfl]
  rcases Memory.act_cases s call with hact | ⟨before, after, hbefore, hchange, hact⟩
  · rw [hact]
    exact h
  · rw [hact]
    by_cases hname : t.name = call.table
    · rw [← hname] at hbefore ⊢
      obtain rfl : s.rows t = before := Option.some.inj (h.table.symm.trans hbefore)
      have hrows := Memory.rows_setTable s t after
      refine ⟨h.failure, hrows.symm ▸ Memory.table?_setTable s t.name after, ?_, ?_, ?_⟩
      · exact hrows.symm ▸ hchange.sound h.sound
      · exact hrows.symm ▸ hchange.sorted h.sorted
      · exact hrows.symm ▸ hchange.readable hcall h.sound h.readable
    · have hrows := Memory.rows_setTable_of_ne s hname after
      refine ⟨h.failure, hrows.symm ▸ (Memory.table?_setTable_of_ne s hname after).trans h.table, ?_, ?_, ?_⟩
      · exact hrows.symm ▸ h.sound
      · exact hrows.symm ▸ h.sorted
      · exact hrows.symm ▸ h.readable

/-- A call that leaves a table alone leaves it as it is. -/
theorem Serves.rows_answer (h : Serves t s) (hcall : call.Spares t) : (Memory.answer call s).2.rows t = s.rows t := by
  rw [Memory.answer, answerUnless_of_none h.failure rfl]
  rcases Memory.act_cases s call with hact | ⟨before, after, -, hchange, hact⟩
  · rw [hact]
  · rw [hact]
    exact Memory.rows_setTable_of_ne s (hchange.table_ne hcall).symm after

end DocQuery.Dynamo
