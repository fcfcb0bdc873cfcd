import DocQuery.Dynamo.Memory
import DocQuery.Proofs.Fields
import DocQuery.Proofs.Repository.Simulation

/-!
# Items under their own keys

The store puts every item under the text of its own key, and an update never writes a key. So whatever it is asked, each table
keeps its schema, and each item stands under its own key (`Memory.Sound.run`).
-/

namespace DocQuery.Dynamo

/-- A table as its schema has it, with every item under its own key text. -/
structure Rows.Sound (rows : Rows) (t : Table) : Prop where
  partitionKey : rows.partitionKey = t.partitionKey
  sortKey : rows.sortKey = t.sortKey
  keyed : ∀ e ∈ rows.items, rows.keyText e.2 = .ok e.1

namespace Rows

variable {rows : Rows} {t : Table} {key : String} {item : Item}

/-- The keys of a sound table are those of its schema. -/
theorem Sound.isKey_eq (h : rows.Sound t) : t.isKey = rows.isKey := by
  funext field
  rw [Table.isKey, Rows.isKey, h.partitionKey, h.sortKey]

/-- What is there after an item is put in is that item or was there. -/
theorem mem_insertSorted {items : List (String × Item)} {e : String × Item} (h : e ∈ insertSorted key item items) :
    e = (key, item) ∨ e ∈ items := by
  induction items with
  | nil => exact Or.inl (List.mem_singleton.1 h)
  | cons e' items ih =>
    obtain ⟨k, i⟩ := e'
    rw [insertSorted] at h
    split at h
    · exact List.mem_cons.1 h
    · exact (List.mem_cons.1 h).imp_right (List.mem_cons_of_mem _)
    · rcases List.mem_cons.1 h with rfl | h
      · exact Or.inr List.mem_cons_self
      · exact (ih h).imp_right (List.mem_cons_of_mem _)

/-- Putting an item under its own key text. -/
theorem Sound.put (h : rows.Sound t) (hk : rows.keyText item = .ok key) : (rows.put key item).Sound t where
  partitionKey := h.partitionKey
  sortKey := h.sortKey
  keyed e he := by
    rcases mem_insertSorted he with rfl | he
    · exact hk
    · exact h.keyed e he

/-- Removing an item. -/
theorem Sound.erase (h : rows.Sound t) (key : String) : (rows.erase key).Sound t where
  partitionKey := h.partitionKey
  sortKey := h.sortKey
  keyed e he := h.keyed e (List.mem_filter.1 he).1

/-- The key text reads nothing but the keys. -/
theorem keyText_put {field : String} (h : rows.isKey field = false) (item : Item) (value : Json) :
    rows.keyText (Fields.put item field value) = rows.keyText item := by
  rw [isKey, Bool.or_eq_false_iff] at h
  have hpartition : rows.partitionKey ≠ field := (ne_of_beq_false h.1).symm
  rw [keyText, keyText, Fields.get?_put_of_ne item value hpartition]
  cases hs : rows.sortKey with
  | none => rfl
  | some sortKey =>
    have hsort : sortKey ≠ field := fun he => ne_of_beq_false h.2 (hs.trans (congrArg some he))
    simp only [Fields.get?_put_of_ne item value hsort]

/-- Assignments that the store applies leave the key text as it is. -/
theorem keyText_applyAll {values : Option (Fields Json)} {assignments : List (String × Expression.Term)} {changed : Item}
    (h : Memory.applyAll rows values item assignments = .ok changed) : rows.keyText changed = rows.keyText item := by
  induction assignments generalizing item with
  | nil => cases h; rfl
  | cons a rest ih =>
    obtain ⟨field, term⟩ := a
    rw [Memory.applyAll] at h
    cases hk : rows.isKey field with
    | true => rw [hk] at h; cases h
    | false =>
      rw [hk] at h
      obtain ⟨value, -, h⟩ := of_bind_eq_ok h
      rw [ih h, keyText_put hk]

/-- Documents are added under their own key texts, up to one that is refused, so what such an addition keeps they keep. -/
theorem seedRows_keeps {P : Rows → Prop}
    (hput : ∀ {rows d key}, P rows → rows.keyText (ofDocument d) = .ok key → P (rows.put key (ofDocument d))) (h : P rows)
    (ds : List Document) : P (Memory.seedRows rows ds).2 := by
  induction ds generalizing rows with
  | nil => exact h
  | cons d ds ih =>
    rw [Memory.seedRows]
    cases hkey : rows.keyText (ofDocument d) with
    | ok key => exact ih (hput h hkey)
    | error e => exact h

/-- Adding documents keeps a table sound. -/
theorem Sound.seed (h : rows.Sound t) (ds : List Document) : (Memory.seedRows rows ds).2.Sound t :=
  seedRows_keeps (P := (·.Sound t)) (fun hr hkey => hr.put hkey) h ds

end Rows

/-! ## What a call does to its table -/

/-- The table that a call is about. -/
def Call.table : Call → String
  | .scan r => r.table
  | .query r => r.table
  | .get r => r.table
  | .put r => r.table
  | .update r => r.table
  | .delete r => r.table

/-- What a call that writes makes of its table. -/
inductive Change : Call → Rows → Rows → Prop
  | put {r : PutRequest} {rows : Rows} {key : String} : rows.keyText r.item = .ok key →
      Change (.put r) rows (rows.put key r.item)
  | update {r : UpdateRequest} {rows : Rows} {key : String} {values : Fields Json}
      {assignments : List (String × Expression.Term)} {item : Item} : rows.keyText r.key = .ok key →
      Memory.plainValues r.values = .ok values →
      Memory.applyAll rows r.values ((rows.find? key).getD r.key) assignments = .ok item →
      Change (.update r) rows (rows.put key item)
  | delete {r : DeleteRequest} {rows : Rows} (key : String) : Change (.delete r) rows (rows.erase key)

/-- What is written stands under its own key text; an updated item does, since its key is the one that it is looked up by. -/
theorem Change.sound {call : Call} {t : Table} {rows after : Rows} (h : Change call rows after) (hr : rows.Sound t) :
    after.Sound t := by
  cases h with
  | put hkey => exact hr.put hkey
  | @update r _ key _ _ _ hkey _ hitem =>
    refine hr.put ((Rows.keyText_applyAll hitem).trans ?_)
    cases hfound : rows.find? key with
    | none => exact hkey
    | some found => exact hr.keyed _ (Fields.mem_of_get? hfound)
  | delete key => exact hr.erase key

namespace Memory

variable {m m' : Memory} {t : Table}

/-- What is required to be there is there. -/
theorem of_requireTable {name : String} {rows : Rows} (h : m.requireTable name = .ok rows) : m.table? name = some rows := by
  rw [requireTable] at h
  cases hm : m.table? name with
  | none => rw [hm] at h; cases h
  | some rows' => rw [hm] at h; cases h; rfl

/-! ## Calls that succeed -/

/-- An answer that succeeds leaves its table changed. -/
theorem of_store_ok {name : String} {α : Type} {r : Except StoreError (Rows × α)} {a : α} (h : m.store name r = (.ok a, m')) :
    ∃ rows, r = .ok (rows, a) ∧ m' = m.setTable name rows := by
  cases r with
  | error e => cases h
  | ok after =>
    cases h
    exact ⟨after.1, rfl, rfl⟩

/-- An answer that fails leaves the store as it is. -/
theorem of_store_error {name : String} {α : Type} {r : Except StoreError (Rows × α)} {e : StoreError}
    (h : m.store name r = (.error e, m')) : m' = m := by
  cases r with
  | error e => cases h; rfl
  | ok after => cases h

/-- An item is put under its key text, and the condition has held of what was there. -/
theorem put_ok {r : PutRequest} {answer : Unit} (h : m.act (.put r) = (.ok answer, m')) :
    ∃ rows key values, m.table? r.table = some rows ∧ rows.keyText r.item = .ok key ∧
      checkCondition r.condition r.names values (rows.find? key) = .ok () ∧ m' = m.setTable r.table (rows.put key r.item) := by
  obtain ⟨after, hafter, hstore⟩ := of_store_ok h
  obtain ⟨values, -, hafter⟩ := of_bind_eq_ok hafter
  obtain ⟨rows, hrows, hafter⟩ := of_bind_eq_ok hafter
  obtain ⟨key, hkey, hafter⟩ := of_bind_eq_ok hafter
  obtain ⟨_, hcondition, hafter⟩ := of_bind_eq_ok hafter
  cases hafter
  exact ⟨rows, key, values, of_requireTable hrows, hkey, hcondition, hstore⟩

/-- An item is changed under the key text of the key, and the condition has held of what was there. -/
theorem update_ok {r : UpdateRequest} {stored : Option Item} (h : m.act (.update r) = (.ok stored, m')) :
    ∃ rows key values assignments item, m.table? r.table = some rows ∧ rows.keyText r.key = .ok key ∧
      plainValues r.values = .ok values ∧ checkCondition r.condition r.names values (rows.find? key) = .ok () ∧
      Expression.parseAssignments r.assignments r.names = .ok assignments ∧
      applyAll rows r.values ((rows.find? key).getD r.key) assignments = .ok item ∧ stored = some item ∧
      m' = m.setTable r.table (rows.put key item) := by
  obtain ⟨after, hafter, hstore⟩ := of_store_ok h
  obtain ⟨values, hvalues, hafter⟩ := of_bind_eq_ok hafter
  obtain ⟨assignments, hassignments, hafter⟩ := of_bind_eq_ok hafter
  obtain ⟨rows, hrows, hafter⟩ := of_bind_eq_ok hafter
  obtain ⟨key, hkey, hafter⟩ := of_bind_eq_ok hafter
  obtain ⟨_, hcondition, hafter⟩ := of_bind_eq_ok hafter
  obtain ⟨item, hitem, hafter⟩ := of_bind_eq_ok hafter
  cases hafter
  refine ⟨rows, key, values, assignments, item, of_requireTable hrows, hkey, hvalues, hcondition, ?_, hitem, rfl, hstore⟩
  cases hparsed : Expression.parseAssignments r.assignments r.names with
  | error e => rw [hparsed] at hassignments; cases hassignments
  | ok parsed => rw [hparsed] at hassignments; cases hassignments; rfl

/-- What stands under the key text of a key is removed. -/
theorem delete_ok {r : DeleteRequest} {answer : Unit} (h : m.act (.delete r) = (.ok answer, m')) :
    ∃ rows key, m.table? r.table = some rows ∧ rows.keyText r.key = .ok key ∧ m' = m.setTable r.table (rows.erase key) := by
  obtain ⟨after, hafter, hstore⟩ := of_store_ok h
  obtain ⟨rows, hrows, hafter⟩ := of_bind_eq_ok hafter
  obtain ⟨key, hkey, hafter⟩ := of_bind_eq_ok hafter
  obtain ⟨_, -, hafter⟩ := of_bind_eq_ok hafter
  cases hafter
  exact ⟨rows, key, of_requireTable hrows, hkey, hstore⟩

/-- A call leaves the store as it is, or its table changed. -/
theorem act_cases (m : Memory) (call : Call) :
    (m.act call).2 = m ∨ ∃ before after, m.table? call.table = some before ∧ Change call before after ∧
      (m.act call).2 = m.setTable call.table after := by
  cases call with
  | scan r => exact .inl rfl
  | query r => exact .inl rfl
  | get r => exact .inl rfl
  | put r =>
    rcases hact : m.act (.put r) with ⟨e | answer, m'⟩
    · exact .inl (of_store_error hact)
    · obtain ⟨rows, key, values, hrows, hkey, -, rfl⟩ := put_ok hact
      exact .inr ⟨rows, _, hrows, .put hkey, rfl⟩
  | update r =>
    rcases hact : m.act (.update r) with ⟨e | answer, m'⟩
    · exact .inl (of_store_error hact)
    · obtain ⟨rows, key, values, assignments, item, hrows, hkey, hvalues, -, -, hitem, -, rfl⟩ := update_ok hact
      exact .inr ⟨rows, _, hrows, .update hkey hvalues hitem, rfl⟩
  | delete r =>
    rcases hact : m.act (.delete r) with ⟨e | answer, m'⟩
    · exact .inl (of_store_error hact)
    · obtain ⟨rows, key, hrows, -, rfl⟩ := delete_ok hact
      exact .inr ⟨rows, _, hrows, .delete key, rfl⟩

/-- A table that was set is there. -/
theorem table?_setTable (m : Memory) (name : String) (rows : Rows) : (m.setTable name rows).table? name = some rows :=
  Fields.get?_put_self m.tables name rows

/-- The other tables are as they were. -/
theorem table?_setTable_of_ne (m : Memory) {name other : String} (h : other ≠ name) (rows : Rows) :
    (m.setTable name rows).table? other = m.table? other :=
  Fields.get?_put_of_ne m.tables rows h

/-- What is in a store with a table set is this table, or was there. -/
theorem of_table?_setTable {name other : String} {rows found : Rows} (h : (m.setTable name rows).table? other = some found) :
    other = name ∧ found = rows ∨ m.table? other = some found := by
  by_cases hname : other = name
  · subst hname
    rw [table?_setTable] at h
    exact .inl ⟨rfl, (Option.some.inj h).symm⟩
  · rw [table?_setTable_of_ne m hname] at h
    exact .inr h

/-- What is in a store after documents are added was there, but for the documents. -/
theorem of_table?_seed {name other : String} {ds : List Document} {found : Rows}
    (h : (m.seed name ds).2.table? other = some found) :
    (∃ before, m.table? other = some before ∧ found = (seedRows before ds).2) ∨ m.table? other = some found := by
  rw [seed] at h
  cases hm : m.table? name with
  | none =>
    rw [hm] at h
    exact .inr h
  | some before =>
    rw [hm] at h
    rcases of_table?_setTable h with ⟨rfl, hfound⟩ | hfound
    · exact .inl ⟨before, hm, hfound⟩
    · exact .inr hfound

/-- What is in a store after a call was there, but for the change that the call makes. -/
theorem of_table?_answer {call : Call} {name : String} {found : Rows}
    (h : (Memory.answer call m).2.table? name = some found) :
    (∃ before, m.table? name = some before ∧ Change call before found) ∨ m.table? name = some found := by
  rw [Memory.answer] at h
  cases hm : m.failure with
  | some e =>
    rw [hm] at h
    exact .inr h
  | none =>
    rw [hm] at h
    change (m.act call).2.table? name = some found at h
    rcases act_cases m call with hact | ⟨before, after, hbefore, hchange, hact⟩
    · rw [hact] at h
      exact .inr h
    · rw [hact] at h
      rcases of_table?_setTable h with ⟨rfl, rfl⟩ | hfound
      · exact .inl ⟨before, hbefore, hchange⟩
      · exact .inr hfound

/-! ## Sound tables -/

/-- A store in which a table, if it is there, is sound. -/
def Sound (m : Memory) (t : Table) : Prop := ∀ rows, m.table? t.name = some rows → rows.Sound t

/-- Replacing a table, soundly where it is the one. -/
theorem Sound.setTable (h : m.Sound t) {name : String} {rows : Rows} (hr : t.name = name → rows.Sound t) :
    (m.setTable name rows).Sound t := by
  intro found hfound
  rcases of_table?_setTable hfound with ⟨hname, rfl⟩ | hfound
  · exact hr hname
  · exact h found hfound

/-- A new table is as its schema has it, and empty. -/
theorem Sound.withTable (h : m.Sound t) : (m.withTable t).Sound t := by
  intro rows hrows
  rcases of_table?_setTable hrows with ⟨-, rfl⟩ | hrows
  · exact ⟨rfl, rfl, nofun⟩
  · exact h rows hrows

/-- Adding documents keeps a table sound, also where one of them is refused. -/
theorem Sound.seed (h : m.Sound t) (name : String) (ds : List Document) : (m.seed name ds).2.Sound t := by
  intro rows hrows
  rcases of_table?_seed hrows with ⟨before, hbefore, rfl⟩ | hrows
  · exact (h before hbefore).seed ds
  · exact h rows hrows

/-- Every call keeps a table sound. -/
theorem Sound.answer (h : m.Sound t) (call : Call) : (Memory.answer call m).2.Sound t := by
  intro rows hrows
  rcases of_table?_answer hrows with ⟨before, hbefore, hchange⟩ | hrows
  · exact hchange.sound (h before hbefore)
  · exact h rows hrows

/-- Every program keeps a table sound, also where a cutoff ends it. -/
theorem Sound.run {α : Type} {env : Surroundings service Memory} (henv : env.answer = Memory.answer)
    {w : World service Memory} (h : w.store.Sound t) (cutoff : Option Nat) (time : Nat) (p : Program service α) :
    (p.run env cutoff time w).2.store.Sound t :=
  Program.run_keeps (P := fun (s : Memory) => s.Sound t) (fun call s hs => by rw [henv]; exact hs.answer call) h cutoff time p

end Memory

end DocQuery.Dynamo
