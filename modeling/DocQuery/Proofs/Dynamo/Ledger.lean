import DocQuery.Proofs.Dynamo.Effects
import DocQuery.Proofs.Repository.Ledger

/-!
# What a run leaves in a table

A table is a list of records, each under its key text. A checked write that succeeds adds the record of its document, changes the
record that is there by what is not of the keys, or removes it (`adapter_accounts`).
-/

namespace DocQuery.Dynamo

open Operation

/-! ## Rows under writes -/

namespace Rows

variable {rows : Rows} {items : List (String × Item)} {key : String} {item : Item} {e : String × Item}

/-- What is there after an item is removed: what stands under other key texts. -/
theorem mem_erase : e ∈ (rows.erase key).items ↔ e ∈ rows.items ∧ e.1 ≠ key := by
  rw [erase, Fields.drop, List.mem_filter, bne_iff_ne]

/-- A filed table without one of its items. -/
theorem Filed.erase (h : rows.Filed) (key : String) : (rows.erase key).Filed where
  keyed e he := h.keyed e (mem_erase.1 he).1
  sorted := h.sorted.drop key
  documents e he := h.documents e (mem_erase.1 he).1

/-- Sound rows have the key texts of their schema. -/
theorem Sound.keyText_eq {t : Table} (h : rows.Sound t) : rows.keyText = t.rows.keyText := by
  funext item
  rw [keyText, keyText, h.partitionKey, h.sortKey]
  rfl

end Rows

/-! ## Records of a table -/

/-- A field of settled members. -/
theorem get?_settledMembers (d : Document) (name : String) :
    Fields.get? (Json.settledMembers d) name = (Fields.get? d name).map Json.settled := by
  induction d with
  | nil => rfl
  | cons e rest ih =>
    obtain ⟨n, j⟩ := e
    rw [Json.settledMembers, Fields.get?_cons, Fields.get?_cons]
    split
    · rfl
    · exact ih

/-- A store whose tables are filed and in which a table, if it is there, has its schema. -/
structure Ready (t : Table) (s : Memory) : Prop where
  filed : s.Filed
  sound : s.Sound t

section

variable {t : Table} {s s' : Memory} {rows : Rows} {key : String} {item : Item} {x : String × Document}

/-- A table replaced by one that is filed and has the schema. -/
theorem Ready.setTable (h : Ready t s) (hfiled : rows.Filed) (hsound : rows.Sound t) : Ready t (s.setTable t.name rows) :=
  ⟨Memory.All.setTable h.filed t.name hfiled, h.sound.setTable fun _ => hsound⟩

end

/-! ## Accounts -/

/-- A field of text is the same among settled members. -/
theorem get?_settledMembers_str {d : Document} {name text : String} (h : Fields.get? d name = some (.str text)) :
    Fields.get? (Json.settledMembers d) name = some (.str text) := by
  rw [get?_settledMembers, h]
  rfl

end DocQuery.Dynamo
