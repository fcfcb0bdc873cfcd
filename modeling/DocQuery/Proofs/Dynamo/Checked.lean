import DocQuery.Proofs.Dynamo.Contract
import DocQuery.Proofs.Dynamo.Tables
import DocQuery.Proofs.Repository.Consistency

/-!
# Checked writes of an item

In a table without a sort key a checked write is one call, and its condition looks at the item that is there at that moment. So the
write takes effect by that call alone, whatever stands in the rest of the table (`adapter_decides`).
-/

namespace DocQuery.Dynamo

/-! ## Tables with a readable item -/

/-- A call that may change a table. -/
def Call.Writes : Call → Prop
  | .scan _ | .query _ | .get _ => False
  | .put _ | .update _ | .delete _ => True

/-- Whether a table has an item under the key text of an identifier. -/
def Memory.has (s : Memory) (t : Table) (id : String) : Bool :=
  (s.table? t.name).any fun rows => (rows.find? (keyOf id)).isSome

/-- A store without a failure in its way, in which a table stands whose item under the key text of an identifier, if there is one,
can be read. Under one key text there is one item at most. -/
structure Single (t : Table) (id : String) (s : Memory) : Prop where
  failure : s.failure = none
  table : ∃ rows, s.table? t.name = some rows ∧ rows.Sound t ∧
    ∀ item, rows.find? (keyOf id) = some item → ∃ d, toDocument item = .ok d

/-- A table in which it is watched whether an item is there. -/
def watch (clock : Nat → Instant) (ids : Nat → String) (t : Table) (id : String) : Watch service Memory where
  env := surroundings clock ids
  Fit := Single t id
  there s := s.has t id

namespace Rows

/-- An item that is put in is found. -/
theorem find?_put (rows : Rows) (key : String) (item : Item) : (rows.put key item).find? key = some item := by
  obtain ⟨partitionKey, sortKey, items⟩ := rows
  show Fields.get? (insertSorted key item items) key = some item
  induction items with
  | nil => exact if_pos rfl
  | cons e items ih =>
    obtain ⟨k, i⟩ := e
    rw [insertSorted]
    cases hcompare : compare key k with
    | lt => exact if_pos rfl
    | eq => exact if_pos rfl
    | gt =>
      have hne : k ≠ key := by
        rintro rfl
        rw [compare_self] at hcompare
        cases hcompare
      exact (if_neg hne).trans ih

/-- An item that is removed is not found. -/
theorem find?_erase (rows : Rows) (key : String) : (rows.erase key).find? key = none := by
  refine Fields.get?_eq_none_iff.2 fun hmem => ?_
  obtain ⟨e, he, hname⟩ := List.mem_map.1 hmem
  simp [erase, Fields.drop, hname] at he

end Rows

/-- A document has the names of its item. -/
theorem names_of_toDocument {item : Item} {d : Document} (h : toDocument item = .ok d) : Fields.names d = Fields.names item := by
  rw [toDocument] at h
  induction item generalizing d with
  | nil => cases h; rfl
  | cons e item ih =>
    rw [toMembers] at h
    obtain ⟨j, -, h⟩ := of_bind_eq_ok h
    obtain ⟨rest, hrest, h⟩ := of_bind_eq_ok h
    cases h
    exact congrArg (e.1 :: ·) (ih hrest)

section

variable {t : Table} {id : String} {s : Memory} {rows : Rows} {item : Item}

/-- The key text of an item in a table without a sort key. -/
theorem keyText_eq (h : rows.Sound t) (hs : t.sortKey = none) (hid : item.get? t.partitionKey = some (ofJson (.str id))) :
    rows.keyText item = .ok (keyOf id) := by
  rw [Rows.keyText, h.partitionKey, h.sortKey, hs, hid]
  rfl

/-- The key text of a document's item. -/
theorem keyText_ofDocument (h : rows.Sound t) (hs : t.sortKey = none) {d : Document}
    (hid : Fields.get? d t.partitionKey = some (.str id)) : rows.keyText (ofDocument d) = .ok (keyOf id) :=
  keyText_eq h hs ((get?_ofDocument d _).trans (congrArg (Option.map ofJson) hid))

/-- The key text of a key. -/
theorem keyText_partitionItem (h : rows.Sound t) (hs : t.sortKey = none) (id : String) :
    rows.keyText (partitionItem t id) = .ok (keyOf id) :=
  keyText_eq h hs (if_pos rfl)

/-- An item that is there has its key. -/
theorem has_key_of_find? (h : rows.Sound t) {key : String} (hfind : rows.find? key = some item) {d : Document}
    (hd : toDocument item = .ok d) : Fields.has d t.partitionKey = true := by
  have hkey := h.keyed _ (Fields.mem_of_get? hfind)
  rw [Fields.has, Option.isSome_iff_ne_none]
  intro hnone
  have hitem : item.get? t.partitionKey = none := by
    rw [Fields.get?_eq_none_iff, names_of_toDocument hd] at hnone
    exact Fields.get?_eq_none_iff.2 hnone
  rw [Rows.keyText, h.partitionKey, hitem] at hkey
  cases hkey

/-- An item with changes written into it can be read. -/
theorem toDocument_putAll (h : ∃ d, toDocument item = .ok d) (changes : Document) :
    ∃ d, toDocument (Fields.putAll item (ofDocument changes)) = .ok d := by
  refine toDocument_ok_iff.2 fun e he => ?_
  rcases Fields.mem_putAll he with he | he
  · exact toJson_of_toMembers (toMembers_ofMembers changes) e he
  · exact toDocument_ok_iff.1 h e he

/-- A table that lists records has a readable item at most of every identifier. -/
theorem Holds.single {m : Records} (h : Holds t s m) (ht : t.partitionKey = "id") (hs : t.sortKey = none) (id : String) :
    Single t id s := by
  obtain ⟨ds, htable, -, hds⟩ := h.lists
  refine ⟨h.failure, rowsOf ds, htable, ⟨ht.symm, hs.symm, fun e he => ?_⟩, fun item hitem => ?_⟩
  · obtain ⟨d, hd, rfl⟩ := List.mem_map.1 he
    obtain ⟨other, hother⟩ := hds.identified d hd
    rw [rowOf_eq hother]
    exact keyText_rowsOf ds (documentId?_eq_some_iff.1 hother)
  · rw [find?_rowsOf hds] at hitem
    obtain ⟨d, -, rfl⟩ := Option.map_eq_some_iff.1 hitem
    exact ⟨_, toMembers_ofMembers d⟩

/-- The item of an identifier is there if it is found. -/
theorem has_eq (htable : s.table? t.name = some rows) : s.has t id = (rows.find? (keyOf id)).isSome := by
  rw [Memory.has, htable, Option.any_some]

/-- A table with a readable item put in. -/
theorem Single.put (h : Single t id s) (hsound : rows.Sound t) (hkey : rows.keyText item = .ok (keyOf id)) {d : Document}
    (hd : toDocument item = .ok d) :
    Single t id (s.setTable t.name (rows.put (keyOf id) item)) ∧ (s.setTable t.name (rows.put (keyOf id) item)).has t id = true := by
  have hset := Memory.table?_setTable s t.name (rows.put (keyOf id) item)
  have hfound := Rows.find?_put rows (keyOf id) item
  refine ⟨⟨h.failure, _, hset, hsound.put hkey, fun other hother => ⟨d, ?_⟩⟩, ?_⟩
  · obtain rfl : item = other := Option.some.inj (hfound.symm.trans hother)
    exact hd
  · rw [has_eq hset, hfound]
    rfl

/-- A table without the item. -/
theorem Single.erase (h : Single t id s) (hsound : rows.Sound t) :
    Single t id (s.setTable t.name (rows.erase (keyOf id))) ∧ (s.setTable t.name (rows.erase (keyOf id))).has t id = false := by
  have hset := Memory.table?_setTable s t.name (rows.erase (keyOf id))
  have hgone := Rows.find?_erase rows (keyOf id)
  refine ⟨⟨h.failure, _, hset, hsound.erase (keyOf id), fun other hother => ?_⟩, ?_⟩
  · rw [hgone] at hother
    cases hother
  · rw [has_eq hset, hgone]
    rfl

end

/-! ## Calls -/

/-- How a conditional write is refused. -/
def refusal : StoreError := .conditionalCheckFailed "The conditional request failed"

section

variable {t : Table} {id key : String} {s : Memory} {rows : Rows} {d changes : Document}

section

variable (htable : s.table? t.name = some rows) (hsound : rows.Sound t)
  (hread : ∀ item, rows.find? key = some item → ∃ d, toDocument item = .ok d)

include hsound hread in
/-- The item that is there can be read, and has its key. -/
theorem readable_found (item : Item) (h : rows.find? key = some item) :
    ∃ d, toDocument item = .ok d ∧ Fields.has d t.partitionKey = true := by
  obtain ⟨d, hd⟩ := hread item h
  exact ⟨d, hd, has_key_of_find? hsound h hd⟩

include htable hsound hread in
/-- Storing a new item, unless there is one under its key text. -/
theorem put_checked (hkey : rows.keyText (ofDocument d) = .ok key) :
    s.put (putRequest t d .existenceChecked) = match rows.find? key with
      | none => (.ok (), s.setTable t.name (rows.put key (ofDocument d)))
      | some _ => (.error refusal, s) := by
  have hcheck : Memory.checkCondition (putRequest t d .existenceChecked).condition (putRequest t d .existenceChecked).names []
      (rows.find? key) = _ := checkCondition_unwanted (readable_found hsound hread) Tables.empty
  have hvalues : Memory.plainValues (putRequest t d .existenceChecked).values = .ok [] := rfl
  have hrequest : (putRequest t d .existenceChecked).table = t.name ∧ (putRequest t d .existenceChecked).item = ofDocument d :=
    ⟨rfl, rfl⟩
  simp only [Memory.put, hvalues, hrequest, requireTable_eq htable, hkey, hcheck, bind, Except.bind]
  cases rows.find? key <;> rfl

end

section

variable (htable : s.table? t.name = some rows) (hsound : rows.Sound t) (hs : t.sortKey = none)
  (hread : ∀ item, rows.find? (keyOf id) = some item → ∃ d, toDocument item = .ok d)

include htable hsound hs hread in
/-- Changing an item that is there. -/
theorem update_checked (hne : changes ≠ []) (hkeys : ∀ e ∈ changes, rows.isKey e.1 = false) :
    s.update (updateRequest t id changes .existenceChecked) = match rows.find? (keyOf id) with
      | none => (.error refusal, s)
      | some item => (.ok (some (Fields.putAll item (ofDocument changes))),
          s.setTable t.name (rows.put (keyOf id) (Fields.putAll item (ofDocument changes)))) := by
  obtain ⟨values, hvalues⟩ : ∃ values, Memory.plainValues (updateRequest t id changes .existenceChecked).values = .ok values := by
    obtain ⟨tables, htables, hattributes⟩ := updateRequest_values t id changes .existenceChecked
    rw [htables]
    exact plainValues_of_changes hattributes
  have hcheck : Memory.checkCondition (updateRequest t id changes .existenceChecked).condition
      (updateRequest t id changes .existenceChecked).names values (rows.find? (keyOf id)) = _ :=
    checkCondition_wanted (readable_found hsound hread) (assign Tables.empty changes).2
  have happly := applyAll_updateRequest t id hkeys .existenceChecked
  have hrequest : (updateRequest t id changes .existenceChecked).table = t.name ∧
    (updateRequest t id changes .existenceChecked).key = partitionItem t id := ⟨rfl, rfl⟩
  simp only [Memory.update, hvalues, parse_updateRequest t id hne .existenceChecked, hrequest, requireTable_eq htable,
    keyText_partitionItem hsound hs id, hcheck, happly, Except.mapError, bind, Except.bind]
  cases rows.find? (keyOf id) <;> rfl

include htable hsound hs hread in
/-- Removing an item that is there. -/
theorem delete_checked : s.delete (deleteRequest t id .existenceChecked) = match rows.find? (keyOf id) with
      | none => (.error refusal, s)
      | some _ => (.ok (), s.setTable t.name (rows.erase (keyOf id))) := by
  have hcheck : Memory.checkCondition (deleteRequest t id .existenceChecked).condition
      (deleteRequest t id .existenceChecked).names [] (rows.find? (keyOf id)) = _ :=
    checkCondition_wanted (readable_found hsound hread) Tables.empty
  have hrequest : (deleteRequest t id .existenceChecked).table = t.name ∧
    (deleteRequest t id .existenceChecked).key = partitionItem t id := ⟨rfl, rfl⟩
  simp only [Memory.delete, hrequest, requireTable_eq htable, keyText_partitionItem hsound hs id, hcheck, bind, Except.bind]
  cases rows.find? (keyOf id) <;> rfl

end

end

/-! ## Writes -/

section

variable {clock : Nat → Instant} {ids : Nat → String} {t : Table} {id : String} {d changes : Document} {n : Nat}

/-- A call that writes settles a write, by what it does to a table with a readable item. -/
theorem settles_act {α : Type} {w : Write} {call : Call} (hcall : call.Writes)
    {next : Except StoreError call.Answer → Program service (Except Error α)}
    (h : ∀ s rows, s.table? t.name = some rows → rows.Sound t →
      (∀ item, rows.find? (keyOf id) = some item → ∃ d, toDocument item = .ok d) → Single t id s →
      ∃ answer after r there, s.act call = (answer, after) ∧ Single t id after ∧ after.has t id = there ∧
        next answer = .done r ∧ w.Settles id r (rows.find? (keyOf id)).isSome there) :
    (Program.call (I := service) call next).Settles (watch clock ids t id) (w.verdict Call.Writes id) (n + 1) := by
  refine Program.settles_call fun s hfit => ?_
  obtain ⟨rows, htable, hsound, hread⟩ := Single.table hfit
  obtain ⟨answer, after, r, there, hact, hafter, hthere, hend, hr⟩ := h s rows htable hsound hread hfit
  refine ⟨answer, after, answerUnless_of_none hfit.failure hact, hafter, .inl ⟨r, hend, ?_, fun _ => hcall⟩⟩
  show w.Settles id r (s.has t id) (after.has t id)
  rwa [has_eq htable, hthere]

/-- Creating an item settles. -/
theorem insert_settles (hs : t.sortKey = none) (hid : Fields.get? d t.partitionKey = some (.str id)) :
    (ExceptT.run (insert t d .existenceChecked)).Settles (watch clock ids t id) (Write.create.verdict Call.Writes id) (n + 1) := by
  rw [insert_call hid (fun _ hsort => nomatch hs.symm.trans hsort)]
  refine settles_act (by trivial) fun s rows htable hsound hread hfit => ?_
  have hput := put_checked htable hsound hread (keyText_ofDocument hsound hs hid)
  cases hfind : rows.find? (keyOf id) with
  | none =>
    rw [hfind] at hput
    obtain ⟨hafter, hthere⟩ := hfit.put hsound (keyText_ofDocument hsound hs hid) (toMembers_ofMembers d)
    exact ⟨_, _, _, _, hput, hafter, hthere, rfl, .created d⟩
  | some item =>
    rw [hfind] at hput
    exact ⟨_, _, _, _, hput, hfit, (has_eq htable).trans (congrArg Option.isSome hfind), rfl, .taken⟩

/-- Changing an item settles. -/
theorem update_settles (hs : t.sortKey = none) (hsome : ∃ name ∈ Fields.names changes, name ≠ t.partitionKey) :
    (ExceptT.run (update t id changes .existenceChecked)).Settles (watch clock ids t id) (Write.update.verdict Call.Writes id)
      (n + 1) := by
  have hne : (changes.filter fun e => !t.isKey e.1) ≠ [] := by
    obtain ⟨name, hname, hkey⟩ := hsome
    obtain ⟨e, he, rfl⟩ := List.mem_map.1 hname
    exact List.ne_nil_of_mem (List.mem_filter.2 ⟨he, by simpa [Table.isKey, hs] using hkey⟩)
  rw [update_call hs hne]
  refine settles_act (by trivial) fun s rows htable hsound hread hfit => ?_
  have hkeys : ∀ e ∈ changes.filter fun e => !t.isKey e.1, rows.isKey e.1 = false := fun e he => by
    simpa [hsound.isKey_eq] using (List.mem_filter.1 he).2
  -- the adapter has dropped the changes of the key, so the store gets only the others
  generalize changes.filter (fun e => !t.isKey e.1) = changes at hne hkeys
  have hupdate := update_checked htable hsound hs hread hne hkeys
  cases hfind : rows.find? (keyOf id) with
  | none =>
    rw [hfind] at hupdate
    exact ⟨_, _, _, _, hupdate, hfit, (has_eq htable).trans (congrArg Option.isSome hfind), rfl, .missing (by decide)⟩
  | some item =>
    rw [hfind] at hupdate
    have happly := applyAll_updateRequest t id hkeys .existenceChecked item
    have hkey : rows.keyText (Fields.putAll item (ofDocument changes)) = .ok (keyOf id) :=
      (Rows.keyText_applyAll happly).trans (hsound.keyed _ (Fields.mem_of_get? hfind))
    obtain ⟨d, hd⟩ := toDocument_putAll (hread item hfind) changes
    obtain ⟨hafter, hthere⟩ := hfit.put hsound hkey hd
    have hread : readItem (Fields.putAll item (ofDocument changes)) = .ok d := by
      rw [readItem, hd]
      rfl
    refine ⟨_, _, .ok d, _, hupdate, hafter, hthere, ?_, .updated d⟩
    show ExceptT.run (readUpdated (some (Fields.putAll item (ofDocument changes)))) = _
    rw [readUpdated, hread]
    rfl

/-- Removing an item settles. -/
theorem delete_settles (hs : t.sortKey = none) :
    (ExceptT.run (delete t id .existenceChecked)).Settles (watch clock ids t id) (Write.delete.verdict Call.Writes id) (n + 1) := by
  rw [delete_call hs]
  refine settles_act (by trivial) fun s rows htable hsound hread hfit => ?_
  have hdelete := delete_checked htable hsound hs hread
  cases hfind : rows.find? (keyOf id) with
  | none =>
    rw [hfind] at hdelete
    exact ⟨_, _, _, _, hdelete, hfit, (has_eq htable).trans (congrArg Option.isSome hfind), rfl, .missing (by decide)⟩
  | some item =>
    rw [hfind] at hdelete
    obtain ⟨hafter, hthere⟩ := hfit.erase hsound
    exact ⟨_, _, _, _, hdelete, hafter, hthere, rfl, .deleted ()⟩

/-- The checked writes of an item in a table without a sort key settle. -/
theorem adapter_decides (hs : t.sortKey = none) : (adapter t).Decides (watch clock ids t id) Call.Writes id where
  insert _ hid := insert_settles hs hid
  update _ hsome := update_settles hs hsome
  delete := delete_settles hs

end

end DocQuery.Dynamo
