import DocQuery.Proofs.Dynamo.Projection
import DocQuery.Proofs.Dynamo.Rows
import DocQuery.Proofs.Dynamo.Stored
import DocQuery.Proofs.Dynamo.Writes
import DocQuery.Proofs.Json.Quoted
import DocQuery.Proofs.Repository.Contract

/-!
# Tables keep the contract

A table without a sort key lists its records in the order of their key texts. A write is one conditional call, whose condition is
decided by the record that is there; so every operation comes to what the contract says.
-/

namespace DocQuery.Dynamo

open Cosmos (documentId?)
open Operation

/-! ## Rows of records -/

/-- The key text of the record with an identifier. -/
def keyOf (id : String) : String := (tagged "S" (.str id)).text

/-- Different identifiers have different key texts. -/
theorem keyOf_injective : Function.Injective keyOf := by
  intro a b h
  have hchars := congrArg String.toList h
  simp only [keyOf, tagged, Json.text, String.toList_ofList, Json.chars, Json.membersChars, List.cons.injEq, true_and,
    List.append_cancel_left_eq, List.append_cancel_right_eq] at hchars
  exact String.toList_inj.1 (Json.quote_injective hchars)

/-- A record as its table keeps it. -/
def rowOf (d : Document) : String × Item := (keyOf ((documentId? d).getD ""), ofDocument d)

theorem rowOf_eq {d : Document} {id : String} (h : documentId? d = some id) : rowOf d = (keyOf id, ofDocument d) := by
  rw [rowOf, h]
  rfl

/-- The rows of a table whose records are listed. -/
def rowsOf (ds : List Document) : Rows := ⟨"id", none, ds.map rowOf⟩

section

variable {ds as bs : List Document} {d old : Document} {id : String} {m : Records}

/-- The key text of an item is that of its identifier. -/
theorem keyText_rowsOf (ds : List Document) (h : Fields.get? d "id" = some (.str id)) :
    (rowsOf ds).keyText (ofDocument d) = .ok (keyOf id) := by
  simp only [Rows.keyText, rowsOf, get?_ofDocument, h, Option.map_some, bind, Except.bind]
  rfl

/-- Documents under other identifiers have other key texts. -/
theorem key_ne (hd : ∃ id, documentId? d = some id) (h : documentId? d ≠ some id) : (rowOf d).1 ≠ keyOf id := by
  obtain ⟨other, hother⟩ := hd
  rw [rowOf_eq hother]
  intro he
  exact h (hother.trans (congrArg some (keyOf_injective he)))

/-- The item under the key text of an identifier is that of the record. -/
theorem find?_rowsOf (h : Lists ds m) (id : String) : (rowsOf ds).find? (keyOf id) = (m id).map ofDocument := by
  rw [← h.find id]
  have hds := h.identified
  show Fields.get? (ds.map rowOf) (keyOf id) = _
  clear h
  induction ds with
  | nil => rfl
  | cons d ds ih =>
    have ih := ih fun d' hd' => hds d' (List.mem_cons_of_mem d hd')
    by_cases hid : documentId? d = some id
    · rw [List.map_cons, rowOf_eq hid, Fields.get?_cons, if_pos rfl, List.find?_cons_of_pos (by simpa using hid)]
      rfl
    · have hne := key_ne (hds d List.mem_cons_self) hid
      rw [List.map_cons, List.find?_cons_of_neg (by simpa using hid), ← ih]
      exact if_neg hne

/-- Rows without the item of a record. -/
theorem erase_rowsOf (h : Lists ds m) (hs : Rows.Sorted (ds.map rowOf)) (id : String) :
    ∃ es, (rowsOf ds).erase (keyOf id) = rowsOf es ∧ Rows.Sorted (es.map rowOf) ∧ Lists es (m.set id none) := by
  have hkept : ∀ es : List Document, (∀ d ∈ es, (∃ id, documentId? d = some id) ∧ documentId? d ≠ some id) →
      Fields.drop (es.map rowOf) (keyOf id) = es.map rowOf := by
    intro es hes
    refine List.filter_eq_self.2 fun e he => ?_
    obtain ⟨d, hd, rfl⟩ := List.mem_map.1 he
    exact bne_iff_ne.2 (key_ne (hes d hd).1 (hes d hd).2)
  cases hm : m id with
  | none =>
    have hdrop := hkept ds fun d hd => ⟨h.identified d hd, h.absent hm d hd⟩
    refine ⟨ds, congrArg (Rows.mk "id" none) hdrop, hs, ?_⟩
    rwa [Records.set_none hm]
  | some old =>
    obtain ⟨hold, as, bs, rfl⟩ := h.split hm
    have hlists := h.remove hold
    have hdrop := hkept (as ++ bs) fun d hd => ⟨hlists.identified d hd, h.around hold d hd⟩
    have hsub : List.Sublist (as ++ bs) (as ++ old :: bs) := (List.sublist_cons_self old bs).append_left as
    refine ⟨as ++ bs, congrArg (Rows.mk "id" none) ?_, hs.sublist (hsub.map rowOf), hlists⟩
    rw [← hdrop]
    simp only [Fields.drop, rowsOf, List.map_append, List.map_cons, List.filter_append, rowOf_eq hold]
    rw [List.filter_cons_of_neg (by simp)]

/-- Rows with the item of a record put in. -/
theorem put_rowsOf (h : Lists ds m) (hs : Rows.Sorted (ds.map rowOf)) (hid : documentId? d = some id) (hd : Storable d) :
    ∃ es, (rowsOf ds).put (keyOf id) (ofDocument d) = rowsOf es ∧ Rows.Sorted (es.map rowOf) ∧
      Lists es (m.set id (some d)) := by
  cases hm : m id with
  | none =>
    have hnew : keyOf id ∉ Fields.names (ds.map rowOf) := by
      intro hmem
      obtain ⟨e, he, hname⟩ := List.mem_map.1 hmem
      obtain ⟨d', hd', rfl⟩ := List.mem_map.1 he
      exact key_ne (h.identified d' hd') (h.absent hm d' hd') hname
    obtain ⟨as, bs, hsplit, hinsert, hsorted⟩ := Rows.insertSorted_new hs hnew (ofDocument d)
    obtain ⟨as, bs, rfl, rfl, rfl⟩ := List.map_eq_append_iff.1 hsplit
    have hrows : as.map rowOf ++ (keyOf id, ofDocument d) :: bs.map rowOf = (as ++ d :: bs).map rowOf := by
      rw [List.map_append, List.map_cons, rowOf_eq hid]
    rw [hrows] at hinsert hsorted
    exact ⟨as ++ d :: bs, congrArg (Rows.mk "id" none) hinsert, hsorted, h.put hm hid hd⟩
  | some old =>
    obtain ⟨hold, as, bs, rfl⟩ := h.split hm
    rw [List.map_append, List.map_cons, rowOf_eq hold] at hs
    have hrows : as.map rowOf ++ (keyOf id, ofDocument d) :: bs.map rowOf = (as ++ d :: bs).map rowOf := by
      rw [List.map_append, List.map_cons, rowOf_eq hid]
    have hinsert := Rows.insertSorted_replace hs (ofDocument d)
    have hsorted := hs.replace (ofDocument d)
    rw [hrows] at hinsert hsorted
    refine ⟨as ++ d :: bs, congrArg (Rows.mk "id" none) ?_, hsorted, h.replace hold hid hd⟩
    rw [← hinsert, rowsOf, List.map_append, List.map_cons, rowOf_eq hold]

end

/-! ## Tables that list records -/

/-- A store in whose table the rows of documents stand that list the records. -/
structure Holds (t : Table) (s : Memory) (m : Records) : Prop where
  failure : s.failure = none
  lists : ∃ ds, s.table? t.name = some (rowsOf ds) ∧ Rows.Sorted (ds.map rowOf) ∧ Lists ds m

/-- A table that has to be there. -/
theorem requireTable_eq {s : Memory} {name : String} {rows : Rows} (h : s.table? name = some rows) :
    s.requireTable name = .ok rows := by
  rw [Memory.requireTable, h]

section

variable {t : Table} {s : Memory} {m : Records} {id : String} {d : Document}

/-- A store holds other records once its table lists them. -/
theorem Holds.set {m' : Records} (h : Holds t s m) {es : List Document} (hs : Rows.Sorted (es.map rowOf)) (hes : Lists es m') :
    Holds t (s.setTable t.name (rowsOf es)) m' :=
  ⟨h.failure, es, Memory.table?_setTable s t.name _, hs, hes⟩

/-- A record as its table lists it. -/
theorem Holds.record (h : Holds t s m) (hm : m id = some d) : Storable d ∧ Fields.get? d "id" = some (.str id) := by
  obtain ⟨ds, -, -, hds⟩ := h.lists
  exact hds.stored hm

/-- The key of a record is the item of a document with its identifier alone. -/
theorem partitionItem_eq (ht : t.partitionKey = "id") (id : String) : partitionItem t id = ofDocument [("id", .str id)] := by
  rw [partitionItem, ht]
  rfl

/-- The request of a read. -/
def getRequest (t : Table) (id : String) (select : Select) : GetRequest :=
  ⟨t.name, partitionItem t id, (projection [] select).1, namesOf (projection [] select).2⟩

/-- Reading a record. -/
theorem get_eq (ht : t.partitionKey = "id") (h : Holds t s m) (id : String) (select : Select) :
    s.get (getRequest t id select) = .ok ((m id).map fun d => ofDocument (select.project d)) := by
  obtain ⟨ds, htable, -, hds⟩ := h.lists
  have hkey : (rowsOf ds).keyText (partitionItem t id) = .ok (keyOf id) := by
    rw [partitionItem_eq ht]
    exact keyText_rowsOf ds rfl
  have hprojection := parse_projection select (List.prefix_refl (projection [] select).2)
  simp only [Memory.get, getRequest, hprojection, requireTable_eq htable, hkey, find?_rowsOf hds, bind, Except.bind,
    Option.map_map]
  congr 2
  funext d
  exact projectItem_ofDocument select d

/-- A record has its key. -/
theorem has_key_of_get? (ht : t.partitionKey = "id") (hid : Fields.get? d "id" = some (.str id)) :
    Fields.has d t.partitionKey = true := by
  rw [ht, Fields.has, hid]
  rfl

/-- The request of a new record. -/
def putRequest (t : Table) (d : Document) (policy : WritePolicy) : PutRequest :=
  let condition := existence t Tables.empty policy "attribute_not_exists"
  ⟨t.name, ofDocument d, condition.1, condition.2.names, none⟩

/-- The request of a removal. -/
def deleteRequest (t : Table) (id : String) (policy : WritePolicy) : DeleteRequest :=
  let condition := existence t Tables.empty policy "attribute_exists"
  ⟨t.name, partitionItem t id, condition.1, condition.2.names⟩

/-- What a decision makes of the records. -/
def decided (before after : Records) : Except StoreError Unit → Records
  | .ok _ => after
  | .error _ => before

/-- Storing an item, as its condition decides. -/
theorem put_eq (ht : t.partitionKey = "id") (h : Holds t s m) (hid : Fields.get? d "id" = some (.str id)) (hd : Storable d)
    (policy : WritePolicy) :
    ∃ s', s.put (putRequest t d policy) = (decision policy false (m id), s') ∧
      Holds t s' (decided m (m.set id (some d)) (decision policy false (m id))) := by
  obtain ⟨ds, htable, hs, hds⟩ := h.lists
  obtain ⟨es, hput, hs', hes⟩ := put_rowsOf hds hs (documentId?_eq_some_iff.2 hid) hd
  have hcheck : Memory.checkCondition (putRequest t d policy).condition (putRequest t d policy).names []
      ((m id).map ofDocument) = decision policy false (m id) :=
    checkCondition_notExists (fun _ hm => (h.record hm).1.narrow) (fun _ hm => has_key_of_get? ht (h.record hm).2)
      Tables.empty policy
  have hvalues : Memory.plainValues (putRequest t d policy).values = .ok [] := rfl
  have hrequest : (putRequest t d policy).table = t.name ∧ (putRequest t d policy).item = ofDocument d := ⟨rfl, rfl⟩
  simp only [Memory.put, hvalues, hrequest, requireTable_eq htable, keyText_rowsOf ds hid, find?_rowsOf hds, hcheck, bind,
    Except.bind]
  cases decision policy false (m id) with
  | error e => exact ⟨s, rfl, h⟩
  | ok _ => exact ⟨_, by rw [hput]; rfl, h.set hs' hes⟩

/-- Removing an item, as its condition decides. -/
theorem delete_eq (ht : t.partitionKey = "id") (h : Holds t s m) (id : String) (policy : WritePolicy) :
    ∃ s', s.delete (deleteRequest t id policy) = (decision policy true (m id), s') ∧
      Holds t s' (decided m (m.set id none) (decision policy true (m id))) := by
  obtain ⟨ds, htable, hs, hds⟩ := h.lists
  obtain ⟨es, herase, hs', hes⟩ := erase_rowsOf hds hs id
  have hkey : (rowsOf ds).keyText (partitionItem t id) = .ok (keyOf id) := by
    rw [partitionItem_eq ht]
    exact keyText_rowsOf ds rfl
  have hcheck : Memory.checkCondition (deleteRequest t id policy).condition (deleteRequest t id policy).names []
      ((m id).map ofDocument) = decision policy true (m id) :=
    checkCondition_exists (fun _ hm => (h.record hm).1.narrow) (fun _ hm => has_key_of_get? ht (h.record hm).2)
      Tables.empty policy
  have hrequest : (deleteRequest t id policy).table = t.name ∧ (deleteRequest t id policy).key = partitionItem t id :=
    ⟨rfl, rfl⟩
  simp only [Memory.delete, hrequest, requireTable_eq htable, hkey, find?_rowsOf hds, hcheck, bind, Except.bind]
  cases decision policy true (m id) with
  | error e => exact ⟨s, rfl, h⟩
  | ok _ => exact ⟨_, by rw [herase]; rfl, h.set hs' hes⟩

/-- The request of an update. -/
def updateRequest (t : Table) (id : String) (changes : Document) (policy : WritePolicy) : UpdateRequest :=
  let assigned := assign Tables.empty changes
  let condition := existence t assigned.2 policy "attribute_exists"
  ⟨t.name, partitionItem t id, "SET " ++ String.intercalate ", " assigned.1, condition.1, condition.2.names,
    condition.2.values⟩

/-- The tables of an update bind its changes. -/
theorem updateRequest_values (t : Table) (id : String) (changes : Document) (policy : WritePolicy) :
    ∃ tables : Tables, (updateRequest t id changes policy).values = tables.values ∧
      tables.attributes = changes.map fun e => ofJson e.2 :=
  ⟨(existence t (assign Tables.empty changes).2 policy "attribute_exists").2, rfl,
    (existence_tables t _ policy _).1.trans (attributes_assign Tables.empty changes)⟩

/-- The assignments of an update are parsed as they were meant. -/
theorem parse_updateRequest (t : Table) (id : String) {changes : Document} (hne : changes ≠ []) (policy : WritePolicy) :
    Expression.parseAssignments (updateRequest t id changes policy).assignments (updateRequest t id changes policy).names =
      .ok (assignments 0 changes) :=
  parse_assign (existence_tables t _ policy _).2 hne

/-- Applying the assignments of an update to what is there, or to the key. -/
theorem applyAll_updateRequest (t : Table) (id : String) {rows : Rows} {changes : Document}
    (hkey : ∀ e ∈ changes, rows.isKey e.1 = false) (policy : WritePolicy) (item : Item) :
    Memory.applyAll rows (updateRequest t id changes policy).values item (assignments 0 changes) =
      .ok (Fields.putAll item (ofDocument changes)) := by
  obtain ⟨tables, hvalues, hattributes⟩ := updateRequest_values t id changes policy
  rw [hvalues]
  refine applyAll_assignments (fun i e he => ?_) hkey item
  rw [Nat.zero_add]
  refine values_get? ?_
  rw [hattributes, List.getElem?_map, he]
  rfl

/-- A record after changes; where there is none, they are made to the identifier alone. -/
def changed (m : Records) (id : String) (changes : Document) : Document :=
  Fields.putAll ((m id).getD [("id", .str id)]) changes

/-- Changing an item, as its condition decides. -/
theorem update_eq (ht : t.partitionKey = "id") (h : Holds t s m) {changes : Document} (hc : Changing changes) (id : String)
    (policy : WritePolicy) :
    ∃ s', s.update (updateRequest t id changes policy) =
        ((decision policy true (m id)).map fun _ => some (ofDocument (changed m id changes)), s') ∧
      Storable (changed m id changes) ∧
      Holds t s' (decided m (m.set id (some (changed m id changes))) (decision policy true (m id))) := by
  obtain ⟨ds, htable, hs, hds⟩ := h.lists
  have hkey : (rowsOf ds).keyText (partitionItem t id) = .ok (keyOf id) := by
    rw [partitionItem_eq ht]
    exact keyText_rowsOf ds rfl
  obtain ⟨values, hvalues⟩ : ∃ values, Memory.plainValues (updateRequest t id changes policy).values = .ok values := by
    obtain ⟨tables, htables, hattributes⟩ := updateRequest_values t id changes policy
    rw [htables]
    exact plainValues_of_changes hattributes
  have hcheck : Memory.checkCondition (updateRequest t id changes policy).condition (updateRequest t id changes policy).names
      values ((m id).map ofDocument) = decision policy true (m id) :=
    checkCondition_exists (fun _ hm => (h.record hm).1.narrow) (fun _ hm => has_key_of_get? ht (h.record hm).2) _ _
  have hbase : ((m id).map ofDocument).getD (partitionItem t id) = ofDocument ((m id).getD [("id", .str id)]) := by
    rw [partitionItem_eq ht]
    cases m id <;> rfl
  have hold : Storable ((m id).getD [("id", .str id)]) ∧
      Fields.get? ((m id).getD [("id", .str id)]) "id" = some (.str id) := by
    cases hm : m id with
    | none => exact ⟨Storable.ofId id, rfl⟩
    | some d => exact hds.stored hm
  have hstorable : Storable (changed m id changes) := hold.1.putAll hc.storable
  have hkeys : ∀ e ∈ changes, (rowsOf ds).isKey e.1 = false := by
    intro e he
    have hne : e.1 ≠ "id" := fun hid => hc.not_id (List.mem_map.2 ⟨e, he, hid⟩)
    simpa [Rows.isKey, rowsOf] using hne
  have happly := applyAll_updateRequest t id hkeys policy (ofDocument ((m id).getD [("id", .str id)]))
  rw [putAll_ofDocument] at happly
  obtain ⟨es, hput, hs', hes⟩ := put_rowsOf hds hs (documentId?_eq_some_iff.2 (hc.get?_id hold.2)) hstorable
  have hrequest : (updateRequest t id changes policy).table = t.name ∧
    (updateRequest t id changes policy).key = partitionItem t id := ⟨rfl, rfl⟩
  simp only [Memory.update, hvalues, parse_updateRequest t id hc.ne_nil policy, hrequest, requireTable_eq htable, hkey,
    find?_rowsOf hds, hcheck, hbase, happly, Except.mapError, bind, Except.bind]
  cases decision policy true (m id) with
  | error e => exact ⟨s, rfl, hstorable, h⟩
  | ok _ => exact ⟨_, by rw [changed, hput]; rfl, hstorable, h.set hs' hes⟩

end

/-! ## Decisions on records -/

section

variable {m : Records} {policy : WritePolicy} {id : String}

/-- A decision is that the write takes place, or that it is refused. -/
theorem decision_cases (policy : WritePolicy) (wanted : Bool) (found : Option Document) :
    decision policy wanted found = .ok () ∨ ∃ reason, decision policy wanted found = .error (.conditionalCheckFailed reason) := by
  cases policy with
  | unchecked => exact Or.inl rfl
  | existenceChecked =>
    rw [decision]
    split
    · exact Or.inl rfl
    · exact Or.inr ⟨_, rfl⟩

theorem insert_of_ok (h : decision policy false (m id) = .ok ()) (d : Document) :
    m.insert policy id d = (.ok d, m.set id (some d)) := by
  cases policy with
  | unchecked => exact Records.insert_unchecked m id d
  | existenceChecked =>
    cases hm : m id with
    | none => exact Records.insert_free hm _ d
    | some old => rw [hm] at h; cases h

theorem insert_of_error {e : StoreError} (h : decision policy false (m id) = .error e) (d : Document) :
    m.insert policy id d = (.error .alreadyExists, m) := by
  cases policy with
  | unchecked => cases h
  | existenceChecked =>
    cases hm : m id with
    | none => rw [hm] at h; cases h
    | some old => exact Records.insert_taken hm d

theorem update_of_ok (h : decision policy true (m id) = .ok ()) (changes : Document) :
    m.update policy id changes = (.ok (changed m id changes), m.set id (some (changed m id changes))) := by
  cases policy with
  | unchecked => exact Records.update_unchecked m id changes
  | existenceChecked =>
    cases hm : m id with
    | none => rw [hm] at h; cases h
    | some old =>
      rw [changed, hm]
      exact Records.update_found hm _ changes

theorem update_of_error {e : StoreError} (h : decision policy true (m id) = .error e) (changes : Document) :
    m.update policy id changes = (.error .notFound, m) := by
  cases policy with
  | unchecked => cases h
  | existenceChecked =>
    cases hm : m id with
    | none => exact Records.update_missing hm changes
    | some old => rw [hm] at h; cases h

theorem delete_of_ok (h : decision policy true (m id) = .ok ()) : m.delete policy id = (.ok (), m.set id none) := by
  cases policy with
  | unchecked => exact Records.delete_unchecked m id
  | existenceChecked =>
    cases hm : m id with
    | none => rw [hm] at h; cases h
    | some old => exact Records.delete_found hm _

theorem delete_of_error {e : StoreError} (h : decision policy true (m id) = .error e) :
    m.delete policy id = (.error .notFound, m) := by
  cases policy with
  | unchecked => cases h
  | existenceChecked =>
    cases hm : m id with
    | none => exact Records.delete_missing hm
    | some old => rw [hm] at h; cases h

end

/-! ## Operations -/

/-- The store of tables, with a clock and a source of identifiers. -/
def surroundings (clock : Nat → Instant) (ids : Nat → String) : Surroundings service Memory := ⟨Memory.answer, clock, ids, 0⟩

section

variable {clock : Nat → Instant} {ids : Nat → String} {t : Table} {w : World service Memory} {m : Records} {d : Document}

/-- The item of a storable document is read as that. -/
theorem readItem_ofDocument (h : Storable d) : readItem (ofDocument d) = .ok d := by
  rw [readItem, toDocument_ofDocument h.narrow]
  rfl

/-- A projection of a storable document is storable. -/
theorem storable_project (h : Storable d) (select : Select) : Storable (select.project d) := by
  rw [Select.project]
  cases select.selected? with
  | none => exact h
  | some names => exact fun e he => h e (Select.mem_of_mem_pick he)

/-- The document of an item that may be missing. -/
def readFound : Option Item → Operation service (Option Document)
  | some item => (Operation.of (readItem item)).map some
  | none => return none

/-- Finding a record by its identifier. -/
theorem findById_brings (ht : t.partitionKey = "id") (hs : t.sortKey = none) (m : Records) (id : String) (select : Select) :
    (findById t id select).Brings (surroundings clock ids) (Holds t) m
      (fun r => ∃ found, r = .ok found ∧ found.map select.project = (m id).map select.project) m := by
  have hfind : findById t id select = (do
      let item : Option Item ← ask (.get (getRequest t id select))
      readFound item) := by
    rw [findById, hs]
    rfl
  intro w h
  have hact := congrArg (·, w.store) (get_eq ht h id select)
  have hask := Yields.call (surroundings clock ids) (.get (getRequest t id select)) (answerUnless_of_none h.failure hact)
    (·.mapError .storeFailure)
  refine ⟨.ok ((m id).map select.project), { w with log := w.log ++ [.get (getRequest t id select)] }, ?_, ⟨_, rfl, ?_⟩, h, rfl,
    rfl⟩
  · rw [hfind]
    refine Yields.bind rfl hask ?_
    cases hm : m id with
    | none => rfl
    | some d =>
      have hread := readItem_ofDocument (storable_project (h.record hm).1 select)
      simp only [Option.map_some, readFound, hread]
      rfl
  · rw [Option.map_map]
    congr 1
    funext d
    exact select.project_project d

variable (clock ids) in
/-- A write whose condition is decided, and what becomes of the decision. -/
theorem write_yields (h : Holds t w.store m) (call : service.Call) {answer : Except StoreError (service.Answer call)}
    {s : Memory} (hact : w.store.act call = (answer, s)) (refusal : Error) :
    (write call refusal).Yields (surroundings clock ids) w
      (answer.mapError fun | .conditionalCheckFailed _ => refusal | e => .storeFailure e)
      { w with log := w.log ++ [call], store := s } :=
  Yields.call (surroundings clock ids) call (answerUnless_of_none h.failure hact) _

/-- Storing a new record that has its keys is one call. -/
theorem insert_call {id : String} (hid : Fields.get? d t.partitionKey = some (.str id))
    (hs : ∀ sortKey, t.sortKey = some sortKey → Fields.has d sortKey = true) (policy : WritePolicy) : insert t d policy = (do
      let _ ← write (.put (putRequest t d policy)) (.alreadyExists id)
      return d) := by
  rw [insert, hid]
  cases hsort : t.sortKey with
  | none => rfl
  | some sortKey =>
    simp only [hs sortKey hsort]
    rfl

/-- Storing a new record keeps the contract. -/
theorem insert_brings (ht : t.partitionKey = "id") (hs : t.sortKey = none) (m : Records) (policy : WritePolicy) {id : String}
    (hd : Storable d) (hid : Fields.get? d "id" = some (.str id)) :
    (insert t d policy).Brings (surroundings clock ids) (Holds t) m (fun r => outcome r = (m.insert policy id d).1)
      (m.insert policy id d).2 := by
  rw [insert_call (by rwa [ht]) (fun _ hsort => nomatch hs.symm.trans hsort) policy]
  intro w h
  obtain ⟨s, hput, hholds⟩ := put_eq ht h hid hd policy
  have hwrite := write_yields clock ids h (.put (putRequest t d policy)) hput (.alreadyExists id)
  rcases decision_cases policy false (m id) with hok | ⟨reason, herror⟩
  · rw [hok] at hwrite hholds
    rw [insert_of_ok hok]
    exact ⟨.ok d, _, hwrite.bind rfl (.pure _ _), rfl, hholds, rfl, rfl⟩
  · rw [herror] at hwrite hholds
    rw [insert_of_error herror]
    exact ⟨_, _, hwrite.bind_error rfl _, rfl, hholds, rfl, rfl⟩

/-- The document of the item that an update answers with. -/
def readUpdated : Option Item → Operation service Document
  | some item => Operation.of (readItem item)
  | none => throw (.contractViolation .noAttributes)

/-- Changing a record in a table without a sort key is one call, with the changes of other fields than the key. -/
theorem update_call {changes : Document} (hs : t.sortKey = none) (hne : (changes.filter fun e => !t.isKey e.1) ≠ [])
    (id : String) (policy : WritePolicy) : update t id changes policy = (do
      let stored : Option Item ← write (.update (updateRequest t id (changes.filter fun e => !t.isKey e.1) policy)) (.notFound id)
      readUpdated stored) := by
  rw [update, resolveKey, hs]
  simp only [List.isEmpty_eq_false_iff.2 hne]
  rfl

/-- Changing a record keeps the contract. -/
theorem update_brings (ht : t.partitionKey = "id") (hs : t.sortKey = none) (m : Records) (policy : WritePolicy) (id : String)
    {changes : Document} (hc : Changing changes) :
    (update t id changes policy).Brings (surroundings clock ids) (Holds t) m
      (fun r => outcome r = (m.update policy id changes).1) (m.update policy id changes).2 := by
  have hchanges : changes.filter (fun e => !t.isKey e.1) = changes := by
    refine List.filter_eq_self.2 fun e he => ?_
    have hne : e.1 ≠ "id" := fun hid => hc.not_id (List.mem_map.2 ⟨e, he, hid⟩)
    simpa [Table.isKey, ht, hs] using hne
  rw [update_call hs (hchanges.symm ▸ hc.ne_nil) id policy, hchanges]
  intro w h
  obtain ⟨s, hact, hstorable, hholds⟩ := update_eq ht h hc id policy
  have hwrite := write_yields clock ids h (.update (updateRequest t id changes policy)) hact (.notFound id)
  rcases decision_cases policy true (m id) with hok | ⟨reason, herror⟩
  · rw [hok] at hwrite hholds
    rw [update_of_ok hok]
    have hread := readItem_ofDocument hstorable
    refine ⟨.ok (changed m id changes), { w with log := w.log ++ [.update (updateRequest t id changes policy)], store := s },
      hwrite.bind rfl ?_, rfl, hholds, rfl, rfl⟩
    simp only [readUpdated, hread]
    exact .of _ _
  · rw [herror] at hwrite hholds
    rw [update_of_error herror]
    exact ⟨_, _, hwrite.bind_error rfl _, rfl, hholds, rfl, rfl⟩

/-- Removing a record from a table without a sort key is one call. -/
theorem delete_call (hs : t.sortKey = none) (id : String) (policy : WritePolicy) :
    delete t id policy = write (.delete (deleteRequest t id policy)) (.notFound id) := by
  unfold delete resolveKey
  rw [hs]
  rfl

/-- Removing a record keeps the contract. -/
theorem delete_brings (ht : t.partitionKey = "id") (hs : t.sortKey = none) (m : Records) (policy : WritePolicy) (id : String) :
    (delete t id policy).Brings (surroundings clock ids) (Holds t) m (fun r => outcome r = (m.delete policy id).1)
      (m.delete policy id).2 := by
  rw [delete_call hs id policy]
  intro w h
  obtain ⟨s, hact, hholds⟩ := delete_eq ht h id policy
  have hwrite := write_yields clock ids h (.delete (deleteRequest t id policy)) hact (.notFound id)
  rcases decision_cases policy true (m id) with hok | ⟨reason, herror⟩
  · rw [hok] at hwrite hholds
    rw [delete_of_ok hok]
    exact ⟨_, _, hwrite, rfl, hholds, rfl, rfl⟩
  · rw [herror] at hwrite hholds
    rw [delete_of_error herror]
    exact ⟨_, _, hwrite, rfl, hholds, rfl, rfl⟩

/-- The operations on a table that is partitioned by the identifier, without a sort key, keep the contract. -/
theorem adapter_keeps (ht : t.partitionKey = "id") (hs : t.sortKey = none) :
    (adapter t).Keeps (surroundings clock ids) (Holds t) where
  idField := ht
  findById := findById_brings ht hs
  insert := fun m policy _ _ hd hid => insert_brings ht hs m policy hd hid
  update := fun m policy id _ hc => update_brings ht hs m policy id hc
  delete := delete_brings ht hs

end

end DocQuery.Dynamo
