import DocQuery.Proofs.Dynamo.First
import DocQuery.Proofs.Dynamo.Identity
import DocQuery.Proofs.Dynamo.Ledger

/-!
# The keys of records that were found

In a table with a sort key a write first reads the record and makes the key of what it has read. As long as no integer of the keys is
beyond the signed 64-bit ones, the sort value is read as it was written, so the key addresses the very item that was read
(`keyOfFound_address`), and a call under it reaches this item alone.
-/

namespace DocQuery.Dynamo

open Operation

variable {t : Table} {rows : Rows} {id : String}

/-! ## Keys without large integers -/

namespace Rows

/-- Rows whose key attributes are those of values without integers beyond the signed 64-bit ones. -/
def NarrowKeys (rows : Rows) : Prop :=
  ∀ e ∈ rows.items, ∀ field typed, rows.isKey field = true → e.2.get? field = some typed →
    ∃ j : Json, typed = ofJson j ∧ j.Narrow

/-- The sort values of such rows are those of values without such integers. -/
theorem NarrowKeys.sort (h : rows.NarrowKeys) (hsound : rows.Sound t) {sortKey : String} (hs : t.sortKey = some sortKey)
    {e : String × Item} (he : e ∈ rows.items) {typed : Json} (htyped : e.2.get? sortKey = some typed) :
    ∃ j : Json, typed = ofJson j ∧ j.Narrow :=
  h e he sortKey typed (by rw [isKey, hsound.sortKey, hs]; simp) htyped

/-- The keys of documents without such integers hold none. -/
theorem narrowKeys_of_documents (h : ∀ e ∈ rows.items, ∃ d, e.2 = ofDocument d ∧ Json.NarrowMembers d) : rows.NarrowKeys := by
  rintro ⟨key, item⟩ he field typed - htyped
  obtain ⟨d, rfl, hd⟩ := h _ he
  rw [get?_ofDocument] at htyped
  obtain ⟨j, hj, rfl⟩ := Option.map_eq_some_iff.1 htyped
  exact ⟨j, rfl, Json.narrowMembers_iff.1 hd _ (Fields.mem_of_get? hj)⟩

end Rows

/-! ## The key of a record that was found -/

/-- A field that is selected besides the partition key. -/
theorem mem_wanted_ofFields (first second : String) : second ∈ (Select.ofFields [first, second]).wanted := by
  have hget : Fields.get? (Select.ofFields [first, second]).entries second = some true :=
    Fields.get?_put_self _ second true
  exact List.mem_map.2 ⟨(second, true), List.mem_filter.2 ⟨Fields.mem_of_get? hget, rfl⟩, rfl⟩

/-- The key that is made of a record that was found, if there is one. -/
def keyOfFound (t : Table) (id sortKey : String) : Option Document → Except Error (Option Item)
  | none => .ok none
  | some record =>
    match Fields.get? record sortKey with
    | some value => .ok (some (Fields.put (partitionItem t id) sortKey (ofJson value)))
    | none => .error (.contractViolation (.noSortKey id sortKey))

/-- Looking for the key of a record is looking for the record. -/
theorem resolveKey_eq_send {sortKey : String} (hs : t.sortKey = some sortKey) (id : String) :
    resolveKey t id = Operation.send (I := service) (planFind t id (Select.ofFields [t.partitionKey, sortKey]))
      fun call answer => (readFind t call answer).bind (keyOfFound t id sortKey) := by
  have hresolve : resolveKey t id = (firstOf t id (Select.ofFields [t.partitionKey, sortKey]) >>= fun found =>
      Operation.of (keyOfFound t id sortKey found)) := by
    rw [resolveKey, hs]
    refine congrArg (firstOf t id (Select.ofFields [t.partitionKey, sortKey]) >>= ·) (funext fun found => ?_)
    cases found with
    | none => rfl
    | some record =>
      simp only [keyOfFound]
      cases Fields.get? record sortKey <;> rfl
  rw [hresolve, firstOf_eq_send hs]
  exact Operation.send_bind_of (I := service) _

/-- With no failure in its way, the call of a search for a key comes to the key that is made of what is found. -/
theorem FindsFirst.outcome {found : Option Candidate} (hfind : FindsFirst t rows id found) (sortKey : String) {s : Memory}
    (hfailure : s.failure = none) (htable : s.table? t.name = some rows) :
    ∃ call, planFind t id (Select.ofFields [t.partitionKey, sortKey]) = .ok call ∧ (Memory.answer call s).2 = s ∧
      Operation.outcome (I := service) (fun call answer => (readFind t call answer).bind (keyOfFound t id sortKey)) call
        (Memory.answer call s).1 =
          keyOfFound t id sortKey (found.map fun c => (Select.ofFields [t.partitionKey, sortKey]).project c.document) := by
  obtain ⟨call, hplan, hcall⟩ := hfind.find (Select.ofFields [t.partitionKey, sortKey])
  obtain ⟨answer, hanswer, hread⟩ := hcall s hfailure htable
  refine ⟨call, hplan, congrArg Prod.snd hanswer, ?_⟩
  rw [hanswer]
  show (readFind t call answer).bind (keyOfFound t id sortKey) = _
  rw [hread]
  rfl

/-- The key that is made of a record under its identifier addresses the item of the record. -/
theorem keyOfFound_address (hfiled : rows.Filed) (hsound : rows.Sound t) {sortKey : String} (hs : t.sortKey = some sortKey)
    {key : String} {item : Item} (hmem : (key, item) ∈ rows.items)
    (hnarrow : ∀ typed, item.get? sortKey = some typed → ∃ j : Json, typed = ofJson j ∧ j.Narrow) {record : Document}
    (hrecord : toDocument item = .ok record) (hid : Fields.get? record t.partitionKey = some (.str id)) :
    ∃ made, keyOfFound t id sortKey (some ((Select.ofFields [t.partitionKey, sortKey]).project record)) = .ok (some made) ∧
      t.address made = t.address item := by
  obtain ⟨d, rfl⟩ : ∃ d, item = ofDocument d := hfiled.documents _ hmem
  obtain rfl : Json.settledMembers d = record := Except.ok.inj ((toMembers_ofMembers d).symm.trans hrecord)
  -- the sort value is read as it was written
  obtain ⟨value, hvalue⟩ := Option.isSome_iff_exists.1 (has_sortKey hsound (hfiled.keyed _ hmem) hs)
  have hattribute : (ofDocument d).get? sortKey = some (ofJson value) := by rw [get?_ofDocument, hvalue]; rfl
  obtain ⟨j, hj, hjnarrow⟩ := hnarrow _ hattribute
  have hsettled : value.settled = j := by
    have htyped := toJson_ofJson_settled value
    rw [hj, toJson_ofJson_settled j, Json.settled_eq_iff.2 hjnarrow] at htyped
    exact (Except.ok.inj htyped).symm
  have hread : Fields.get? ((Select.ofFields [t.partitionKey, sortKey]).project (Json.settledMembers d)) sortKey = some j := by
    rw [(Select.reduces_project _ _).values sortKey (mem_wanted_ofFields _ _), get?_settledMembers, hvalue, Option.map_some,
      hsettled]
  -- the partition key is the identifier
  have hpartition : (ofDocument d).get? t.partitionKey = some (tagged "S" (.str id)) :=
    get?_ofDocument_str_iff.2 (get?_settledMembers_str_iff.1 hid)
  refine ⟨Fields.put (partitionItem t id) sortKey (ofJson j), by rw [keyOfFound, hread], Prod.ext ?partition ?sort⟩
  case partition =>
    show Fields.get? (Fields.put (partitionItem t id) sortKey (ofJson j)) t.partitionKey = (ofDocument d).get? t.partitionKey
    by_cases hsame : t.partitionKey = sortKey
    · rw [hsame, Fields.get?_put_self, hattribute, hj]
    · rw [Fields.get?_put_of_ne _ _ hsame, hpartition]
      exact if_pos rfl
  case sort =>
    simp only [Table.address, hs, Option.bind_some]
    rw [hattribute, hj]
    exact Fields.get?_put_self _ _ _

/-! ## Calls under a key that was made -/

section

variable {s : Memory} {before behind : List (String × Item)} {key : String} {item made : Item} (hfiled : rows.Filed)
  (hsound : rows.Sound t) (htable : s.table? t.name = some rows) (hitems : rows.items = before ++ (key, item) :: behind)
  (haddress : t.address made = t.address item)

include hfiled hitems

/-- An item that stands between others is found under its key text. -/
theorem find?_standing : rows.find? key = some item :=
  Fields.get?_of_mem hfiled.sorted.nodup (hitems ▸ List.mem_append_right _ List.mem_cons_self)

include hsound

/-- Where there is an item, a write goes on, with a check or without. -/
theorem checkCondition_standing {tables : Tables} {policy : WritePolicy} {values : Fields Json} :
    Memory.checkCondition (existence t tables policy "attribute_exists").1
      (existence t tables policy "attribute_exists").2.names values (rows.find? key) = .ok () := by
  cases policy with
  | unchecked => rfl
  | existenceChecked =>
    rw [checkCondition_wanted (readable_found hsound hfiled.readable), find?_standing hfiled hitems]
    rfl

include haddress

/-- A key that addresses an item has its key text. -/
theorem keyText_made : rows.keyText made = .ok key :=
  (keyText_congr hsound haddress).trans (hfiled.keyed _ (hitems ▸ List.mem_append_right _ List.mem_cons_self))

include htable

/-- An update under a key that addresses an item writes the changes into the item. -/
theorem update_made (id : String) {changes : Document} (hne : changes ≠ []) (hkeys : ∀ e ∈ changes, t.isKey e.1 = false)
    (policy : WritePolicy) :
    s.update { updateRequest t id changes policy with key := made } = (.ok (some (Fields.putAll item (ofDocument changes))),
      s.setTable t.name { rows with items := before ++ (key, Fields.putAll item (ofDocument changes)) :: behind }) := by
  have hkey := keyText_made hfiled hsound hitems haddress
  have hfind := find?_standing hfiled hitems
  obtain ⟨values, hvalues⟩ : ∃ values, Memory.plainValues (updateRequest t id changes policy).values = .ok values := by
    obtain ⟨tables, htables, hattributes⟩ := updateRequest_values t id changes policy
    rw [htables]
    exact plainValues_of_changes hattributes
  have hcheck : Memory.checkCondition (updateRequest t id changes policy).condition (updateRequest t id changes policy).names
      values (rows.find? key) = .ok () := checkCondition_standing hfiled hsound hitems
  have happly := applyAll_updateRequest t id (hsound.isKey_eq ▸ hkeys) policy item
  have hname : (updateRequest t id changes policy).table = t.name := rfl
  rw [hfind] at hcheck
  simp only [Memory.update, hname, hvalues, parse_updateRequest t id hne policy, requireTable_eq htable, hkey, hfind, hcheck,
    Option.getD_some, happly, Except.mapError, bind, Except.bind, Memory.store, Rows.put_at hfiled.sorted hitems]

/-- A removal under a key that addresses an item removes the item. -/
theorem delete_made (id : String) (policy : WritePolicy) :
    s.delete { deleteRequest t id policy with key := made } =
      (.ok (), s.setTable t.name { rows with items := before ++ behind }) := by
  have hkey := keyText_made hfiled hsound hitems haddress
  have hcheck : Memory.checkCondition (deleteRequest t id policy).condition (deleteRequest t id policy).names []
      (rows.find? key) = .ok () := checkCondition_standing hfiled hsound hitems
  have hname : (deleteRequest t id policy).table = t.name := rfl
  simp only [Memory.delete, hname, requireTable_eq htable, hkey, hcheck, bind, Except.bind, Memory.store,
    Rows.erase_at hfiled.sorted hitems]

end

end DocQuery.Dynamo
