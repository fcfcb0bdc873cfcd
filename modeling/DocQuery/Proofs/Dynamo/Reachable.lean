import DocQuery.Proofs.Dynamo.Checked
import DocQuery.Proofs.Dynamo.Plans
import DocQuery.Proofs.Repository.Atomic
import DocQuery.Proofs.Repository.OneCall

/-!
# Tables as operations leave them

Repositories store the items of documents only, each under its own key text. So whatever has happened to a store, every one of its
tables is in order and can be read (`Reachable.filed`), and an update that has been made is always answered: the operations of
repositories are atomic (`adapter_atomic`).
-/

namespace DocQuery.Dynamo

/-! ## All tables of a store -/

/-- A store all of whose tables have a property. -/
def Memory.All (P : Rows → Prop) (m : Memory) : Prop := ∀ name rows, m.table? name = some rows → P rows

section

variable {P : Rows → Prop} {rows : Rows} {m : Memory} {call : Call}

/-- Replacing a table by one with the property. -/
theorem Memory.All.setTable (h : m.All P) (name : String) (hr : P rows) : (m.setTable name rows).All P := by
  intro other found hfound
  rcases of_table?_setTable hfound with ⟨-, rfl⟩ | hfound
  · exact hr
  · exact h other found hfound

/-- A new table has no items. -/
theorem Memory.All.withTable (h : m.All P) (t : Table) (hr : P t.rows) : (m.withTable t).All P := by
  intro name rows hrows
  rcases of_table?_setTable hrows with ⟨-, rfl⟩ | hrows
  · exact hr
  · exact h name rows hrows

/-- Adding documents to one of the tables. -/
theorem Memory.All.seed (h : m.All P) (name : String) (ds : List Document)
    (hr : ∀ rows, P rows → P (Memory.seedRows rows ds).2) : (m.seed name ds).2.All P := by
  intro other rows hrows
  rcases of_table?_seed hrows with ⟨before, hbefore, rfl⟩ | hrows
  · exact hr before (h other before hbefore)
  · exact h other rows hrows

/-- A call changes one of the tables at most. -/
theorem Memory.All.answer (h : m.All P) (hr : ∀ before after, Change call before after → P before → P after) :
    (Memory.answer call m).2.All P := by
  intro name rows hrows
  rcases of_table?_answer hrows with ⟨before, hbefore, hchange⟩ | hrows
  · exact hr before rows hchange (h name before hbefore)
  · exact h name rows hrows

end

/-! ## Items of documents -/

/-- A table whose items are those of documents, in order, each under its own key text. -/
structure Rows.Filed (rows : Rows) : Prop where
  keyed : ∀ e ∈ rows.items, rows.keyText e.2 = .ok e.1
  sorted : Rows.Sorted rows.items
  documents : ∀ e ∈ rows.items, ∃ d, e.2 = ofDocument d

/-- A store all of whose tables are filed. -/
def Memory.Filed (m : Memory) : Prop := ∀ name rows, m.table? name = some rows → rows.Filed

/-- A call that stores nothing but what comes from documents. -/
def Call.Files : Call → Prop
  | .scan _ | .query _ | .get _ | .delete _ => True
  | .put r => ∃ d, r.item = ofDocument d
  | .update r => (∃ d, r.key = ofDocument d) ∧ ∃ d, r.values.getD [] = ofDocument d

section

variable {rows after : Rows} {t : Table} {m : Memory} {call : Call}

/-- A filed table is sound for the schema that it has. -/
theorem Rows.Filed.sound (h : rows.Filed) (hpartition : rows.partitionKey = t.partitionKey) (hsort : rows.sortKey = t.sortKey) :
    rows.Sound t :=
  ⟨hpartition, hsort, h.keyed⟩

/-- The items of a filed table can be read. -/
theorem Rows.Filed.readable (h : rows.Filed) {key : String} (item : Item) (hitem : rows.find? key = some item) :
    ∃ d, toDocument item = .ok d := by
  obtain ⟨d, rfl⟩ : ∃ d, item = ofDocument d := h.documents _ (Fields.mem_of_get? hitem)
  exact ⟨Json.settledMembers d, toMembers_ofMembers d⟩

/-- An item each of whose attributes is that of a value is the item of a document. -/
theorem exists_ofDocument {item : Item} (h : ∀ e ∈ item, ∃ j, e.2 = ofJson j) : ∃ d, item = ofDocument d := by
  induction item with
  | nil => exact ⟨[], rfl⟩
  | cons e item ih =>
    obtain ⟨⟨j, hj⟩, hrest⟩ := List.forall_mem_cons.1 h
    obtain ⟨d, rfl⟩ := ih hrest
    exact ⟨(e.1, j) :: d, congrArg (· :: ofDocument d) (Prod.ext rfl hj)⟩

/-- What an assignment assigns comes from a document if the values do. -/
theorem ofJson_of_assigned {values : Option (Fields Json)} {plain : Document} (hvalues : values.getD [] = ofDocument plain)
    {term : Expression.Term} {typed : Json} (h : Memory.assigned values term = .ok typed) : ∃ j, typed = ofJson j := by
  cases term with
  | path field => cases h
  | lower field => cases h
  | literal l =>
    cases h
    exact ⟨_, rfl⟩
  | param name =>
    rw [Memory.assigned] at h
    split at h
    · next hfound =>
      cases h
      obtain ⟨members, rfl, hmember⟩ := Option.bind_eq_some_iff.1 hfound
      rw [Option.getD_some] at hvalues
      rw [hvalues, get?_ofDocument] at hmember
      obtain ⟨j, -, rfl⟩ := Option.map_eq_some_iff.1 hmember
      exact ⟨j, rfl⟩
    · cases h

/-- Assignments of what comes from documents make the item of a document of that of one. -/
theorem ofDocument_applyAll {values : Option (Fields Json)} {plain : Document} (hvalues : values.getD [] = ofDocument plain)
    {assignments : List (String × Expression.Term)} {item changed : Item} (hitem : ∃ d, item = ofDocument d)
    (h : Memory.applyAll rows values item assignments = .ok changed) : ∃ d, changed = ofDocument d := by
  induction assignments generalizing item with
  | nil => cases h; exact hitem
  | cons a rest ih =>
    obtain ⟨field, term⟩ := a
    obtain ⟨d, rfl⟩ := hitem
    rw [Memory.applyAll] at h
    split at h
    · cases h
    · obtain ⟨typed, htyped, h⟩ := of_bind_eq_ok h
      obtain ⟨j, rfl⟩ := ofJson_of_assigned hvalues htyped
      exact ih ⟨_, put_ofDocument d field j⟩ h

/-- An item put in keeps a table filed. -/
theorem Rows.Filed.put (h : rows.Filed) {key : String} {d : Document} (hkey : rows.keyText (ofDocument d) = .ok key) :
    (rows.put key (ofDocument d)).Filed where
  keyed := (Rows.Sound.put (t := ⟨"", rows.partitionKey, rows.sortKey⟩) (h.sound rfl rfl) hkey).keyed
  sorted := h.sorted.insert key _
  documents e he := by
    rcases Rows.mem_insertSorted he with rfl | he
    · exact ⟨d, rfl⟩
    · exact h.documents e he

/-- A table stays filed under a change that stores only what comes from documents. -/
theorem Change.filed (h : Change call rows after) (hcall : call.Files) (hr : rows.Filed) : after.Filed := by
  have hsound := h.sound (t := ⟨"", rows.partitionKey, rows.sortKey⟩) (hr.sound rfl rfl)
  refine ⟨hsound.keyed, h.sorted hr.sorted, ?_⟩
  cases h with
  | @put r _ _ hkey =>
    obtain ⟨d, hd⟩ := hcall
    rw [hd] at hkey ⊢
    exact (hr.put hkey).documents
  | @update r _ key _ _ item hkey _ hitem =>
    obtain ⟨hnew, plain, hplain⟩ := hcall
    have hold : ∃ d, (rows.find? key).getD r.key = ofDocument d := by
      cases hfound : rows.find? key with
      | none => exact hnew
      | some found => exact hr.documents _ (Fields.mem_of_get? hfound)
    intro e he
    rcases Rows.mem_insertSorted he with rfl | he
    · exact ofDocument_applyAll hplain hold hitem
    · exact hr.documents e he
  | delete key => exact fun e he => hr.documents e (List.mem_filter.1 he).1

/-- A new table has no items. -/
theorem Memory.Filed.withTable (h : m.Filed) (t : Table) : (m.withTable t).Filed :=
  All.withTable h t ⟨List.forall_mem_nil _, .nil, List.forall_mem_nil _⟩

/-- Adding documents keeps a table filed, also where one of them is refused. -/
theorem Rows.Filed.seedRows (h : rows.Filed) (ds : List Document) : (Memory.seedRows rows ds).2.Filed :=
  seedRows_keeps (P := Rows.Filed) (fun hr hkey => hr.put hkey) h ds

/-- Adding documents keeps the tables filed. -/
theorem Memory.Filed.seed (h : m.Filed) (name : String) (ds : List Document) : (m.seed name ds).2.Filed :=
  All.seed h name ds fun _ hr => hr.seedRows ds

/-- A call that stores only what comes from documents keeps the tables filed. -/
theorem Memory.Filed.answer (h : m.Filed) (hcall : call.Files) : (Memory.answer call m).2.Filed :=
  All.answer h fun _ _ hchange hr => hchange.filed hcall hr

/-- The tables are as they were where a call fails. -/
theorem Memory.tables_of_error {e : StoreError} (h : (Memory.answer call m).1 = .error e) :
    (Memory.answer call m).2.tables = m.tables := by
  have hstore : ∀ (name : String) {α : Type} (r : Except StoreError (Rows × α)), (m.store name r).1 = .error e →
      (m.store name r).2 = m := by
    intro name α r hr
    cases r with
    | error e => rfl
    | ok after => cases hr
  rw [Memory.answer] at h ⊢
  cases hf : m.failure with
  | some e => rfl
  | none =>
    rw [hf] at h
    refine congrArg Memory.tables ?_
    cases call with
    | scan r => rfl
    | query r => rfl
    | get r => rfl
    | put r => exact hstore r.table _ h
    | update r => exact hstore r.table _ h
    | delete r => exact hstore r.table _ h

/-- A call that does not write leaves the tables as they are. -/
theorem Memory.tables_of_reads (h : ¬call.Writes) : (Memory.answer call m).2.tables = m.tables := by
  refine view_answerUnless Memory.tables rfl ?_
  cases call with
  | scan r => rfl
  | query r => rfl
  | get r => rfl
  | put r => exact absurd trivial h
  | update r => exact absurd trivial h
  | delete r => exact absurd trivial h

/-- The item of a document is read as the document whose integers have settled. -/
theorem readItem_settled (d : Document) : readItem (ofDocument d) = .ok (Json.settledMembers d) := by
  have hd : toDocument (ofDocument d) = .ok (Json.settledMembers d) := toMembers_ofMembers d
  rw [readItem, hd]
  rfl

/-- An update that is made is answered with an item that can be read. -/
theorem Memory.read_of_update (h : m.Filed) {r : UpdateRequest} (hcall : (Call.update r).Files) {found : Option Item}
    (hanswer : (Memory.answer (.update r) m).1 = .ok found) : ∃ item d, found = some item ∧ readItem item = .ok d := by
  obtain ⟨rows, key, _, _, item, hrows, -, -, -, -, hitem, rfl, -⟩ := update_ok (act_of_ok (Prod.ext hanswer rfl))
  obtain ⟨hnew, plain, hplain⟩ := hcall
  have hold : ∃ d, (rows.find? key).getD r.key = ofDocument d := by
    cases hfound : rows.find? key with
    | none => exact hnew
    | some found => exact (h _ rows hrows).documents _ (Fields.mem_of_get? hfound)
  obtain ⟨d, rfl⟩ := ofDocument_applyAll hplain hold hitem
  exact ⟨ofDocument d, Json.settledMembers d, rfl, readItem_settled d⟩

end

/-! ## Operations on a table -/

/-- A store of tables, of which the tables are seen. -/
def viewed : Viewed service Memory (List (String × Rows)) := ⟨Memory.answer, Memory.Filed, Memory.tables⟩

/-- A call that does not write reads. -/
theorem viewed_reads {call : Call} (h : ¬call.Writes) : viewed.Reads call := by
  intro s hs
  have htables := Memory.tables_of_reads (m := s) h
  refine ⟨fun name rows hrows => hs name rows ?_, htables⟩
  rwa [Memory.table?, ← htables]

open Operation

section

variable (t : Table)

/-- What a request for a page is sent as only reads. -/
theorem not_writes_of_planRead {request : PageRequest} {call : Call} (h : planRead t request = .ok call) : ¬call.Writes := by
  obtain ⟨-, forward, texts, tables, start, ⟨keys, remaining, -, -, -, rfl⟩ | ⟨-, -, -, rfl⟩⟩ := planRead_cases h <;>
    exact not_false

/-- A lookup does not write. -/
theorem not_writes_of_planFind {id : String} {select : Select} {call : Call} (h : planFind t id select = .ok call) :
    ¬call.Writes := by
  rw [planFind] at h
  cases hsort : t.sortKey with
  | none => rw [hsort] at h; cases h; exact not_false
  | some sortKey =>
    rw [hsort] at h
    obtain ⟨request, -, rfl⟩ := of_map_eq_ok h
    exact not_false

section

variable {P : Call → Prop} (hreads : ∀ call : Call, ¬call.Writes → P call)

include hreads

/-- A search only reads. -/
theorem findMany_sends (request : PageRequest) : (findMany t request).Sends P fun _ => True := by
  refine Sends.of_bind fun call hcall => ?_
  refine Sends.bind (Sends.ask (I := service) (hreads call (not_writes_of_planRead t hcall)) _) fun answer _ => ?_
  exact Sends.of_bind fun _ _ => Sends.pure trivial

/-- Finding the first record of a partition only reads. -/
theorem firstOf_sends (id : String) (select : Select) : (firstOf t id select).Sends P fun _ => True := by
  refine Sends.of_bind fun request _ => ?_
  refine Sends.bind (Sends.ask (I := service) (hreads (.query request) not_false) _) fun page _ => ?_
  exact Sends.of_bind fun _ _ => Sends.pure trivial

/-- Finding a record only reads. -/
theorem findById_sends (id : String) (select : Select) : (findById t id select).Sends P fun _ => True := by
  unfold findById
  split
  · exact firstOf_sends t hreads id select
  · refine Sends.bind (Sends.ask (I := service) (hreads (.get _) not_false) _) fun item _ => ?_
    cases item with
    | none => exact Sends.pure trivial
    | some item => exact Sends.of_bind fun _ _ => Sends.pure trivial

/-- Resolving a key only reads. The key comes from a document, and unless the partition key is the sort key, too, it has the identifier
for its partition key. -/
theorem resolveKey_sends (id : String) : (resolveKey t id).Sends P fun key => ∀ item, key = some item →
    (∃ d, item = ofDocument d) ∧ (t.sortKey ≠ some t.partitionKey → item.get? t.partitionKey = some (ofJson (.str id))) := by
  have hpartition : partitionItem t id = ofDocument [(t.partitionKey, .str id)] := rfl
  have hid : (partitionItem t id).get? t.partitionKey = some (ofJson (.str id)) := if_pos rfl
  unfold resolveKey
  split
  · exact Sends.pure fun item hitem => Option.some.inj hitem ▸ ⟨⟨_, hpartition⟩, fun _ => hid⟩
  · next sortKey hs =>
    refine Sends.bind (firstOf_sends t hreads id _) fun found _ => ?_
    cases found with
    | none => exact Sends.pure nofun
    | some record =>
      dsimp only
      split
      · refine Sends.pure fun item hitem => ?_
        obtain rfl := Option.some.inj hitem
        refine ⟨⟨_, put_ofDocument [(t.partitionKey, .str id)] _ _⟩, fun hne => ?_⟩
        have hname : t.partitionKey ≠ sortKey := fun hsame => hne (hs.trans (congrArg some hsame.symm))
        exact (Fields.get?_put_of_ne _ _ hname).trans hid
      · exact Sends.throw _

end

/-- Storing a new record is atomic. -/
theorem insert_atomic (d : Document) (policy : WritePolicy) : (insert t d policy).Atomic viewed := by
  have hput : ∀ condition names, (Call.put ⟨t.name, ofDocument d, condition, names, none⟩).Files := fun _ _ => ⟨d, rfl⟩
  have hlast : ∀ condition names refusal, Operation.Atomic viewed (do
      let _ ← write (.put ⟨t.name, ofDocument d, condition, names, none⟩) refusal
      return d) := by
    intro condition names refusal
    refine Program.Atomic.last (v := viewed) (fun _ => ⟨_, rfl⟩) (fun s hs => hs.answer (hput condition names)) ?_ ?_
    · exact fun s e he => Memory.tables_of_error he
    · exact fun s answer hs hanswer => ⟨d, rfl⟩
  refine Atomic.of_bind fun id => ?_
  dsimp only
  split
  · split
    · exact Atomic.throw _
    · exact hlast _ _ _
  · exact hlast _ _ _

/-- What an update binds comes from a document. -/
theorem values_of_update (changes : Document) (policy : WritePolicy) :
    ∃ d, (existence t (assign Tables.empty changes).2 policy "attribute_exists").2.values.getD [] = ofDocument d := by
  refine exists_ofDocument fun e he => ?_
  rw [values_getD, (existence_tables t _ policy _).1, attributes_assign] at he
  obtain ⟨⟨a, i⟩, ha, rfl⟩ := List.mem_map.1 he
  obtain ⟨c, -, rfl⟩ := List.mem_map.1 (List.mem_of_getElem? (List.mem_zipIdx_iff_getElem?.1 ha))
  exact ⟨c.2, rfl⟩

/-- Changing a record is atomic: the item that answers the update can always be read. -/
theorem update_atomic (id : String) (changes : Document) (policy : WritePolicy) : (update t id changes policy).Atomic viewed := by
  unfold update
  dsimp only
  split
  · exact Atomic.throw _
  · refine Reads.atomic_bind (resolveKey_sends t (fun _ => viewed_reads) id) fun key hkey => ?_
    cases key with
    | none => exact Atomic.throw _
    | some key =>
      have hfiles : ∀ assignments condition names, (Call.update ⟨t.name, key, assignments, condition, names,
          (existence t (assign Tables.empty (changes.filter fun e => !t.isKey e.1)).2 policy "attribute_exists").2.values⟩).Files :=
        fun _ _ _ => ⟨(hkey key rfl).1, values_of_update t _ policy⟩
      refine Program.Atomic.last (v := viewed) (fun _ => ⟨_, rfl⟩) (fun s hs => hs.answer (hfiles _ _ _)) ?_ ?_
      · exact fun s e he => Memory.tables_of_error he
      · intro s answer hs hanswer
        obtain ⟨item, d, rfl, hread⟩ := Memory.read_of_update hs (hfiles _ _ _) hanswer
        exact ⟨d, congrArg Program.done hread⟩

/-- Removing a record is atomic. -/
theorem delete_atomic (id : String) (policy : WritePolicy) : (delete t id policy).Atomic viewed := by
  refine Reads.atomic_bind (resolveKey_sends t (fun _ => viewed_reads) id) fun key _ => ?_
  cases key with
  | none =>
    cases policy with
    | existenceChecked => exact Atomic.throw _
    | unchecked => exact Atomic.pure ()
  | some key =>
    refine Program.Atomic.last (v := viewed) (fun _ => ⟨_, rfl⟩) (fun s hs => hs.answer trivial) ?_ ?_
    · exact fun s e he => Memory.tables_of_error he
    · exact fun s answer _ _ => ⟨answer, rfl⟩

/-- The operations on a table are atomic. -/
theorem adapter_atomic : (adapter t).Atomic viewed where
  findMany := findMany_sends t fun _ => viewed_reads
  findById := findById_sends t fun _ => viewed_reads
  insert := insert_atomic t
  update := update_atomic t
  delete := delete_atomic t

end

/-! ## Reachable stores -/

/-- The stores that come about by requests to repositories. Tables may be added and documents put into them at any time, and a
failure may be put in the way. A request is run on its own, under whatever limits its caller sets, or several are under way
together; calls may fail on the way. -/
inductive Reachable : Memory → Prop
  | empty : Reachable Memory.empty
  | table {s : Memory} (t : Table) : Reachable s → Reachable (s.withTable t)
  | seed {s : Memory} (name : String) (ds : List Document) : Reachable s → Reachable (s.seed name ds).2
  | failure {s : Memory} (e : StoreError) : Reachable s → Reachable { s with failure := some e }
  | request {w : World service (Memory × List (Option StoreError))} (t : Table) (config : EntityConfig) (request : Request)
      (options : Options) (clock : Nat → Instant) (ids : Nat → String) (latency : Nat) : Reachable w.store.1 →
      Reachable (request.run (.flaky Memory.answer clock ids latency) (.ofDocuments config (adapter t)) options w).2.store.1
  | requests {w : World service (Memory × List (Option StoreError))} (requests : List (Table × EntityConfig × Request))
      (schedule : List Nat) (clock : Nat → Instant) (ids : Nat → String) (latency : Nat) : Reachable w.store.1 →
      Reachable (Crowd.run (.flaky Memory.answer clock ids latency)
        ⟨w, requests.map fun (t, config, request) =>
          ExceptT.run (request.perform (.ofDocuments config (adapter t)))⟩ schedule).2.world.store.1

/-- All tables of a reachable store are filed. -/
theorem Reachable.filed {s : Memory} (h : Reachable s) : s.Filed := by
  induction h with
  | empty => exact nofun
  | table t _ ih => exact ih.withTable t
  | seed name ds _ ih => exact ih.seed name ds
  | failure e _ ih => exact ih
  | request t config request options clock ids latency _ ih =>
    exact Atomic.fit (v := viewed) (Repository.perform_atomic (adapter_atomic t) request) ih config options
  | @requests w requests schedule clock ids latency _ ih =>
    refine Program.Atomic.crowd (v := viewed) (c := ⟨w, _⟩) ih (fun p hp => ?_) schedule
    obtain ⟨⟨t, config, request⟩, -, rfl⟩ := List.mem_map.1 hp
    exact Repository.perform_atomic (adapter_atomic t) request

end DocQuery.Dynamo
