import DocQuery.Proofs.Dynamo.Reachable
import DocQuery.Proofs.Repository.Preparing

/-!
# Records by their identifiers

A table keeps one item at most under every key text, and the key text of a record is made of its identifier and, where the table has
a sort key, of its sort value. So no two records agree in both. A checked creation is refused where a record has them already, and
a record of a table without a sort key is gone once it is deleted (`records_identified`).
-/

namespace DocQuery

open Operation

namespace Dynamo

variable {t : Table} {rows : Rows} {s : Memory} {d : Document} {item other : Item} {id key : String}

/-! ## Addresses -/

/-- What addresses an item in a table: its identifier and, if the table has a sort key, its sort value. -/
def Table.address (t : Table) (item : Item) : Option Json × Option Json :=
  (item.get? t.partitionKey, t.sortKey.bind fun sortKey => item.get? sortKey)

/-- The rows of a table address items as the table does. -/
theorem Rows.Sound.address_eq (h : rows.Sound t) (item : Item) : rows.address item = t.address item := by
  rw [Rows.address, Table.address, h.partitionKey, h.sortKey]

/-- Items of one address have one key text. -/
theorem keyText_congr (h : rows.Sound t) (he : t.address item = t.address other) : rows.keyText item = rows.keyText other := by
  rw [← h.address_eq, ← h.address_eq] at he
  exact Rows.keyText_of_address he

/-- A document with a key text has a sort value, where the table has a sort key. -/
theorem has_sortKey (h : rows.Sound t) (hkey : rows.keyText (ofDocument d) = .ok key) {sortKey : String}
    (hs : t.sortKey = some sortKey) : Fields.has d sortKey = true := by
  rw [Fields.has, Option.isSome_iff_ne_none]
  intro hnone
  have hitem : (ofDocument d).get? sortKey = none := (get?_ofDocument d sortKey).trans (congrArg (Option.map ofJson) hnone)
  rw [Rows.keyText, h.sortKey, hs] at hkey
  cases hpartition : (ofDocument d).get? rows.partitionKey with
  | none => simp [hpartition, bind, Except.bind] at hkey
  | some partition => simp [hpartition, hitem, bind, Except.bind] at hkey

/-- No two items of a filed table have one address. -/
theorem Rows.Filed.nodup (h : rows.Filed) (hsound : rows.Sound t) : (rows.items.map fun e => t.address e.2).Nodup := by
  simp only [← hsound.address_eq]
  exact h.sorted.nodup_address h.keyed

/-- An item is found under the key text of every item with the address of one that is kept. -/
theorem Rows.Filed.find? (h : rows.Filed) (hsound : rows.Sound t) (hitem : t.address item ∈ rows.items.map fun e => t.address e.2) :
    ∃ key kept, rows.keyText item = .ok key ∧ rows.find? key = some kept := by
  obtain ⟨e, he, haddress⟩ := List.mem_map.1 hitem
  exact ⟨e.1, e.2, (keyText_congr hsound haddress).symm.trans (h.keyed e he), Fields.get?_of_mem h.sorted.nodup he⟩

/-! ## Operations -/

section

variable {clock : Nat → Instant} {ids : Nat → String} {config : EntityConfig} {w w₁ : World service Memory} {data : Json}

/-- A checked creation comes to what storing the item of its document comes to. -/
theorem create_yields (hfailure : w.store.failure = none) (hsound : rows.Sound t) (hpolicy : config.writePolicy = .existenceChecked)
    (hd : ((Repository.ofDocuments config (adapter t)).prepare data).Yields (surroundings clock ids) w (.ok d) w₁)
    (hkey : rows.keyText (ofDocument d) = .ok key) {answer : Except StoreError Unit} {after : Memory}
    (hput : w.store.put (putRequest t d .existenceChecked) = (answer, after)) :
    ∃ id log, Fields.get? d t.partitionKey = some (.str id) ∧
      ((Repository.ofDocuments config (adapter t)).create data).Yields (surroundings clock ids) w
        ((answer.mapError fun | .conditionalCheckFailed _ => .alreadyExists id | e => .storeFailure e).map fun _ => d)
        { w₁ with log, store := after } := by
  obtain ⟨hstore, id, hid⟩ := (Repository.prepare_sends _ data).yields_ok hd
  have hact : w₁.store.act (.put (putRequest t d .existenceChecked)) = _ := (congrArg (Memory.act · _) hstore).trans hput
  have hwrite := Yields.call (surroundings clock ids) (.put (putRequest t d .existenceChecked))
    (answerUnless_of_none (hstore ▸ hfailure) hact)
    fun answer => answer.mapError fun | .conditionalCheckFailed _ => Error.alreadyExists id | e => .storeFailure e
  refine ⟨id, w₁.log ++ [.put (putRequest t d .existenceChecked)], hid, ?_⟩
  rw [Repository.create_eq]
  refine Yields.bind rfl hd ?_
  show (insert t d config.writePolicy >>= _).Yields _ _ _ _
  rw [hpolicy, insert_call hid (fun sortKey hs => has_sortKey hsound hkey hs)]
  cases answer with
  | ok _ => exact Yields.bind rfl (Yields.bind rfl hwrite (.pure d _)) (.of _ _)
  | error e => exact Yields.bind_error rfl (Yields.bind_error rfl hwrite _) _

/-- Reading an item that is not there. -/
theorem get_missing (htable : s.table? t.name = some rows) (hkey : rows.keyText (partitionItem t id) = .ok key)
    (hnone : rows.find? key = none) (select : Select) : s.get (getRequest t id select) = .ok none := by
  have hprojection := parse_projection select (List.prefix_refl (projection [] select).2)
  simp only [Memory.get, getRequest, hprojection, requireTable_eq htable, hkey, hnone, bind, Except.bind, Option.map_none]

/-- A record that is not there is not found. -/
theorem findOne_missing (hfailure : w.store.failure = none) (htable : w.store.table? t.name = some rows) (hsound : rows.Sound t)
    (hs : t.sortKey = none) (hnone : rows.find? (keyOf id) = none) (hid : ValidId id) (select : Select) :
    ∃ w₂, ((Repository.ofDocuments config (adapter t)).findOne id select).Yields (surroundings clock ids) w
      (.error (.notFound id)) w₂ := by
  have hfind : findById t id select = (do
      let item : Option Item ← ask (.get (getRequest t id select))
      readFound item) := by
    rw [findById, hs]
    rfl
  have hget := get_missing htable (keyText_partitionItem hsound hs id) hnone select
  have hask := Yields.call (surroundings clock ids) (.get (getRequest t id select))
    (answerUnless_of_none hfailure (congrArg (·, w.store) hget)) (·.mapError .storeFailure)
  have hfound : (findById t id select).Yields (surroundings clock ids) w (.ok none)
      { w with log := w.log ++ [.get (getRequest t id select)] } := by
    rw [hfind]
    exact Yields.bind rfl hask rfl
  refine ⟨{ w with log := w.log ++ [.get (getRequest t id select)] }, ?_⟩
  rw [Repository.findOne, show checkId id = .ok () from hid]
  exact Yields.bind rfl (a := ()) rfl (Yields.bind rfl hfound rfl)

/-- In a table without a sort key, a checked removal comes to what removing the item comes to. -/
theorem delete_yields (hfailure : w.store.failure = none) (hs : t.sortKey = none) (hpolicy : config.writePolicy = .existenceChecked)
    (hid : ValidId id) {answer : Except StoreError Unit} {after : Memory}
    (hdelete : w.store.delete (deleteRequest t id .existenceChecked) = (answer, after)) :
    ((Repository.ofDocuments config (adapter t)).delete id).Yields (surroundings clock ids) w
      (answer.mapError fun | .conditionalCheckFailed _ => .notFound id | e => .storeFailure e)
      { w with log := w.log ++ [.delete (deleteRequest t id .existenceChecked)], store := after } := by
  have hwrite := Yields.call (surroundings clock ids) (.delete (deleteRequest t id .existenceChecked))
    (answerUnless_of_none hfailure hdelete)
    fun answer => answer.mapError fun | .conditionalCheckFailed _ => Error.notFound id | e => .storeFailure e
  rw [Repository.delete, show checkId id = .ok () from hid]
  show (delete t id config.writePolicy).Yields _ _ _ _
  rw [hpolicy, delete_call hs]
  exact hwrite

/-- In a table without a sort key, a record that has been deleted with a check is not found. -/
theorem findOne_deleted (hw : w.store.Filed) (hfailure : w.store.failure = none) (htable : w.store.table? t.name = some rows)
    (hsound : rows.Sound t) (hs : t.sortKey = none) (hpolicy : config.writePolicy = .existenceChecked)
    (hd : ((Repository.ofDocuments config (adapter t)).delete id).Yields (surroundings clock ids) w (.ok ()) w₁)
    (select : Select) :
    ∃ w₂, ((Repository.ofDocuments config (adapter t)).findOne id select).Yields (surroundings clock ids) w₁
      (.error (.notFound id)) w₂ := by
  have hid : ValidId id := by
    rw [Repository.delete] at hd
    cases hid : checkId id with
    | ok _ => exact hid
    | error e =>
      rw [hid] at hd
      cases hd
  have hdelete : w.store.delete (deleteRequest t id .existenceChecked) = _ :=
    delete_checked htable hsound hs (hw t.name rows htable).readable
  cases hfound : rows.find? (keyOf id) with
  | none =>
    rw [hfound] at hdelete
    cases hd.symm.trans (delete_yields hfailure hs hpolicy hid hdelete)
  | some item =>
    rw [hfound] at hdelete
    cases hd.symm.trans (delete_yields hfailure hs hpolicy hid hdelete)
    refine findOne_missing ?_ (Memory.table?_setTable w.store t.name _) (hsound.erase (keyOf id)) hs (Rows.find?_erase _ _) hid
      select
    exact hfailure

end

/-- In a store that comes about by requests, no two records of a table agree in their identifiers and, if the table has a sort key,
in their sort values. A checked creation of a record that agrees with one in these is refused, and changes nothing. In a table
without a sort key a record that has been deleted with a check is not found. -/
theorem records_identified {w : World service Memory} (h : Reachable w.store) {t : Table} {rows : Rows}
    (htable : w.store.table? t.name = some rows) (hpartition : rows.partitionKey = t.partitionKey)
    (hsort : rows.sortKey = t.sortKey) :
    (rows.items.map fun e => t.address e.2).Nodup ∧
      (t.sortKey = none → (rows.items.map fun e => e.2.get? t.partitionKey).Nodup) ∧
      ∀ (config : EntityConfig) (clock : Nat → Instant) (ids : Nat → String), config.writePolicy = .existenceChecked →
        w.store.failure = none →
        let r := Repository.ofDocuments config (adapter t)
        (∀ data d w₁, (r.prepare data).Yields (surroundings clock ids) w (.ok d) w₁ →
          (t.address (ofDocument d) ∈ rows.items.map fun e => t.address e.2) →
          ∃ id w₂, Fields.get? d t.partitionKey = some (.str id) ∧ w₂.store = w.store ∧
            (r.create data).Yields (surroundings clock ids) w (.error (.alreadyExists id)) w₂) ∧
        (t.sortKey = none → ∀ id w₁, (r.delete id).Yields (surroundings clock ids) w (.ok ()) w₁ → ∀ select,
          ∃ w₂, (r.findOne id select).Yields (surroundings clock ids) w₁ (.error (.notFound id)) w₂) := by
  have hfiled := h.filed
  have hrows := hfiled t.name rows htable
  have hsound : rows.Sound t := hrows.sound hpartition hsort
  have hnodup := hrows.nodup hsound
  refine ⟨hnodup, ?single, fun config clock ids hpolicy hfailure => ⟨?create, ?delete⟩⟩
  case single =>
    intro hs
    refine List.pairwise_map.2 ((List.pairwise_map.1 hnodup).imp fun hne he => hne ?_)
    simp only [Table.address, he, hs, Option.bind_none]
  case create =>
    intro data d w₁ hd haddress
    obtain ⟨key, kept, hkey, hfound⟩ := hrows.find? hsound haddress
    have hput := put_checked htable hsound hrows.readable hkey
    rw [hfound] at hput
    obtain ⟨id, log, hid, hcreate⟩ := create_yields hfailure hsound hpolicy hd hkey hput
    exact ⟨id, { w₁ with log, store := w.store }, hid, rfl, hcreate⟩
  case delete =>
    exact fun hs id w₁ hd select => findOne_deleted hfiled hfailure htable hsound hs hpolicy hd select

/-- The same for a table with one record: its identifier is refused, until it is deleted. -/
theorem records_identified_of_one :
    let t : Table := ⟨"users", "id", none⟩
    let r := Repository.ofDocuments ⟨"User", ⟨true, false⟩, .existenceChecked, 20, 100, none⟩ (adapter t)
    let env := surroundings (fun n => ⟨n, 0⟩) fun _ => "u-2"
    let user : Document := [("id", .str "u-1")]
    let w : World service Memory := ⟨((Memory.empty.withTable t).seed "users" [user]).2, 0, 0, []⟩
    Reachable w.store ∧
      (∃ id w₂, w₂.store = w.store ∧ (r.create (.obj user)).Yields env w (.error (.alreadyExists id)) w₂) ∧
      ∃ w₁, (r.delete "u-1").Yields env w (.ok ()) w₁ ∧ ∀ select,
        ∃ w₂, (r.findOne "u-1" select).Yields env w₁ (.error (.notFound "u-1")) w₂ := by
  intro t r env user w
  have hw : Reachable w.store := .seed _ _ (.table t .empty)
  have htable : w.store.table? t.name = some (t.rows.put (keyOf "u-1") (ofDocument user)) := rfl
  obtain ⟨-, -, hoperations⟩ := records_identified hw htable rfl rfl
  obtain ⟨hcreate, hdelete⟩ := hoperations r.config (fun n => ⟨n, 0⟩) (fun _ => "u-2") rfl rfl
  have hid : Fields.get? user r.adapter.idField = some (.str "u-1") := rfl
  have hprepare : (r.prepare (.obj user)).Yields env w (.ok user) w := by
    rw [Repository.prepare_plain r hid rfl rfl]
    exact .pure user w
  obtain ⟨id, w₂, -, hstore, hrefused⟩ := hcreate (.obj user) user w hprepare (List.mem_singleton_self _)
  have hrows := hw.filed t.name _ htable
  have hremoved : w.store.delete (deleteRequest t "u-1" .existenceChecked) = _ :=
    delete_checked htable (hrows.sound rfl rfl) rfl hrows.readable
  rw [Rows.find?_put] at hremoved
  have hdeleted : (r.delete "u-1").Yields env w (.ok ()) _ := delete_yields rfl rfl rfl (show ValidId "u-1" from rfl) hremoved
  exact ⟨hw, ⟨id, w₂, hstore, hrefused⟩, _, hdeleted, hdelete rfl "u-1" _ hdeleted⟩

/-- In a table with a sort key, an identifier alone does not tell records apart: a checked creation with the identifier of a record
succeeds if it has another sort value. -/
theorem one_identifier_of_two_records :
    let t : Table := ⟨"events", "id", some "day"⟩
    let config : EntityConfig := ⟨"Event", ⟨false, false⟩, .existenceChecked, 20, 100, none⟩
    let r := Repository.ofDocuments config (adapter t)
    let env := surroundings (fun n => ⟨n, 0⟩) fun _ => "e-2"
    let monday : Document := [("id", .str "e-1"), ("day", .str "monday")]
    let tuesday : Document := [("id", .str "e-1"), ("day", .str "tuesday")]
    ∃ w₁ w₂ rows, (r.create (.obj monday)).Yields env ⟨Memory.empty.withTable t, 0, 0, []⟩ (.ok monday) w₁ ∧
      (r.create (.obj tuesday)).Yields env w₁ (.ok tuesday) w₂ ∧ w₂.store.table? "events" = some rows ∧
      ¬ (rows.items.map fun e => e.2.get? t.partitionKey).Nodup := by
  intro t config r env monday tuesday
  have hkeys : t.rows.keyText (ofDocument monday) ≠ t.rows.keyText (ofDocument tuesday) := by
    revert t monday tuesday
    decide +kernel
  have hprepare : ∀ (d : Document) (w : World service Memory), Fields.get? d "id" = some (.str "e-1") →
      (r.prepare (.obj d)).Yields env w (.ok d) w := fun d w hid => by
    rw [Repository.prepare_plain r hid rfl rfl]
    exact .pure d w
  obtain ⟨first, hfirst⟩ : ∃ key, t.rows.keyText (ofDocument monday) = .ok key := ⟨_, rfl⟩
  obtain ⟨second, hsecond⟩ : ∃ key, t.rows.keyText (ofDocument tuesday) = .ok key := ⟨_, rfl⟩
  have hne : first ≠ second := fun h => hkeys (hfirst.trans (h ▸ hsecond.symm))
  have hempty : t.rows.Sound t := ⟨rfl, rfl, fun e he => absurd he List.not_mem_nil⟩
  have hput : (Memory.empty.withTable t).put (putRequest t monday .existenceChecked) = _ :=
    put_checked (show _ = some t.rows from rfl) hempty (fun item hitem => by cases hitem) hfirst
  obtain ⟨_, log, -, hmonday⟩ := create_yields (w := ⟨Memory.empty.withTable t, 0, 0, []⟩) rfl hempty rfl
    (hprepare monday _ rfl) hfirst hput
  have hsound : (t.rows.put first (ofDocument monday)).Sound t := hempty.put hfirst
  have hfree : (t.rows.put first (ofDocument monday)).find? second = none := if_neg hne
  replace hsecond : (t.rows.put first (ofDocument monday)).keyText (ofDocument tuesday) = .ok second := hsecond
  have hput := put_checked (Memory.table?_setTable (Memory.empty.withTable t) "events" _) hsound
    (fun item hitem => by cases hfree.symm.trans hitem) hsecond
  rw [hfree] at hput
  obtain ⟨_, log', -, htuesday⟩ := create_yields (w := ⟨_, 0, 0, log⟩) rfl hsound rfl (hprepare tuesday _ rfl) hsecond hput
  refine ⟨_, _, _, hmonday, htuesday, Memory.table?_setTable _ _ _, fun hnodup => ?_⟩
  have hnew : second ∉ Fields.names [(first, ofDocument monday)] :=
    List.not_mem_cons_of_ne_of_not_mem hne.symm List.not_mem_nil
  have hsorted : Rows.Sorted [(first, ofDocument monday)] := List.pairwise_singleton _ _
  obtain ⟨as, bs, hitems, hinsert, -⟩ := Rows.insertSorted_new hsorted hnew (ofDocument tuesday)
  have hperm : ((t.rows.put first (ofDocument monday)).put second (ofDocument tuesday)).items.Perm
      [(second, ofDocument tuesday), (first, ofDocument monday)] := by
    refine (List.Perm.of_eq hinsert).trans ?_
    rw [hitems]
    exact List.perm_middle
  exact absurd ((hperm.map _).nodup_iff.1 hnodup) fun h => (List.nodup_cons.1 h).1 (List.mem_singleton_self _)

end Dynamo

end DocQuery
