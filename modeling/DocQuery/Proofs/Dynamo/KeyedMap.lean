import DocQuery.Proofs.Dynamo.Reachable

/-!
# Tables are keyed maps

What a table of a store in memory is, from outside: a map from the values of the key attributes to items. The key text stands for these
values, since different values never share one (`keyText_eq_iff`); every item is kept under its own key text, whatever was asked of the
store and however it failed; and a call that writes changes what stands under one key, and says what it leaves there. Main statement:
`tables_keyed`.
-/

namespace DocQuery.Dynamo

/-! ## Entries -/

namespace Rows

variable {rows : Rows} {key k : String}

/-- Putting an item under a key text leaves the others alone. -/
theorem find?_put_of_ne (rows : Rows) (item : Item) (h : k ≠ key) : (rows.put key item).find? k = rows.find? k := by
  unfold put find?
  induction rows.items with
  | nil => simp [insertSorted, Fields.get?_cons, Ne.symm h]
  | cons e items ih =>
    obtain ⟨l, i⟩ := e
    unfold insertSorted
    cases hc : compare key l with
    | lt => simp [Fields.get?_cons, Ne.symm h]
    | eq =>
      obtain rfl : key = l := Std.LawfulEqCmp.eq_of_compare hc
      simp [Fields.get?_cons, Ne.symm h]
    | gt => simp only [Fields.get?_cons, ih]

/-- Removing an item leaves the others alone. -/
theorem find?_erase_of_ne (rows : Rows) (h : k ≠ key) : (rows.erase key).find? k = rows.find? k := by
  unfold erase find? Fields.drop
  rw [Fields.get?_filter (· != key), if_pos (bne_iff_ne.2 h)]

/-- A table that differs from another one, of the same keys, in some entries at most. -/
structure DiffersAt (changed : String → Prop) (rows after : Rows) : Prop where
  partitionKey : after.partitionKey = rows.partitionKey
  sortKey : after.sortKey = rows.sortKey
  others : ∀ k, ¬changed k → after.find? k = rows.find? k

/-- Putting an item changes the entry under its key text. -/
theorem differsAt_put (rows : Rows) (key : String) (item : Item) : DiffersAt (· = key) rows (rows.put key item) :=
  ⟨rfl, rfl, fun _ hk => find?_put_of_ne rows item hk⟩

/-- Removing an item changes the entry under its key text. -/
theorem differsAt_erase (rows : Rows) (key : String) : DiffersAt (· = key) rows (rows.erase key) :=
  ⟨rfl, rfl, fun _ hk => find?_erase_of_ne rows hk⟩

/-- A table as a map from the values of key attributes: every item is under its own key text, in their order, and no two items have the
same values. -/
structure Keyed (rows : Rows) : Prop where
  own : ∀ e ∈ rows.items, rows.keyText e.2 = .ok e.1
  sorted : Sorted rows.items
  apart : (rows.items.map fun e => rows.address e.2).Nodup

/-- A change keeps a table a keyed map. -/
theorem Keyed.change {call : Call} {after : Rows} (h : rows.Keyed) (hchange : Change call rows after) : after.Keyed := by
  have hsound : rows.Sound ⟨"", rows.partitionKey, rows.sortKey⟩ := ⟨rfl, rfl, h.own⟩
  have hown := (hchange.sound hsound).keyed
  have hsorted := hchange.sorted h.sorted
  exact ⟨hown, hsorted, hsorted.nodup_address hown⟩

/-- So does adding documents, also where one of them is refused. -/
theorem Keyed.seed (h : rows.Keyed) (ds : List Document) : (Memory.seedRows rows ds).2.Keyed := by
  refine seedRows_keeps (P := Rows.Keyed) (fun {rows d key} hr hkey => ?_) h ds
  have hsound : rows.Sound ⟨"", rows.partitionKey, rows.sortKey⟩ := ⟨rfl, rfl, hr.own⟩
  have hown := (hsound.put hkey).keyed
  have hsorted := hr.sorted.insert key (ofDocument d)
  exact ⟨hown, hsorted, Sorted.nodup_address hsorted hown⟩

/-- Adding documents changes the entries under their key texts, up to those of the one that is refused. -/
theorem differsAt_seed (rows : Rows) (ds : List Document) :
    DiffersAt (fun k => ∃ d ∈ ds, rows.keyText (ofDocument d) = .ok k) rows (Memory.seedRows rows ds).2 := by
  induction ds generalizing rows with
  | nil => exact ⟨rfl, rfl, fun _ _ => rfl⟩
  | cons d ds ih =>
    rw [Memory.seedRows]
    cases hkey : rows.keyText (ofDocument d) with
    | error e => exact ⟨rfl, rfl, fun _ _ => rfl⟩
    | ok key =>
      obtain ⟨hpartition, hsort, hothers⟩ := ih (rows.put key (ofDocument d))
      refine ⟨hpartition, hsort, fun k hk => ?_⟩
      have hne : k ≠ key := by
        rintro rfl
        exact hk ⟨d, List.mem_cons_self, hkey⟩
      have hrest : ¬∃ d' ∈ ds, rows.keyText (ofDocument d') = .ok k := by
        rintro ⟨d', hd', h⟩
        exact hk ⟨d', List.mem_cons_of_mem d hd', h⟩
      exact (hothers k hrest).trans (find?_put_of_ne rows _ hne)

end Rows

/-! ## Accesses -/

/-- What may be asked of a store: to add documents, to fail the next call, or to answer a call. -/
inductive Access where
  | seed (table : String) (ds : List Document)
  | failNext (e : StoreError)
  | call (c : Call)

/-- The store after an access, whether it succeeds or fails. -/
def Access.run (m : Memory) : Access → Memory
  | .seed table ds => (m.seed table ds).2
  | .failNext e => { m with failure := some e }
  | .call c => (Memory.answer c m).2

/-- The item whose key a call that writes is about. -/
def Call.about? : Call → Option Item
  | .put r => some r.item
  | .update r => some r.key
  | .delete r => some r.key
  | .scan _ | .query _ | .get _ => none

/-- A call that is about no key does not write. -/
theorem Call.not_writes {call : Call} (h : call.about? = none) : ¬call.Writes := by
  cases call with
  | scan r => exact not_false
  | query r => exact not_false
  | get r => exact not_false
  | put r => cases h
  | update r => cases h
  | delete r => cases h

/-- What a call that writes leaves under its key, by its answer. -/
def Call.leaves : (call : Call) → call.Answer → Option Item
  | .put r, _ => some r.item
  | .update _, stored => stored
  | .delete _, _ => none
  | .scan _, _ | .query _, _ | .get _, _ => none

namespace Memory

variable {m m' : Memory} {call : Call}

/-- Every access keeps the tables keyed maps. -/
theorem keyed_of_access (h : m.All Rows.Keyed) (access : Access) : (access.run m).All Rows.Keyed := by
  cases access with
  | seed table ds => exact h.seed table ds fun _ hr => hr.seed ds
  | failNext e => exact h
  | call c => exact h.answer fun _ _ hchange hr => hr.change hchange

/-- Stores that come about by accesses, from one with some empty tables, have keyed maps. -/
theorem keyed_of_accesses (ts : List Table) (accesses : List Access) :
    (accesses.foldl Access.run (ts.foldl withTable empty)).All Rows.Keyed := by
  have hnew : ∀ m : Memory, m.All Rows.Keyed → (ts.foldl withTable m).All Rows.Keyed := by
    induction ts with
    | nil => exact fun m hm => hm
    | cons t ts ih => exact fun m hm => ih _ (hm.withTable t ⟨nofun, .nil, .nil⟩)
  have hempty : (ts.foldl withTable empty).All Rows.Keyed := hnew empty nofun
  generalize ts.foldl withTable empty = m at hempty
  induction accesses generalizing m with
  | nil => exact hempty
  | cons a accesses ih => exact ih _ (keyed_of_access hempty a)

/-- A call that writes and succeeds leaves what it says under its own key, and every other entry of the table as it was. -/
theorem differsAt_answer {answer : call.Answer} (h : Memory.answer call m = (.ok answer, m')) {item : Item}
    (habout : call.about? = some item) :
    ∃ rows key after, m.table? call.table = some rows ∧ rows.keyText item = .ok key ∧ m' = m.setTable call.table after ∧
      after.find? key = call.leaves answer ∧ Rows.DiffersAt (· = key) rows after := by
  have hact := act_of_ok h
  cases call with
  | scan r => cases habout
  | query r => cases habout
  | get r => cases habout
  | put r =>
    cases habout
    obtain ⟨rows, key, -, hrows, hkey, -, hstore⟩ := put_ok hact
    exact ⟨rows, key, rows.put key r.item, hrows, hkey, hstore, rows.find?_put key _, rows.differsAt_put key _⟩
  | update r =>
    cases habout
    obtain ⟨rows, key, -, -, item, hrows, hkey, -, -, -, -, rfl, hstore⟩ := update_ok hact
    exact ⟨rows, key, rows.put key item, hrows, hkey, hstore, rows.find?_put key _, rows.differsAt_put key _⟩
  | delete r =>
    cases habout
    obtain ⟨rows, key, hrows, hkey, hstore⟩ := delete_ok hact
    exact ⟨rows, key, rows.erase key, hrows, hkey, hstore, rows.find?_erase key, rows.differsAt_erase key⟩

/-- Adding documents to a table that is there. -/
theorem seed_eq {name : String} {rows : Rows} (h : m.table? name = some rows) (ds : List Document) :
    (m.seed name ds).2 = m.setTable name (seedRows rows ds).2 := by
  unfold Memory.seed
  rw [h]

end Memory

/-- The tables of a store in memory are keyed maps. Two items share a key text exactly if the values of their key attributes are the
same. In a store that has come about by any accesses to some tables, be they well-formed, refused or failed, every item is under its own
key text, in their order, and no two items have the same values. From there, a call that fails leaves the tables as they are, and so
does one that only reads; one that writes and succeeds leaves what it says under its own key, every other entry of its table as it was,
and the other tables; and documents that are added, up to one that is refused, change no entries but those under their own keys. -/
theorem tables_keyed :
    (∀ (rows : Rows) (item other : Item) (key : String), rows.keyText item = .ok key →
      (rows.keyText other = .ok key ↔ rows.address item = rows.address other)) ∧
    ∀ (ts : List Table) (accesses : List Access),
      let m := accesses.foldl Access.run (ts.foldl Memory.withTable Memory.empty)
      (∀ name rows, m.table? name = some rows → rows.Keyed) ∧
        (∀ (call : Call) e m', Memory.answer call m = (.error e, m') → m'.tables = m.tables) ∧
        (∀ (call : Call) answer m', Memory.answer call m = (.ok answer, m') →
          (call.about? = none → m'.tables = m.tables) ∧
            ∀ item, call.about? = some item → ∃ rows key after, m.table? call.table = some rows ∧ rows.keyText item = .ok key ∧
              m'.table? call.table = some after ∧ after.find? key = call.leaves answer ∧ Rows.DiffersAt (· = key) rows after ∧
              ∀ name ≠ call.table, m'.table? name = m.table? name) ∧
        ∀ table ds, (∀ name ≠ table, (m.seed table ds).2.table? name = m.table? name) ∧
          ∀ rows, m.table? table = some rows → ∃ after, (m.seed table ds).2.table? table = some after ∧
            Rows.DiffersAt (fun k => ∃ d ∈ ds, rows.keyText (ofDocument d) = .ok k) rows after := by
  refine ⟨fun rows item other key h => Rows.keyText_eq_iff h, ?_⟩
  intro ts accesses m
  refine ⟨?keyed, ?failed, ?answered, ?seeded⟩
  case keyed => exact Memory.keyed_of_accesses ts accesses
  case failed =>
    intro call e m' h
    have htables := @Memory.tables_of_error m call e (congrArg Prod.fst h)
    rwa [h] at htables
  case answered =>
    intro call answer m' h
    constructor
    · intro habout
      have htables := Memory.tables_of_reads (m := m) (Call.not_writes habout)
      rwa [h] at htables
    · intro item habout
      obtain ⟨rows, key, after, hrows, hkey, rfl, hleaves, hdiffers⟩ := Memory.differsAt_answer h habout
      exact ⟨rows, key, after, hrows, hkey, Memory.table?_setTable m call.table after, hleaves, hdiffers,
        fun name hname => Memory.table?_setTable_of_ne m hname after⟩
  case seeded =>
    intro table ds
    cases hm : m.table? table with
    | none => exact ⟨fun name _ => by simp only [Memory.seed, hm], nofun⟩
    | some rows =>
      rw [Memory.seed_eq hm ds]
      refine ⟨fun name hname => Memory.table?_setTable_of_ne m hname _, ?_⟩
      intro found hfound
      obtain rfl := Option.some.inj hfound
      exact ⟨_, Memory.table?_setTable m table _, rows.differsAt_seed ds⟩

end DocQuery.Dynamo
