import DocQuery.Proofs.Cosmos.Reordering
import DocQuery.Proofs.Dynamo.Reordering
import DocQuery.Proofs.Repository.Backends

/-!
# The order of keys in a filter

Objects in JSON have no order, so neither may the filters that they state. Main statement: filters whose fields, and the operators
and modes of each field, are stated in another order are both accepted or both refused, and no search of a table or a container tells
them apart (`key_order_irrelevant`).
-/

namespace DocQuery

/-! ## Searches of a table -/

namespace Dynamo

/-- A store in whose way no failure is, and the documents in one of its tables. -/
structure Offers (t : Table) (s : Memory) (ds : List Document) : Prop where
  failure : s.failure = none
  sound : s.Sound t
  kept : kept? s t.name = some ds

/-- Searches of a table do not tell two filters apart. -/
structure SearchedAlike (t : Table) (w v : Where) : Prop where
  /-- Both filters have the same key conditions, or both have none. -/
  keys : (keyPlan? t w).map Prod.fst = (keyPlan? t v).map Prod.fst
  /-- Requests with them are both sent as queries by these conditions, or both as scans. -/
  plan : ∀ (select : Select) (order : Order) (take : Nat) (continuation : Option String) (c d : Call),
    planRead t ⟨w, select, order, take, continuation⟩ = .ok c → planRead t ⟨v, select, order, take, continuation⟩ = .ok d →
      c.SamePlan d
  /-- Whatever is asked for besides, and whatever the store is like, the results are the same, or failures over lists that are too
  long. -/
  result : ∀ (config : EntityConfig) (options : Options) (clock : Nat → Instant) (ids : Nat → String) (latency : Nat)
    (world : World service Memory) (select : Select) (order : Order) (take : Nat) (continuation : Option String),
    world.store.Sound t → SameOrTooLong
      (Operation.run ⟨Memory.answer, clock, ids, latency⟩ config options world
        ((adapter t).findMany ⟨w, select, order, take, continuation⟩)).1
      (Operation.run ⟨Memory.answer, clock, ids, latency⟩ config options world
        ((adapter t).findMany ⟨v, select, order, take, continuation⟩)).1
  /-- A page that is large enough for all records holds those that pass the filters, or there is none because of a list that is too
  long. -/
  complete : ∀ (config : EntityConfig) (options : Options) (clock : Nat → Instant) (ids : Nat → String)
    (world : World service Memory) (ds : List Document) (select : Select) (take : Nat),
    Offers t world.store ds → options.cancelAfter ≠ some 0 → ds.length ≤ take →
      (∃ items, items.Perm ((ds.filter fun d => w.Passes .casings d).map select.project) ∧
        (Operation.run (surroundings clock ids) config options world
          ((adapter t).findMany ⟨w, select, Keyed.empty, take, none⟩)).1 = .ok ⟨items, none⟩ ∧
        (Operation.run (surroundings clock ids) config options world
          ((adapter t).findMany ⟨v, select, Keyed.empty, take, none⟩)).1 = .ok ⟨items, none⟩) ∨
      ∃ e f, TooLong e ∧ TooLong f ∧
        (Operation.run (surroundings clock ids) config options world
          ((adapter t).findMany ⟨w, select, Keyed.empty, take, none⟩)).1 = .error e ∧
        (Operation.run (surroundings clock ids) config options world
          ((adapter t).findMany ⟨v, select, Keyed.empty, take, none⟩)).1 = .error f

/-- The documents of a table with the items that they are read from. -/
theorem documents_of_mapM {items : List (String × Item)} {ds : List Document}
    (h : (items.mapM fun e => toDocument e.2) = .ok ds) : ∃ es, documents items = .ok es ∧ es.map Prod.snd = ds := by
  induction items generalizing ds with
  | nil => cases h; exact ⟨[], rfl, rfl⟩
  | cons e items ih =>
    rw [List.mapM_cons] at h
    obtain ⟨d, hd, h⟩ := of_bind_eq_ok h
    obtain ⟨rest, hrest, h⟩ := of_bind_eq_ok h
    cases h
    obtain ⟨es, hes, rfl⟩ := ih hrest
    exact ⟨(e.2, d) :: es, by rw [documents, hd, hes]; rfl, rfl⟩

/-- The items of a table that offers documents. -/
theorem Offers.rows {t : Table} {s : Memory} {ds : List Document} (h : Offers t s ds) :
    ∃ rows es, s.table? t.name = some rows ∧ documents rows.items = .ok es ∧ es.map Prod.snd = ds := by
  obtain ⟨rows, htable, hread⟩ := Option.bind_eq_some_iff.1 h.kept
  cases hmap : rows.items.mapM fun e => toDocument e.2 with
  | error fault => rw [hmap] at hread; cases hread
  | ok ds' =>
    rw [hmap] at hread
    obtain ⟨es, hes, hds⟩ := documents_of_mapM hmap
    exact ⟨rows, es, htable, hes, hds.trans (Option.some.inj hread)⟩

/-- Searches of a table do not tell a valid filter from one in another order. -/
theorem searchedAlike (t : Table) {w v : Where} (h : w.Reordered v) (hv : w.Valid) : SearchedAlike t w v where
  keys := by
    have hplans := keyPlan?_reordered t h
    generalize keyPlan? t w = p, keyPlan? t v = q at hplans
    cases hplans with
    | none => rfl
    | some hpq => exact congrArg some hpq.1
  plan _ _ _ _ _ _ hc hd := planRead_samePlan h hc hd
  result config options clock ids latency world select order take continuation hsound :=
    findMany_reordered config options clock ids latency world t h hv hsound select order take continuation
  complete config options clock ids world ds select take hoffers hcancel htake := by
    obtain ⟨rows, es, htable, hes, rfl⟩ := hoffers.rows
    have hlength : rows.items.length ≤ take := by
      rwa [List.length_map, length_documents hes] at htake
    have hsame := findMany_reordered config options clock ids 0 world t h hv hoffers.sound select Keyed.empty take none
    have hlate := Operation.late?_of_prompt (surroundings clock ids) rfl config options
    obtain ⟨e, he, hrun⟩ | ⟨items, hrun, hitems⟩ := findMany_finds config options clock ids 0 world hv hoffers.failure htable
      (hoffers.sound rows htable) hes hcancel hlate select hlength
    · obtain heq | hlong := hsame
      · exact .inr ⟨e, e, he, he, hrun, heq.symm.trans hrun⟩
      · exact .inr hlong
    · obtain heq | ⟨e, f, -, -, herror, -⟩ := hsame
      · refine .inl ⟨items, ?_, hrun, heq.symm.trans hrun⟩
        rwa [List.filter_map, List.map_map]
      · cases hrun.symm.trans herror

end Dynamo

/-! ## Searches of a container -/

namespace Cosmos

/-- A store in whose way no failure is, and the documents in one of its containers. -/
structure Offers (c : Container) (s : Memory) (ds : List Document) : Prop where
  failure : s.failure = none
  kept : kept? s c = some ds

/-- Searches of a container do not tell two filters apart. -/
structure SearchedAlike (c : Container) (w v : Where) : Prop where
  /-- Whatever is asked for besides, and whatever the store is like, the results are the same. -/
  result : ∀ (config : EntityConfig) (options : Options) (clock : Nat → Instant) (ids : Nat → String) (latency : Nat)
    (world : World service Memory) (select : Select) (take : Nat) (continuation : Option String),
    (Operation.run ⟨Memory.answer, clock, ids, latency⟩ config options world
        ((adapter c).findMany ⟨w, select, Keyed.empty, take, continuation⟩)).1 =
      (Operation.run ⟨Memory.answer, clock, ids, latency⟩ config options world
        ((adapter c).findMany ⟨v, select, Keyed.empty, take, continuation⟩)).1
  /-- A page that is large enough for all records holds those that pass the filters, under the names that theirs are read as. -/
  complete : ∀ (config : EntityConfig) (options : Options) (clock : Nat → Instant) (ids : Nat → String)
    (world : World service Memory) (ds : List Document) (select : Select) (take : Nat),
    Offers c world.store ds → options.cancelAfter ≠ some 0 → ds.length ≤ take →
      ∃ items, items = (ds.filter fun d => w.PassesUnder seenName .small d).map (fun d => strip (projectFields (projected? select) d)) ∧
        (Operation.run (surroundings clock ids) config options world
          ((adapter c).findMany ⟨w, select, Keyed.empty, take, none⟩)).1 = .ok ⟨items, none⟩ ∧
        (Operation.run (surroundings clock ids) config options world
          ((adapter c).findMany ⟨v, select, Keyed.empty, take, none⟩)).1 = .ok ⟨items, none⟩

/-- Searches of a container do not tell a valid filter from one in another order. -/
theorem searchedAlike (c : Container) {w v : Where} (h : w.Reordered v) (hv : w.Valid) : SearchedAlike c w v where
  result config options clock ids latency world select take continuation :=
    findMany_reordered config options clock ids latency world c h hv select Keyed.empty (List.forall_mem_nil _) take continuation
  complete config options clock ids world ds select take hoffers hcancel htake := by
    obtain ⟨shelf, hshelf, rfl⟩ := Option.map_eq_some_iff.1 hoffers.kept
    have hlate := Operation.late?_of_prompt (surroundings clock ids) rfl config options
    have hrun := findMany_finds config options clock ids 0 world c hv hoffers.failure hshelf hcancel hlate select htake
    have hsame := findMany_reordered config options clock ids 0 world c h hv select Keyed.empty (List.forall_mem_nil _) take none
    exact ⟨_, rfl, hrun, hsame.symm.trans hrun⟩

end Cosmos

/-- The order of keys in a filter does not matter. Of two filters in JSON that differ in the order of their fields and of the keys in
the conditions on these, both are accepted or both are refused; and if they are accepted, neither searches of a table nor searches of
a container tell them apart. -/
theorem key_order_irrelevant {fields others : List (String × Json)} (h : Where.Rearranged fields others) :
    ((∃ w, Where.ofJson (.obj fields) = .ok w ∧ w.Valid) ↔ ∃ v, Where.ofJson (.obj others) = .ok v ∧ v.Valid) ∧
      ∀ w v, Where.ofJson (.obj fields) = .ok w → w.Valid → Where.ofJson (.obj others) = .ok v →
        (∀ t, Dynamo.SearchedAlike t w v) ∧ ∀ c, Cosmos.SearchedAlike c w v := by
  have hread := Where.ofJson_accord h
  generalize Where.ofJson (.obj fields) = x, Where.ofJson (.obj others) = y at hread
  cases hread with
  | error e f => exact ⟨⟨nofun, nofun⟩, nofun⟩
  | @ok w v hreordered =>
    refine ⟨⟨?_, ?_⟩, ?_⟩
    · rintro ⟨_, ⟨⟩, hv⟩
      exact ⟨v, rfl, hreordered.valid hv⟩
    · rintro ⟨_, ⟨⟩, hv⟩
      exact ⟨w, rfl, hreordered.symm.valid hv⟩
    · rintro _ _ ⟨⟩ hv ⟨⟩
      exact ⟨fun t => Dynamo.searchedAlike t hreordered hv, fun c => Cosmos.searchedAlike c hreordered hv⟩

/-- The same for a filter that pins a partition, has a range on its sort key and disregards case, over a table with a record. -/
theorem key_order_irrelevant_of_range :
    let fields : List (String × Json) :=
      [("customer", .obj [("equals", .str "c-1")]),
       ("day", .obj [("gte", Json.ofInt64 1), ("lte", Json.ofInt64 31)]),
       ("note", .obj [("mode", .str "insensitive"), ("contains", .str "late"), ("not", .str "paid")])]
    let others : List (String × Json) :=
      [("note", .obj [("not", .str "paid"), ("mode", .str "insensitive"), ("contains", .str "late")]),
       ("customer", .obj [("equals", .str "c-1")]),
       ("day", .obj [("lte", Json.ofInt64 31), ("gte", Json.ofInt64 1)])]
    let w : Where := Keyed.ofList
      [("customer", ⟨[.compare .equals (.text "c-1")], .sensitive⟩),
       ("day", ⟨[.compare .gte (.integer 1), .compare .lte (.integer 31)], .sensitive⟩),
       ("note", ⟨[.text .contains "late", .compare .not (.text "paid")], .insensitive⟩)]
    let v : Where := Keyed.ofList
      [("note", ⟨[.compare .not (.text "paid"), .text .contains "late"], .insensitive⟩),
       ("customer", ⟨[.compare .equals (.text "c-1")], .sensitive⟩),
       ("day", ⟨[.compare .lte (.integer 31), .compare .gte (.integer 1)], .sensitive⟩)]
    let t : Dynamo.Table := ⟨"orders", "customer", some "day"⟩
    let ds : List Document := [[("customer", .str "c-1"), ("day", Json.ofInt64 2), ("note", .str "Late")]]
    Where.Rearranged fields others ∧ Where.ofJson (.obj fields) = .ok w ∧ w.Valid ∧ Where.ofJson (.obj others) = .ok v ∧
      Dynamo.Offers t ((Dynamo.Memory.empty.withTable t).seed t.name ds).2 ds ∧
      (∀ t, Dynamo.SearchedAlike t w v) ∧ ∀ c, Cosmos.SearchedAlike c w v := by
  intro fields others w v t ds
  have hrearranged : Where.Rearranged fields others := by
    refine ⟨by decide, fields.rotate 2, (List.rotate_perm fields 2).symm, ?_⟩
    refine .cons ⟨rfl, ?_⟩ (.cons ⟨rfl, .refl _⟩ (.cons ⟨rfl, ?_⟩ .nil))
    · exact .perm (List.rotate_perm _ 2).symm (by decide)
    · exact .perm (.swap _ _ _) (by decide)
  have hread : Where.ofJson (.obj fields) = .ok w := by rfl
  have hread' : Where.ofJson (.obj others) = .ok v := by rfl
  have hvalid : w.Valid := by rfl
  have hsound : Dynamo.Memory.empty.Sound t := nofun
  have hoffers : Dynamo.Offers t ((Dynamo.Memory.empty.withTable t).seed t.name ds).2 ds :=
    ⟨rfl, hsound.withTable.seed t.name ds, rfl⟩
  exact ⟨hrearranged, hread, hvalid, hread', hoffers, (key_order_irrelevant hrearranged).2 w v hread hvalid hread'⟩

end DocQuery
