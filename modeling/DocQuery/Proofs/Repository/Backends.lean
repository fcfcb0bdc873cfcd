import DocQuery.Proofs.Cosmos.Contract
import DocQuery.Proofs.Dynamo.Contract

/-!
# Two stores, one contract

A repository over a table and one over a container answer the same calls alike, and hold the same records after each of them. Main
statement: `backends_agree`, over every sequence of calls from empty stores.
-/

namespace DocQuery

/-! ## Runs of calls -/

/-- The answers to calls one after the other, each with the store after it. -/
def Repository.trace {I : Interface} {S : Type} (env : Surroundings I S) (r : Repository I Document) :
    List (RecordCall × Options) → World I S → List (Except Error (Option Document) × S)
  | [], _ => []
  | (call, options) :: rest, w =>
    let (answer, w) := Operation.run env r.config options w (call.perform r)
    (answer, w.store) :: r.trace env rest w

namespace Coupling

variable {I J : Interface} {S T α β : Type} {c : Coupling I J S T}

/-- Operations that agree are run to alike results in worlds that stay in step, whatever time their caller gives them. -/
theorem Agree.run {V : α → β → Prop} {x : Operation I α} {y : Operation J β} (h : c.Agree V x y) {w : World I S} {v : World J T}
    (hs : c.InStep w v) (config : EntityConfig) (options : Options) :
    Alike V (Operation.run c.left config options w x).1 (Operation.run c.right config options v y).1 ∧
      c.InStep (Operation.run c.left config options w x).2 (Operation.run c.right config options v y).2 := by
  obtain ⟨r, s, w', v', hx, hy, hrs, hs'⟩ := h w v hs
  rw [hx.run c.left_prompt, hy.run c.right_prompt]
  split
  · exact ⟨.error rfl, hs⟩
  · exact ⟨hrs, hs'⟩

/-- Repositories whose operations agree answer calls alike, and leave corresponding stores after each of them. -/
theorem trace_agree {r : Repository I Document} {s : Repository J Document} (hconfig : r.config = s.config)
    (h : ∀ call : RecordCall, call.Admissible → c.Agree Eq (call.perform r) (call.perform s))
    {calls : List (RecordCall × Options)} (hcalls : ∀ call ∈ calls, call.1.Admissible) {w : World I S} {v : World J T}
    (hs : c.InStep w v) :
    List.Forall₂ (fun a b => Alike Eq a.1 b.1 ∧ c.Correspond a.2 b.2) (r.trace c.left calls w) (s.trace c.right calls v) := by
  induction calls generalizing w v with
  | nil => exact .nil
  | cons call calls ih =>
    obtain ⟨call, options⟩ := call
    obtain ⟨hcall, hrest⟩ := List.forall_mem_cons.1 hcalls
    obtain ⟨halike, hs'⟩ := (h call hcall).run hs r.config options
    rw [Repository.trace, Repository.trace, ← hconfig]
    exact .cons ⟨halike, hs'.store⟩ (ih hrest hs')

end Coupling

/-! ## What the stores hold -/

/-- The documents in a table, in the order of their key texts. -/
def Dynamo.kept? (s : Dynamo.Memory) (table : String) : Option (List Document) := do
  let rows ← s.table? table
  (rows.items.mapM fun e => Dynamo.toDocument e.2).toOption

/-- The documents in a container, in the order in which they were stored. -/
def Cosmos.kept? (s : Cosmos.Memory) (c : Cosmos.Container) : Option (List Document) := (s.shelf? c).map (·.documents)

/-- Documents in two stores that are the same map from identifiers to documents. -/
def SameMap (left right : Option (List Document)) : Prop :=
  ∃ ds es m, left = some ds ∧ right = some es ∧ Lists ds m ∧ Lists es m ∧ ds.Perm es

/-- The documents of rows are those that they were made of. -/
theorem Dynamo.mapM_rowOf {ds : List Document} (h : ∀ d ∈ ds, Storable d) :
    (ds.map rowOf).mapM (fun e => toDocument e.2) = .ok ds := by
  induction ds with
  | nil => rfl
  | cons d ds ih =>
    obtain ⟨hd, hds⟩ := List.forall_mem_cons.1 h
    have hread : toDocument (rowOf d).2 = .ok d := toDocument_ofDocument hd.narrow
    rw [List.map_cons, List.mapM_cons, hread, ih hds]
    rfl

/-- The documents in a table that lists records. -/
theorem Dynamo.Holds.kept? {t : Dynamo.Table} {s : Dynamo.Memory} {m : Records} (h : Dynamo.Holds t s m) :
    ∃ ds, Dynamo.kept? s t.name = some ds ∧ Lists ds m := by
  obtain ⟨ds, htable, -, hds⟩ := h.lists
  refine ⟨ds, ?_, hds⟩
  have hread : (Dynamo.rowsOf ds).items.mapM (fun e => Dynamo.toDocument e.2) = .ok ds := Dynamo.mapM_rowOf hds.storable
  rw [Dynamo.kept?, htable]
  simp only [Option.bind_eq_bind, Option.bind_some, hread]
  rfl

/-- The documents in a container that lists records. -/
theorem Cosmos.Holds.kept? {c : Cosmos.Container} {s : Cosmos.Memory} {m : Records} (h : Cosmos.Holds c s m) :
    ∃ ds, Cosmos.kept? s c = some ds ∧ Lists ds m := by
  obtain ⟨ds, hshelf, hds⟩ := h.lists
  exact ⟨ds, by rw [Cosmos.kept?, hshelf]; rfl, hds⟩

/-! ## The stores side by side -/

/-- A table and a container with one clock and one source of identifiers; they correspond while they hold the same records. -/
def backends (clock : Nat → Instant) (ids : Nat → String) (t : Dynamo.Table) (c : Cosmos.Container) :
    Coupling Dynamo.service Cosmos.service Dynamo.Memory Cosmos.Memory where
  left := Dynamo.surroundings clock ids
  right := Cosmos.surroundings clock ids
  Correspond s u := ∃ m, Dynamo.Holds t s m ∧ Cosmos.Holds c u m
  clock := rfl
  ids := rfl
  left_prompt := rfl
  right_prompt := rfl

/-- A table without items holds no records. -/
theorem Dynamo.holds_empty (name : String) :
    Dynamo.Holds ⟨name, "id", none⟩ (Dynamo.Memory.empty.withTable ⟨name, "id", none⟩) Records.empty where
  failure := rfl
  lists := ⟨[], Memory.table?_setTable _ _ _, List.Pairwise.nil, Lists.empty⟩

/-- A container without documents holds no records. -/
theorem Cosmos.holds_empty (database name : String) :
    Cosmos.Holds ⟨database, name, "id"⟩ (Cosmos.Memory.empty.withContainer ⟨database, name, "id"⟩) Records.empty where
  failure := rfl
  lists := ⟨[], by simp [Memory.shelf?, Memory.withContainer, Memory.empty], Lists.empty⟩

/-- The repositories over an empty table and an empty container answer every sequence of calls alike, and hold the same records
after each call. -/
theorem backends_agree (config : EntityConfig) (clock : Nat → Instant) (ids : Nat → String) (table database container : String)
    (calls : List (RecordCall × Options)) (h : ∀ call ∈ calls, call.1.Admissible) :
    let t : Dynamo.Table := ⟨table, "id", none⟩
    let c : Cosmos.Container := ⟨database, container, "id"⟩
    List.Forall₂ (fun a b => Alike Eq a.1 b.1 ∧ SameMap (Dynamo.kept? a.2 table) (Cosmos.kept? b.2 c))
      ((Repository.ofDocuments config (Dynamo.adapter t)).trace (Dynamo.surroundings clock ids) calls
        ⟨Dynamo.Memory.empty.withTable t, 0, 0, []⟩)
      ((Repository.ofDocuments config (Cosmos.adapter c)).trace (Cosmos.surroundings clock ids) calls
        ⟨Cosmos.Memory.empty.withContainer c, 0, 0, []⟩) := by
  intro t c
  have hagree : ∀ call : RecordCall, call.Admissible → (backends clock ids t c).Agree Eq
      (call.perform (Repository.ofDocuments config (Dynamo.adapter t)))
      (call.perform (Repository.ofDocuments config (Cosmos.adapter c))) := fun call hcall =>
    Repository.perform_agree (c := backends clock ids t c) (Dynamo.adapter_keeps rfl rfl) (Cosmos.adapter_keeps rfl)
      (fun _ _ => Iff.rfl) config hcall
  have hstep : (backends clock ids t c).InStep ⟨Dynamo.Memory.empty.withTable t, 0, 0, []⟩
      ⟨Cosmos.Memory.empty.withContainer c, 0, 0, []⟩ :=
    ⟨⟨Records.empty, Dynamo.holds_empty table, Cosmos.holds_empty database container⟩, rfl, rfl⟩
  have htrace := Coupling.trace_agree (r := Repository.ofDocuments config (Dynamo.adapter t))
    (s := Repository.ofDocuments config (Cosmos.adapter c)) rfl hagree h hstep
  refine htrace.imp fun a b hab => ⟨hab.1, ?_⟩
  obtain ⟨m, hs, hu⟩ := hab.2
  obtain ⟨ds, hkept, hds⟩ := hs.kept?
  obtain ⟨es, hkept', hes⟩ := hu.kept?
  exact ⟨ds, es, m, hkept, hkept', hds, hes, hds.perm hes⟩

/-- The same for a record that is created, created once more, changed, found and removed, with checks. -/
theorem backends_agree_over_a_life :
    let t : Dynamo.Table := ⟨"users", "id", none⟩
    let c : Cosmos.Container := ⟨"app", "users", "id"⟩
    let config : EntityConfig := ⟨"User", .default, .existenceChecked, 20, 100, none⟩
    let clock : Nat → Instant := fun n => ⟨n, 0⟩
    let ids : Nat → String := fun n => String.ofList (Decimal.naturalText n)
    let calls : List (RecordCall × Options) :=
      [(.create (.obj [("id", .str "u-1"), ("name", .str "Ada")]), .none),
       (.create (.obj [("id", .str "u-1")]), .none),
       (.update "u-1" (.obj [("tags", .arr [.null, .bool true]), ("id", .str "u-1")]), .none),
       (.findOne "u-1" (Select.ofFields ["tags", "name"]), .none),
       (.delete "u-1", .none)]
    (∀ call ∈ calls, call.1.Admissible) ∧
      List.Forall₂ (fun a b => Alike Eq a.1 b.1 ∧ SameMap (Dynamo.kept? a.2 "users") (Cosmos.kept? b.2 c))
        ((Repository.ofDocuments config (Dynamo.adapter t)).trace (Dynamo.surroundings clock ids) calls
          ⟨Dynamo.Memory.empty.withTable t, 0, 0, []⟩)
        ((Repository.ofDocuments config (Cosmos.adapter c)).trace (Cosmos.surroundings clock ids) calls
          ⟨Cosmos.Memory.empty.withContainer c, 0, 0, []⟩) := by
  intro t c config clock ids calls
  have hcalls : ∀ call ∈ calls, call.1.Admissible := by
    simp only [calls, List.forall_mem_cons, RecordCall.Admissible, Storable, Json.Narrow, Json.NarrowItems]
    simp [Cosmos.systemProperties]
  exact ⟨hcalls, backends_agree config clock ids "users" "app" "users" calls hcalls⟩

end DocQuery
