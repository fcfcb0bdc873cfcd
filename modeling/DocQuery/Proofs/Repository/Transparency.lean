import DocQuery.Proofs.Cosmos.Selection
import DocQuery.Proofs.Dynamo.Selection
import DocQuery.Proofs.Equality

/-!
# Selections are transparent

What an operation selects goes into the calls that it sends, and the store already leaves out the rest. No search shows that: it comes
to the documents that it would come to without a selection, in the same order and with the same cursor, each reduced to what is
selected. So does a lookup, but for one: a read by key hands an item to the adapter without a look at its attributes, so an attribute
that cannot be read fails the lookup only where it is selected.
-/

namespace DocQuery

open Operation

variable {I : Interface} {S : Type}

namespace Repository

/-- Whatever a search selects, it comes to the page that it comes to without a selection, each of its documents reduced. -/
def SearchesReduce (env : Surroundings I S) (options : Options) (w : World I S) (r : Repository I Document) : Prop :=
  ∀ (args : FindArgs) (select : Select), (Operation.run env r.config options w (r.findMany { args with select })).1 =
    (Operation.run env r.config options w (r.findMany { args with select := Select.all })).1.map (RecordsPage.project select)

/-- Whatever a lookup selects, it comes to the record that it comes to without a selection, reduced. -/
def LookupReduces (env : Surroundings I S) (options : Options) (w : World I S) (r : Repository I Document) (id : String) : Prop :=
  ∀ select : Select, (Operation.run env r.config options w (r.findOne id select)).1 =
    (Operation.run env r.config options w (r.findOne id Select.all)).1.map select.project

section

variable {env : Surroundings I S} {options : Options} {w : World I S} {r : Repository I Document}

/-- Searches that come to one page reduce it. -/
theorem searchesReduce_of_uniform
    (h : ∀ args : FindArgs, Uniform (fun _ => True)
      (fun select => (Operation.run env r.config options w (r.findMany { args with select })).1)
      fun select (page : RecordsPage Document) => .ok (page.project select)) : r.SearchesReduce env options w := by
  intro args select
  refine ((h args).eq_bind (i := Select.all) (fun page => congrArg Except.ok page.project_all) select).trans ?_
  cases (Operation.run env r.config options w (r.findMany { args with select := Select.all })).1 <;> rfl

/-- Lookups that come to one record reduce it. -/
theorem lookupReduces_of_uniform {id : String}
    (h : Uniform (fun _ => True) (fun select => (Operation.run env r.config options w (r.findOne id select)).1)
      fun select (d : Document) => .ok (select.project d)) : r.LookupReduces env options w id := by
  intro select
  refine (h.eq_bind (i := Select.all) (fun _ => rfl) select).trans ?_
  cases (Operation.run env r.config options w (r.findOne id Select.all)).1 <;> rfl

end

end Repository

namespace Dynamo

/-- The item under an identifier has an attribute that cannot be read: a lookup of the whole record says so, and one that selects
reads what it selects. -/
def LookupUnreadable (env : Surroundings service Memory) (options : Options) (w : World service Memory)
    (r : Repository service Document) (t : Table) (id : String) : Prop :=
  ∃ item fault, w.store.stored t id = .ok (some item) ∧ toDocument item = .error fault ∧
    (Operation.run env r.config options w (r.findOne id Select.all)).1 = .error (.contractViolation (.attribute fault)) ∧
    ∀ select, (Operation.run env r.config options w (r.findOne id select)).1 =
      (readItem (projectItem select.selected? item)).map select.project

section

variable (config : EntityConfig) (options : Options) (clock : Nat → Instant) (ids : Nat → String) (latency : Nat) (t : Table)
  (w : World service Memory) (id : String)

/-- A lookup by the whole key reduces the record, unless its item cannot be read. -/
theorem lookupReduces_or_unreadable (hs : t.sortKey = none) :
    (Repository.ofDocuments config (adapter t)).LookupReduces ⟨Memory.answer, clock, ids, latency⟩ options w id ∨
      LookupUnreadable ⟨Memory.answer, clock, ids, latency⟩ options w (Repository.ofDocuments config (adapter t)) t id := by
  obtain ⟨found, hstored, hfound⟩ := findOne_uniform_of_none config options clock ids latency t w hs id
  cases found with
  | error e => exact .inl fun select => (hfound select).trans (congrArg (Except.map select.project) (hfound Select.all)).symm
  | ok item =>
    cases hdocument : toDocument item with
    | error fault =>
      have hread : readItem item = .error (.contractViolation (.attribute fault)) := by rw [readItem, hdocument]; rfl
      refine .inr ⟨item, fault, hstored item rfl, hdocument, (hfound Select.all).trans ?_, hfound⟩
      exact congrArg (Except.map Select.all.project) hread
    | ok d =>
      have hview (select : Select) : (Operation.run ⟨Memory.answer, clock, ids, latency⟩ config options w
          ((Repository.ofDocuments config (adapter t)).findOne id select)).1 = .ok (select.project d) := by
        refine (hfound select).trans ?_
        show (readItem (projectItem select.selected? item)).map select.project = _
        rw [readItem, toDocument_projectItem hdocument]
        exact congrArg Except.ok (Select.project_project select d)
      exact .inl fun select => (hview select).trans (congrArg (Except.map select.project) (hview Select.all)).symm

end

end Dynamo

/-- What a selection leaves of a document is what is selected of it, and the searches and lookups of both families come to what
they come to without a selection, reduced so: in any world, with any arguments, and failures included. The one exception is a
lookup by a whole key where the item cannot be read. -/
theorem selections_transparent :
    (∀ (select : Select) (d : Document), select.Reduces d (select.project d)) ∧
    ∀ (config : EntityConfig) (options : Options) (clock : Nat → Instant) (ids : Nat → String) (latency : Nat),
      (∀ (c : Cosmos.Container) (w : World Cosmos.service Cosmos.Memory),
        let r := Repository.ofDocuments config (Cosmos.adapter c)
        let env : Surroundings Cosmos.service Cosmos.Memory := ⟨Cosmos.Memory.answer, clock, ids, latency⟩
        r.SearchesReduce env options w ∧ ∀ id, r.LookupReduces env options w id) ∧
      ∀ (t : Dynamo.Table) (w : World Dynamo.service Dynamo.Memory),
        let r := Repository.ofDocuments config (Dynamo.adapter t)
        let env : Surroundings Dynamo.service Dynamo.Memory := ⟨Dynamo.Memory.answer, clock, ids, latency⟩
        r.SearchesReduce env options w ∧
          ∀ id, r.LookupReduces env options w id ∨ t.sortKey = none ∧ Dynamo.LookupUnreadable env options w r t id := by
  refine ⟨Select.reduces_project, fun config options clock ids latency =>
    ⟨fun c w => ⟨?_, fun id => ?_⟩, fun t w => ⟨?_, fun id => ?_⟩⟩⟩
  · exact Repository.searchesReduce_of_uniform (Cosmos.findMany_uniform config options clock ids latency c w)
  · exact Repository.lookupReduces_of_uniform (Cosmos.findOne_uniform config options clock ids latency c w id)
  · exact Repository.searchesReduce_of_uniform (Dynamo.findMany_uniform config options clock ids latency t w)
  · cases hs : t.sortKey with
    | some sortKey =>
      exact .inl (Repository.lookupReduces_of_uniform (Dynamo.findOne_uniform config options clock ids latency t w hs id))
    | none => exact (Dynamo.lookupReduces_or_unreadable config options clock ids latency t w id hs).imp_right (⟨rfl, ·⟩)

/-- An attribute that cannot be read and is not selected: the lookup of the whole record fails over it, and the one that selects the
identifier succeeds. -/
theorem unreadable_attribute_left_out :
    let t : Dynamo.Table := ⟨"users", "id", none⟩
    let r := Repository.ofDocuments (.ofName "User") (Dynamo.adapter t)
    let item : Dynamo.Item := [("id", .obj [("S", .str "a")]), ("age", .obj [("N", .null)])]
    let env : Surroundings Dynamo.service Dynamo.Memory := ⟨Dynamo.Memory.answer, fun _ => ⟨0, 0⟩, fun _ => "", 0⟩
    let w : World Dynamo.service Dynamo.Memory :=
      ⟨((Dynamo.Memory.empty.withTable t).put ⟨"users", item, none, none, none⟩).2, 0, 0, []⟩
    (Operation.run env r.config .none w (r.findOne "a" Select.all)).1 = .error (.contractViolation (.attribute (.notText "N"))) ∧
      (Operation.run env r.config .none w (r.findOne "a" (Select.ofFields ["id"]))).1 = .ok [("id", .str "a")] ∧
      ¬ r.LookupReduces env .none w "a" := by
  intro t r item env w
  obtain ⟨hwhole, hselected⟩ : (Operation.run env r.config .none w (r.findOne "a" Select.all)).1 =
      .error (.contractViolation (.attribute (.notText "N"))) ∧
        (Operation.run env r.config .none w (r.findOne "a" (Select.ofFields ["id"]))).1 = .ok [("id", .str "a")] := by
    revert t r item env w
    decide +kernel
  refine ⟨hwhole, hselected, fun h => ?_⟩
  have hreduced := h (Select.ofFields ["id"])
  rw [hselected, hwhole] at hreduced
  cases hreduced

end DocQuery
