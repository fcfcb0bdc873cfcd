import DocQuery.Proofs.Cosmos.Checked
import DocQuery.Proofs.Dynamo.Checked
import DocQuery.Proofs.Repository.Backends

/-!
# Checked writes of one record at once

Over a container partitioned by the identifier, and over a table without a sort key, any number of checked creations, updates and
removals of one record may be under way together: in whatever order their calls arrive, they are consistent
(`checked_writes_consistent`).
-/

namespace DocQuery

/-- Checked writes of one record, whose arguments pass validation, are consistent under every schedule of their turns, over a
container that is partitioned by the identifier and over a table without a sort key. An operation begins with its first turn, so
some of them may begin after others have ended. -/
theorem checked_writes_consistent {config : EntityConfig} (hpolicy : config.writePolicy = .existenceChecked) {id : String}
    (hid : ValidId id) (clock : Nat → Instant) (ids : Nat → String) (calls : List RecordCall) (schedule : List Nat) :
    (∀ (c : Cosmos.Container) (w : World Cosmos.service Cosmos.Memory), c.partitionKey = "id" → Cosmos.Single c id w.store →
        (∀ call ∈ calls, call.Valid config "id" id) →
        Consistent (Cosmos.watch clock ids c id) Cosmos.Call.Writes id calls
          ((Repository.ofDocuments config (Cosmos.adapter c)).crowd calls w) schedule) ∧
      ∀ (t : Dynamo.Table) (w : World Dynamo.service Dynamo.Memory), t.sortKey = none → Dynamo.Single t id w.store →
        (∀ call ∈ calls, call.Valid config t.partitionKey id) →
        Consistent (Dynamo.watch clock ids t id) Dynamo.Call.Writes id calls
          ((Repository.ofDocuments config (Dynamo.adapter t)).crowd calls w) schedule := by
  constructor
  · intro c w hc hw hcalls
    exact (Cosmos.adapter_decides hc).consistent hpolicy hid hcalls hw schedule
  · intro t w hs hw hcalls
    exact (Dynamo.adapter_decides hs).consistent hpolicy hid hcalls hw schedule

/-- The same for a record that is created, and deleted between the two calls of an update. -/
theorem checked_writes_consistent_amid_an_update :
    let c : Cosmos.Container := ⟨"app", "users", "id"⟩
    let t : Dynamo.Table := ⟨"users", "id", none⟩
    let config : EntityConfig := ⟨"User", .default, .existenceChecked, 20, 100, none⟩
    let clock : Nat → Instant := fun n => ⟨n, 0⟩
    let ids : Nat → String := fun _ => "u-2"
    let calls : List RecordCall :=
      [.create (.obj [("id", .str "u-1")]), .update "u-1" (.obj [("id", .str "u-1"), ("name", .str "Ada")]), .delete "u-1"]
    let w : World Cosmos.service Cosmos.Memory := ⟨Cosmos.Memory.empty.withContainer c, 0, 0, []⟩
    let v : World Dynamo.service Dynamo.Memory := ⟨Dynamo.Memory.empty.withTable t, 0, 0, []⟩
    let schedule := [0, 0, 1, 1, 2, 2, 1]
    (ValidId "u-1" ∧ Cosmos.Single c "u-1" w.store ∧ Dynamo.Single t "u-1" v.store ∧
        ∀ call ∈ calls, call.Valid config "id" "u-1") ∧
      Consistent (Cosmos.watch clock ids c "u-1") Cosmos.Call.Writes "u-1" calls
          ((Repository.ofDocuments config (Cosmos.adapter c)).crowd calls w) schedule ∧
        Consistent (Dynamo.watch clock ids t "u-1") Dynamo.Call.Writes "u-1" calls
          ((Repository.ofDocuments config (Dynamo.adapter t)).crowd calls v) schedule := by
  intro c t config clock ids calls w v schedule
  have hid : ValidId "u-1" := rfl
  have hw : Cosmos.Single c "u-1" w.store := (Cosmos.holds_empty "app" "users").single "u-1"
  have hv : Dynamo.Single t "u-1" v.store := (Dynamo.holds_empty "users").single rfl rfl "u-1"
  have hspares : config.Spares "id" := fun _ => ⟨by decide, by decide⟩
  have hcalls : ∀ call ∈ calls, call.Valid config "id" "u-1" :=
    List.forall_mem_cons.2 ⟨.create rfl hspares, List.forall_mem_cons.2
      ⟨.update (by simp) rfl (.inl ⟨rfl, by decide⟩), List.forall_mem_singleton.2 .delete⟩⟩
  have hconsistent := @checked_writes_consistent config rfl "u-1" hid clock ids calls schedule
  exact ⟨⟨hid, hw, hv, hcalls⟩, hconsistent.1 c w rfl hw hcalls, hconsistent.2 t v rfl hv hcalls⟩

/-- An update does not find the document that was deleted after the update had read it, and does not bring it back. -/
example :
    let c : Cosmos.Container := ⟨"app", "users", "id"⟩
    let config : EntityConfig := ⟨"User", .default, .existenceChecked, 20, 100, none⟩
    let calls : List RecordCall :=
      [.create (.obj [("id", .str "u-1")]), .update "u-1" (.obj [("name", .str "Ada")]), .delete "u-1"]
    let w : World Cosmos.service Cosmos.Memory := ⟨Cosmos.Memory.empty.withContainer c, 0, 0, []⟩
    let turns := (((Repository.ofDocuments config (Cosmos.adapter c)).crowd calls w).run
      (Cosmos.surroundings (fun n => ⟨n, 0⟩) fun _ => "") [0, 0, 1, 1, 2, 2, 1]).1
    turns.map (fun t => (t.index, t.result.map fun r => (outcome r).map fun _ => (), t.after.has c "u-1")) =
      [(0, none, false), (0, some (.ok ()), true), (1, none, true), (1, none, true), (2, none, true),
        (2, some (.ok ()), false), (1, some (.error .notFound), false)] := by
  decide +kernel

end DocQuery
