import DocQuery.Proofs.Cosmos.Atomic
import DocQuery.Proofs.Dynamo.Reachable
import DocQuery.Proofs.Equality

/-!
# Requests that fail

Whatever is asked of a repository, over a container or over a table, with or without checks: if it fails, for whatever reason, the
records are what they were before (`failed_requests_change_nothing`).
-/

namespace DocQuery

/-- A request that fails leaves the records as they were: in any store of containers, and in any store of tables that comes about by
requests. It may fail for its arguments, by what the store answers, by a failure in the way of any of its calls, by its time limit,
or because it is cancelled. -/
theorem failed_requests_change_nothing (config : EntityConfig) (request : Request) (options : Options) (clock : Nat → Instant)
    (ids : Nat → String) (latency : Nat) (e : Error) :
    (∀ (c : Cosmos.Container) (w : World Cosmos.service (Cosmos.Memory × List (Option StoreError))),
      let r : Repository Cosmos.service Document := .ofDocuments config (Cosmos.adapter c)
      (request.run (.flaky Cosmos.Memory.answer clock ids latency) r options w).1 = .error e →
        (request.run (.flaky Cosmos.Memory.answer clock ids latency) r options w).2.store.1.shelves = w.store.1.shelves) ∧
    ∀ (t : Dynamo.Table) (w : World Dynamo.service (Dynamo.Memory × List (Option StoreError))), Dynamo.Reachable w.store.1 →
      let r : Repository Dynamo.service Document := .ofDocuments config (Dynamo.adapter t)
      (request.run (.flaky Dynamo.Memory.answer clock ids latency) r options w).1 = .error e →
        (request.run (.flaky Dynamo.Memory.answer clock ids latency) r options w).2.store.1.tables = w.store.1.tables := by
  constructor
  · intro c w r he
    have hatomic : (request.perform (.ofDocuments config (Cosmos.adapter c))).Atomic Cosmos.viewed :=
      Repository.perform_atomic (Cosmos.adapter_atomic c) request
    exact hatomic.unchanged trivial config options he
  · intro t w hw r he
    have hatomic : (request.perform (.ofDocuments config (Dynamo.adapter t))).Atomic Dynamo.viewed :=
      Repository.perform_atomic (Dynamo.adapter_atomic t) request
    exact hatomic.unchanged hw.filed config options he

/-- The same for updates that fail between their two calls: one of a document whose time is over, and one of an item whose second
call meets a failure. -/
theorem failed_requests_change_nothing_between_calls :
    let clock : Nat → Instant := fun n => ⟨n, 0⟩
    let ids : Nat → String := fun _ => "u-2"
    let config : EntityConfig := ⟨"User", .default, .existenceChecked, 20, 100, none⟩
    let container : Cosmos.Container := ⟨"app", "users", "id"⟩
    let table : Dynamo.Table := ⟨"events", "id", some "day"⟩
    let update : Request := .record (.update "u-1" (.obj [("name", .str "Ada")]))
    let options : Options := ⟨some ⟨15⟩, none⟩
    let w : World Cosmos.service (Cosmos.Memory × List (Option StoreError)) :=
      ⟨((Cosmos.Memory.empty.withContainer container).setDocuments container [[("id", .str "u-1")]], []), 0, 0, []⟩
    let v : World Dynamo.service (Dynamo.Memory × List (Option StoreError)) :=
      ⟨(((Dynamo.Memory.empty.withTable table).seed "events" [[("id", .str "u-1"), ("day", .str "mon")]]).2,
        [none, some (.service "unavailable")]), 0, 0, []⟩
    ((update.run (.flaky Cosmos.Memory.answer clock ids 10) (.ofDocuments config (Cosmos.adapter container)) options w).1 =
          .error (.timedOut ⟨15⟩) ∧
        Dynamo.Reachable v.store.1 ∧
        (update.run (.flaky Dynamo.Memory.answer clock ids 1) (.ofDocuments config (Dynamo.adapter table)) options v).1 =
          .error (.storeFailure (.service "unavailable"))) ∧
      (update.run (.flaky Cosmos.Memory.answer clock ids 10) (.ofDocuments config (Cosmos.adapter container)) options
          w).2.store.1.shelves = w.store.1.shelves ∧
        (update.run (.flaky Dynamo.Memory.answer clock ids 1) (.ofDocuments config (Dynamo.adapter table)) options
          v).2.store.1.tables = v.store.1.tables := by
  intro clock ids config container table update options w v
  have hlate : (update.run (.flaky Cosmos.Memory.answer clock ids 10) (.ofDocuments config (Cosmos.adapter container)) options w).1 =
      .error (.timedOut ⟨15⟩) := by
    revert clock ids config container update options w
    decide +kernel
  have hcut : (update.run (.flaky Dynamo.Memory.answer clock ids 1) (.ofDocuments config (Dynamo.adapter table)) options v).1 =
      .error (.storeFailure (.service "unavailable")) := by
    clear hlate
    revert clock ids config table update options v
    decide +kernel
  have hv : Dynamo.Reachable v.store.1 := .seed _ _ (.table table .empty)
  exact ⟨⟨hlate, hv, hcut⟩, (failed_requests_change_nothing config update options clock ids 10 _).1 container w hlate,
    (failed_requests_change_nothing config update options clock ids 1 _).2 table v hv hcut⟩

end DocQuery
