import DocQuery.Proofs.Cosmos.Effects
import DocQuery.Proofs.Dynamo.Effects
import DocQuery.Proofs.Dynamo.Identity

/-!
# Identifiers of the caller

A caller may choose the identifier of a new record. A creation that succeeds keeps it, in the record that is returned and in the one
that is stored, unless the identifier stands in a field that an instant is written into (`supplied_id_kept`). Such a field can only
be the partition key of a table, and there the instant takes the place of the identifier (`supplied_id_lost_to_instant`).
-/

namespace DocQuery

open Operation

section

variable {clock : Nat → Instant} {ids : Nat → String} {latency : Nat} {config : EntityConfig} {members : Document} {id : String}

/-- A container stores a new document with the identifier of its caller. -/
theorem Cosmos.create_keeps_id (c : Cosmos.Container) (hid : Fields.get? members "id" = some (.str id))
    (w : World Cosmos.service (Cosmos.Memory × List (Option StoreError))) :
    ((Repository.ofDocuments config (Cosmos.adapter c)).create (.obj members)).Gives (.flaky Cosmos.Memory.answer clock ids latency)
      (fun d w' => Fields.get? d "id" = some (.str id) ∧ ∃ shelf stored, w'.store.1.shelf? c = some shelf ∧
        stored ∈ shelf.documents ∧ Fields.get? stored "id" = some (.str id) ∧ d = Cosmos.strip stored) w := by
  have hspares : config.Spares "id" := fun _ => by decide
  refine (Repository.create_gives (Cosmos.adapter c) config _ fun d w _ => Cosmos.insert_ends d config.writePolicy).imp ?_
  rintro _ w' ⟨d, w₁, hprepared, answer, rfl, hends⟩
  have hd : Fields.get? d "id" = some (.str id) := hprepared.kept members id rfl hid hspares
  obtain ⟨rfl, shelf, hshelf, hstored⟩ : answer = d ∧ ∃ shelf, w'.store.1.shelf? c = some shelf ∧ d ∈ shelf.documents := by
    rcases hends with ⟨-, hends⟩ | ⟨-, hends⟩
    · obtain ⟨s, -, hanswer⟩ := hends.store
      obtain ⟨shelf, _, hshelf, -, -, rfl, hstore⟩ := Cosmos.Memory.create_ok hanswer
      refine ⟨rfl, _, hstore ▸ Cosmos.shelf?_setDocuments hshelf _, ?_⟩
      exact List.mem_append_right _ (List.mem_singleton_self _)
    · obtain ⟨s, -, hanswer⟩ := hends.store
      obtain ⟨shelf, ds, hshelf, hmem, rfl, hstore⟩ := Cosmos.Memory.upsert_ok hanswer
      exact ⟨rfl, _, hstore ▸ Cosmos.shelf?_setDocuments hshelf _, hmem⟩
  exact ⟨(Cosmos.get?_strip_id answer).trans hd, shelf, answer, hshelf, hstored, hd, rfl⟩

/-- A table stores a new item with the identifier of its caller, where no instant is written into its partition key. -/
theorem Dynamo.create_keeps_id (t : Dynamo.Table) (hid : Fields.get? members t.partitionKey = some (.str id))
    (hspares : config.Spares t.partitionKey) (w : World Dynamo.service (Dynamo.Memory × List (Option StoreError))) :
    ((Repository.ofDocuments config (Dynamo.adapter t)).create (.obj members)).Gives (.flaky Dynamo.Memory.answer clock ids latency)
      (fun d w' => Fields.get? d t.partitionKey = some (.str id) ∧ ∃ rows key, w'.store.1.table? t.name = some rows ∧
        rows.find? key = some (Dynamo.ofDocument d)) w := by
  refine (Repository.create_gives (Dynamo.adapter t) config _ fun d w _ => Dynamo.insert_ends t w d config.writePolicy).imp ?_
  rintro _ w' ⟨d, w₁, hprepared, rfl, hends⟩
  obtain ⟨s, -, hanswer⟩ := hends.store
  obtain ⟨rows, key, _, -, -, -, hstore⟩ := Dynamo.Memory.put_ok (act_of_ok hanswer)
  exact ⟨hprepared.kept members id rfl hid hspares, rows.put key (Dynamo.ofDocument _), key,
    hstore ▸ Dynamo.Memory.table?_setTable s t.name _, Dynamo.Rows.find?_put rows key _⟩

end

/-- A creation whose payload has an identifier returns and stores a record with that identifier, if it succeeds: whatever the
settings of the entity are, and whatever the store holds; but the partition key of a table must not be a field that an instant is
written into. -/
theorem supplied_id_kept (e : EntitySettings) (query : QuerySettings) (members : Document) (id : String) (options : Options)
    (clock : Nat → Instant) (ids : Nat → String) (latency : Nat) :
    (∀ c, e.store.place = .container c → Fields.get? members (Cosmos.adapter c).idField = some (.str id) →
      ∀ (w : World Cosmos.service (Cosmos.Memory × List (Option StoreError))) (d : Document),
        let config := EntityConfig.ofSettings e query
        let after := Operation.run (.flaky Cosmos.Memory.answer clock ids latency) config options w
          ((Repository.ofDocuments config (Cosmos.adapter c)).create (.obj members))
        after.1 = .ok d → Fields.get? d (Cosmos.adapter c).idField = some (.str id) ∧
          ∃ shelf stored, after.2.store.1.shelf? c = some shelf ∧ stored ∈ shelf.documents ∧
            Fields.get? stored (Cosmos.adapter c).idField = some (.str id) ∧ d = Cosmos.strip stored) ∧
    ∀ t, e.store.place = .table t → Fields.get? members (Dynamo.adapter t).idField = some (.str id) →
      (EntityConfig.ofSettings e query).Spares (Dynamo.adapter t).idField →
      ∀ (w : World Dynamo.service (Dynamo.Memory × List (Option StoreError))) (d : Document),
        let config := EntityConfig.ofSettings e query
        let after := Operation.run (.flaky Dynamo.Memory.answer clock ids latency) config options w
          ((Repository.ofDocuments config (Dynamo.adapter t)).create (.obj members))
        after.1 = .ok d → Fields.get? d (Dynamo.adapter t).idField = some (.str id) ∧
          ∃ rows key, after.2.store.1.table? t.name = some rows ∧ rows.find? key = some (Dynamo.ofDocument d) := by
  constructor
  · exact fun c _ hid w d hd => (Cosmos.create_keeps_id c hid w).run _ options hd
  · exact fun t _ hid hspares w d hd => (Dynamo.create_keeps_id t hid hspares w).run _ options hd

/-- The same for an entity of each family, whose new records are stamped. -/
theorem supplied_id_kept_of_stamped :
    let clock : Nat → Instant := fun n => ⟨n, 0⟩
    let ids : Nat → String := fun _ => "drawn"
    let users : EntitySettings := ⟨"User", .cosmos "app" "users" "id", .default, .existenceChecked⟩
    let events : EntitySettings := ⟨"Event", .dynamodb "events" "code" none, .default, .unchecked⟩
    let container : Cosmos.Container := ⟨"app", "users", "id"⟩
    let table : Dynamo.Table := ⟨"events", "code", none⟩
    let user : Document := [("id", .str "u-1"), ("name", .str "Ada")]
    let event : Document := [("code", .str "e-1"), ("kind", .str "login")]
    let w : World Cosmos.service (Cosmos.Memory × List (Option StoreError)) :=
      ⟨(Cosmos.Memory.empty.withContainer container, []), 0, 0, []⟩
    let v : World Dynamo.service (Dynamo.Memory × List (Option StoreError)) := ⟨(Dynamo.Memory.empty.withTable table, []), 0, 0, []⟩
    (users.store.place = .container container ∧ ∃ d,
      (Operation.run (.flaky Cosmos.Memory.answer clock ids 1) (.ofSettings users .default) .none w
        ((Repository.ofDocuments (.ofSettings users .default) (Cosmos.adapter container)).create (.obj user))).1 = .ok d ∧
      Fields.get? d "id" = some (.str "u-1")) ∧
    events.store.place = .table table ∧ (EntityConfig.ofSettings events .default).Spares "code" ∧ ∃ d,
      (Operation.run (.flaky Dynamo.Memory.answer clock ids 1) (.ofSettings events .default) .none v
        ((Repository.ofDocuments (.ofSettings events .default) (Dynamo.adapter table)).create (.obj event))).1 = .ok d ∧
      Fields.get? d "code" = some (.str "e-1") := by
  intro clock ids users events container table user event w v
  have hspares : (EntityConfig.ofSettings events .default).Spares "code" := fun _ => by decide
  obtain ⟨d, hd⟩ : ∃ d, (Operation.run (.flaky Cosmos.Memory.answer clock ids 1) (.ofSettings users .default) .none w
      ((Repository.ofDocuments (.ofSettings users .default) (Cosmos.adapter container)).create (.obj user))).1 = .ok d :=
    ⟨user ++ [(createdAt, .str (clock 0).text), (updatedAt, .str (clock 0).text)], rfl⟩
  obtain ⟨d', hd'⟩ : ∃ d, (Operation.run (.flaky Dynamo.Memory.answer clock ids 1) (.ofSettings events .default) .none v
      ((Repository.ofDocuments (.ofSettings events .default) (Dynamo.adapter table)).create (.obj event))).1 = .ok d :=
    ⟨event ++ [(createdAt, .str (clock 0).text), (updatedAt, .str (clock 0).text)], rfl⟩
  have hkept := supplied_id_kept users .default user "u-1" .none clock ids 1
  have hkept' := supplied_id_kept events .default event "e-1" .none clock ids 1
  exact ⟨⟨rfl, d, hd, (hkept.1 container rfl rfl w d hd).1⟩, rfl, hspares, d', hd', (hkept'.2 table rfl rfl hspares v d' hd').1⟩

/-- Settings that are accepted may partition a table by the instant of creation. A new record then has that instant in the place of
the identifier of its caller. -/
theorem supplied_id_lost_to_instant :
    let events : EntitySettings := ⟨"Event", .dynamodb "events" "createdAt" none, .default, .unchecked⟩
    let table : Dynamo.Table := ⟨"events", "createdAt", none⟩
    let event : Document := [("createdAt", .str "e-1"), ("kind", .str "login")]
    let config := EntityConfig.ofSettings events .default
    Settings.validate ⟨.default, .default, [events]⟩ = .ok () ∧ events.store.place = .table table ∧ ValidId "e-1" ∧
      Fields.get? event (Dynamo.adapter table).idField = some (.str "e-1") ∧
      ∃ d, (Operation.run (.flaky Dynamo.Memory.answer (fun n => ⟨n, 0⟩) (fun _ => "drawn") 1) config .none
          ⟨(Dynamo.Memory.empty.withTable table, []), 0, 0, []⟩
          ((Repository.ofDocuments config (Dynamo.adapter table)).create (.obj event))).1 = .ok d ∧
        Fields.get? d (Dynamo.adapter table).idField = some (.str "1970-01-01T00:00:00.000Z") := by
  refine ⟨by decide, rfl, rfl, rfl, [("createdAt", .str "1970-01-01T00:00:00.000Z"), ("kind", .str "login"),
    ("updatedAt", .str "1970-01-01T00:00:00.000Z")], ?_, rfl⟩
  have htext : (Instant.mk 0 0).text = "1970-01-01T00:00:00.000Z" := by decide
  rw [← htext]
  rfl

end DocQuery
