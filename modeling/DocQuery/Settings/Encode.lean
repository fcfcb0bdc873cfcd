import DocQuery.Settings.Decode

/-!
# Settings as JSON

Every setting is written, those with their default value too; what is absent is null. A store begins with its family.
-/

namespace DocQuery

/-- A natural number of at most 64 bits. -/
def Json.ofUInt64 (n : UInt64) : Json := .num (.int ⟨n.toNat, by have := n.toNat_lt; omega⟩)

/-- What may be absent. -/
def Json.ofOption {α : Type} (write : α → Json) : Option α → Json
  | none => .null
  | some a => write a

/-- The settings of the log. -/
def LogSettings.toJson (s : LogSettings) : Json := .obj [("level", .str s.level), ("json", .bool s.json)]

/-- The defaults of queries. -/
def QuerySettings.toJson (s : QuerySettings) : Json :=
  .obj [("default_page_size", Json.ofUInt64 s.defaultPageSize.toUInt64),
    ("max_page_size", Json.ofUInt64 s.maxPageSize.toUInt64),
    ("operation_timeout_ms", Json.ofOption Json.ofUInt64 s.operationTimeout)]

/-- The description of a store. -/
def StoreSettings.toJson : StoreSettings → Json
  | .dynamodb table partitionKey sortKey =>
    .obj [("backend", .str Backend.dynamodb.name), ("table", .str table), ("partition_key", .str partitionKey),
      ("sort_key", Json.ofOption .str sortKey)]
  | .cosmos database container partitionKey =>
    .obj [("backend", .str Backend.cosmos.name), ("database", .str database), ("container", .str container),
      ("partition_key", .str partitionKey)]

/-- The choice of automatic fields. -/
def AutoFields.toJson (s : AutoFields) : Json := .obj [("id", .bool s.id), ("timestamp", .bool s.timestamp)]

/-- The settings of an entity. -/
def EntitySettings.toJson (s : EntitySettings) : Json :=
  .obj [("name", .str s.name), ("store", s.store.toJson), ("auto_fields", s.autoFields.toJson),
    ("write_policy", .str s.writePolicy.name)]

/-- The settings of an application. -/
def Settings.toJson (s : Settings) : Json :=
  .obj [("logging", s.log.toJson), ("query", s.query.toJson), ("entities", .arr (s.entities.map EntitySettings.toJson))]

end DocQuery
