import DocQuery.Cosmos.Adapter
import DocQuery.Dynamo.Adapter
import DocQuery.Repository.Operations

/-!
# From settings to repositories

The settings of an entity name the family of its store and the place of its records there. A repository comes of them if there is a
client for that family.
-/

namespace DocQuery

/-- Where the records of an entity are. -/
inductive Place where
  | table (t : Dynamo.Table)
  | container (c : Cosmos.Container)
  deriving DecidableEq, Repr

/-- The place that settings describe. -/
def StoreSettings.place : StoreSettings → Place
  | .dynamodb table partitionKey sortKey => .table ⟨table, partitionKey, sortKey⟩
  | .cosmos database container partitionKey => .container ⟨database, container, partitionKey⟩

/-- The family of the store. -/
def Place.backend : Place → Backend
  | .table _ => .dynamodb
  | .container _ => .cosmos

/-- The families that there is a client for. -/
structure Clients where
  /-- Whether there is one for tables. -/
  dynamodb : Bool
  /-- Whether there is one for containers. -/
  cosmos : Bool
  deriving DecidableEq, Repr

/-- Whether there is a client for a family. -/
def Clients.has (c : Clients) : Backend → Bool
  | .dynamodb => c.dynamodb
  | .cosmos => c.cosmos

/-- The place that settings describe, if there is a client for its family. -/
def Clients.connect (c : Clients) (s : StoreSettings) : Except Error Place :=
  if c.has s.place.backend then .ok s.place else .error (.invalidArgument (.noClient s.place.backend))

/-- The repository of an entity whose records are documents as they are. -/
def Repository.ofDocuments {I : Interface} (config : EntityConfig) (adapter : Adapter I) : Repository I Document :=
  ⟨config, adapter, some⟩

end DocQuery
