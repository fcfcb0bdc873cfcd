import DocQuery.Adapter
import DocQuery.Text.Blank

/-!
# Settings

What an application is configured with: its log, the defaults of queries, and the entities, each bound to a table or a container.
Some rules span several settings and are checked after reading: the page sizes have to fit one another, entities have distinct
names, and no name may be blank.
-/

namespace DocQuery

/-- The settings of the log. -/
structure LogSettings where
  /-- Which messages are logged. -/
  level : String
  /-- Whether messages are logged as JSON. -/
  json : Bool
  deriving DecidableEq, Repr

/-- The log of an application that says nothing about it. -/
def LogSettings.default : LogSettings := ⟨"info", false⟩

/-- The defaults of queries. -/
structure QuerySettings where
  /-- The size of a page that no size is given for. -/
  defaultPageSize : UInt32
  /-- The largest page. -/
  maxPageSize : UInt32
  /-- The time limit of operations in milliseconds. -/
  operationTimeout : Option UInt64
  deriving DecidableEq, Repr

/-- Pages of a hundred records, of a thousand at most, and no time limit. -/
def QuerySettings.default : QuerySettings := ⟨100, 1000, none⟩

/-- Where the records of an entity are stored. -/
inductive StoreSettings where
  | dynamodb (table partitionKey : String) (sortKey : Option String)
  | cosmos (database container partitionKey : String)
  deriving DecidableEq, Repr

/-- The fields that are filled automatically. -/
structure AutoFields where
  /-- Whether a record without an identifier gets one. -/
  id : Bool
  /-- Whether records carry the instants of their creation and last write. -/
  timestamp : Bool
  deriving DecidableEq, Repr

/-- All of them. -/
def AutoFields.default : AutoFields := ⟨true, true⟩

/-- One entity. -/
structure EntitySettings where
  /-- The name. -/
  name : String
  /-- The store. -/
  store : StoreSettings
  /-- The fields filled automatically. -/
  autoFields : AutoFields
  /-- Whether writes look at what is there. -/
  writePolicy : WritePolicy
  deriving DecidableEq, Repr

/-- The settings of an application. -/
structure Settings where
  /-- The log. -/
  log : LogSettings
  /-- The defaults of queries. -/
  query : QuerySettings
  /-- The entities. -/
  entities : List EntitySettings
  deriving DecidableEq, Repr

/-- Why settings are refused. -/
inductive SettingsError where
  | notToml
  | notTomlFile
  | notJsonFile
  | zeroPageSize
  | pageSizeTooLarge (size max : UInt32)
  | blankEntityName
  | duplicateEntity (name : String)
  | blankField (entity field : String)
  deriving DecidableEq, Repr

namespace SettingsError

/-- Whether the settings were not read at all, rather than refused for what they say. -/
def isSerialization : SettingsError → Bool
  | .notToml => true
  | _ => false

/-- The wording of refused settings. -/
def message : SettingsError → String
  | .notToml => "Serialization error:"
  | .notTomlFile => "Configuration error: Failed to parse TOML config:"
  | .notJsonFile => "Configuration error: Failed to parse JSON config:"
  | .zeroPageSize => "Configuration error: query.default_page_size must be positive"
  | .pageSizeTooLarge size max =>
    "Configuration error: query.default_page_size (" ++ toString size.toNat ++ ") exceeds query.max_page_size (" ++
      toString max.toNat ++ ")"
  | .blankEntityName => "Configuration error: entity name must not be empty"
  | .duplicateEntity name => "Configuration error: duplicate entity: " ++ name
  | .blankField entity field => "Configuration error: entity " ++ entity ++ ": " ++ field ++ " must not be empty"

end SettingsError

/-- The names in the settings of a store, each with what it names. -/
def StoreSettings.required : StoreSettings → List (String × String)
  | .dynamodb table partitionKey sortKey =>
    [("table", table), ("partition_key", partitionKey)] ++ sortKey.toList.map ("sort_key", ·)
  | .cosmos database container partitionKey =>
    [("database", database), ("container", container), ("partition_key", partitionKey)]

/-- Checks that no name of a store is blank. -/
def StoreSettings.validate (entity : String) (s : StoreSettings) : Except SettingsError Unit :=
  s.required.forM fun (field, value) => if Text.isAllBlank value then .error (.blankField entity field) else .ok ()

namespace Settings

/-- Checks the entities in order, given the names of those before. -/
def validateEntities (seen : List String) : List EntitySettings → Except SettingsError Unit
  | [] => .ok ()
  | e :: rest =>
    if Text.isAllBlank e.name then .error .blankEntityName
    else if seen.contains e.name then .error (.duplicateEntity e.name)
    else do
      e.store.validate e.name
      validateEntities (e.name :: seen) rest

/-- Checks the rules that span several settings. -/
def validate (s : Settings) : Except SettingsError Unit :=
  if s.query.defaultPageSize = 0 then .error .zeroPageSize
  else if s.query.maxPageSize < s.query.defaultPageSize then
    .error (.pageSizeTooLarge s.query.defaultPageSize s.query.maxPageSize)
  else validateEntities [] s.entities

/-- The entity of a name. -/
def entity? (s : Settings) (name : String) : Option EntitySettings := s.entities.find? fun e => e.name == name

end Settings

end DocQuery
