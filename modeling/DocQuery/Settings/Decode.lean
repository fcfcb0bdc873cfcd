import DocQuery.Settings.Basic
import DocQuery.Settings.Node

/-!
# Settings from configuration trees

A group of settings is a table of named members, or a list that states them by position. Members that no setting asks for are
skipped without being looked at, except in the description of a store, which is read as a whole before its kind is known. A
setting that is absent has its default, if there is one. The formats differ in a few forms, which are gathered in `Format`.
-/

namespace DocQuery

namespace Settings

/-- The forms that a format admits. -/
structure Format where
  /-- Whether a list that states a group by position may have more items than the group has settings. -/
  allowsSurplus : Bool
  /-- How many levels of lists and tables the description of a store may have, if that is limited. -/
  storeDepth : Option Nat
  /-- What may stand beside the name of a policy in a table that has it as its only member. -/
  isPolicyBody : Node → Bool

/-- The forms of a JSON value. -/
def Format.value : Format where
  allowsSurplus := false
  storeDepth := none
  isPolicyBody
    | .null => true
    | _ => false

/-- The forms of a JSON text: those of a value, as deep as a text may be, where a store stands three levels deep. -/
def Format.json : Format := { Format.value with storeDepth := some (Raw.maxDepth - 3) }

/-- The forms of TOML. -/
def Format.toml : Format where
  allowsSurplus := true
  storeDepth := none
  isPolicyBody
    | .list [] | .table [] => true
    | _ => false

/-- The members of a table whose names are asked for, if every name can be read and none of those asked for occurs twice. -/
def knownMembers (names : List String) (members : List (Option String × Node)) : Option (Fields Node) := do
  let named ← members.mapM fun (key, node) => key.map (·, node)
  let known := named.filter fun member => names.contains member.1
  if (Fields.names known).Nodup then some known else none

/-- A group of settings by their names; a list states them in the order of `names`. -/
def group (allowsSurplus : Bool) (names : List String) : Node → Option (Fields Node)
  | .table members => knownMembers names members
  | .date => some []
  | .list items => if names.length < items.length && !allowsSurplus then none else some (names.zip items)
  | _ => none

/-- A page size. -/
def pageSize? (node : Node) : Option UInt32 := (node.natural? UInt32.size).map UInt32.ofNat

/-- A number of milliseconds. -/
def millis? (node : Node) : Option UInt64 := (node.natural? UInt64.size).map UInt64.ofNat

/-- The family of a store and the rest of its description: the member `backend`, or the first item of a list. -/
def splitBackend : Node → Option (Node × Node)
  | .table members =>
    match members.partition fun member => member.1 == some "backend" with
    | ([(_, backend)], rest) => some (backend, .table rest)
    | _ => none
  | .list (backend :: rest) => some (backend, .list rest)
  | _ => none

end Settings

open Settings (Format Node group pageSize? millis? splitBackend)

/-- The settings of the log in a tree. -/
def LogSettings.ofNode? (f : Format) (node : Node) : Option LogSettings := do
  let g ← group f.allowsSurplus ["level", "json"] node
  some ⟨← Node.withDefault LogSettings.default.level Node.text? (g.get? "level"),
    ← Node.withDefault LogSettings.default.json Node.bool? (g.get? "json")⟩

/-- The defaults of queries in a tree. -/
def QuerySettings.ofNode? (f : Format) (node : Node) : Option QuerySettings := do
  let g ← group f.allowsSurplus ["default_page_size", "max_page_size", "operation_timeout_ms"] node
  some ⟨← Node.withDefault QuerySettings.default.defaultPageSize pageSize? (g.get? "default_page_size"),
    ← Node.withDefault QuerySettings.default.maxPageSize pageSize? (g.get? "max_page_size"),
    ← Node.optional? millis? (g.get? "operation_timeout_ms")⟩

/-- The choice of automatic fields in a tree. -/
def AutoFields.ofNode? (f : Format) (node : Node) : Option AutoFields := do
  let g ← group f.allowsSurplus ["id", "timestamp"] node
  some ⟨← Node.withDefault AutoFields.default.id Node.bool? (g.get? "id"),
    ← Node.withDefault AutoFields.default.timestamp Node.bool? (g.get? "timestamp")⟩

/-- The name of a policy in settings. -/
def WritePolicy.name : WritePolicy → String
  | .existenceChecked => "existence_checked"
  | .unchecked => "unchecked"

/-- The policy of a name. -/
def WritePolicy.ofName? (s : String) : Option WritePolicy :=
  [WritePolicy.existenceChecked, .unchecked].find? fun p => p.name == s

/-- The policy in a tree: its name, alone or as the only member of a table. -/
def WritePolicy.ofNode? (f : Format) : Node → Option WritePolicy
  | .text s => WritePolicy.ofName? s
  | .table [(some s, body)] => if f.isPolicyBody body then WritePolicy.ofName? s else none
  | _ => none

namespace StoreSettings

/-- The description of a table in a tree, less the family of the store. -/
def tableOfNode? (node : Node) : Option StoreSettings := do
  let g ← group false ["table", "partition_key", "sort_key"] node
  some (.dynamodb (← (← g.get? "table").text?) (← (← g.get? "partition_key").text?)
    (← Node.optional? Node.text? (g.get? "sort_key")))

/-- The description of a container in a tree, less the family of the store. Documents are partitioned by `id` unless something
else is said. -/
def containerOfNode? (node : Node) : Option StoreSettings := do
  let g ← group false ["database", "container", "partition_key"] node
  some (.cosmos (← (← g.get? "database").text?) (← (← g.get? "container").text?)
    (← Node.withDefault "id" Node.text? (g.get? "partition_key")))

/-- The description of a store in a tree. -/
def ofNode? (f : Format) (node : Node) : Option StoreSettings := do
  if !node.isReadable || !f.storeDepth.all (node.depth ≤ ·) then none
  let (backend, rest) ← splitBackend node
  let name ← backend.text?
  if name = Backend.dynamodb.name then tableOfNode? rest
  else if name = Backend.cosmos.name then containerOfNode? rest
  else none

end StoreSettings

/-- The settings of an entity in a tree. -/
def EntitySettings.ofNode? (f : Format) (node : Node) : Option EntitySettings := do
  let g ← group f.allowsSurplus ["name", "store", "auto_fields", "write_policy"] node
  some ⟨← (← g.get? "name").text?, ← StoreSettings.ofNode? f (← g.get? "store"),
    ← Node.withDefault AutoFields.default (AutoFields.ofNode? f) (g.get? "auto_fields"),
    ← Node.withDefault WritePolicy.existenceChecked (WritePolicy.ofNode? f) (g.get? "write_policy")⟩

namespace Settings

/-- The entities in a tree. -/
def entitiesOfNode? (f : Format) : Node → Option (List EntitySettings)
  | .list items => items.mapM (EntitySettings.ofNode? f)
  | _ => none

/-- The settings of an application in a tree. -/
def ofNode? (f : Format) (node : Node) : Option Settings := do
  let g ← group f.allowsSurplus ["logging", "query", "entities"] node
  some ⟨← Node.withDefault LogSettings.default (LogSettings.ofNode? f) (g.get? "logging"),
    ← Node.withDefault QuerySettings.default (QuerySettings.ofNode? f) (g.get? "query"),
    ← Node.withDefault [] (entitiesOfNode? f) (g.get? "entities")⟩

end Settings

end DocQuery
