import DocQuery.Settings.Basic

/-!
# Settings of one entity

What a repository has to know about its entity: the fields it fills by itself, how careful its writes are, the sizes of its pages,
and how long its operations may take.
-/

namespace DocQuery

/-- The settings of one entity. -/
structure EntityConfig where
  /-- The name of the entity. -/
  name : String
  /-- The fields filled automatically. -/
  autoFields : AutoFields
  /-- Whether writes look at what is there. -/
  writePolicy : WritePolicy
  /-- The size of a page that no size is given for. -/
  defaultPageSize : Nat
  /-- The largest page. -/
  maxPageSize : Nat
  /-- The time limit of operations without one of their own. -/
  defaultTimeout : Option Span
  deriving DecidableEq, Repr

namespace EntityConfig

/-- The settings of an entity under the query defaults. -/
def make (name : String) (autoFields : AutoFields) (writePolicy : WritePolicy) (query : QuerySettings) : EntityConfig where
  name := name
  autoFields := autoFields
  writePolicy := writePolicy
  defaultPageSize := query.defaultPageSize.toNat
  maxPageSize := query.maxPageSize.toNat
  defaultTimeout := query.operationTimeout.map fun ms => ⟨ms.toNat⟩

/-- The settings of an entity of which nothing but its name is known. -/
def ofName (name : String) : EntityConfig := make name AutoFields.default .existenceChecked QuerySettings.default

/-- The settings of a configured entity. -/
def ofSettings (s : EntitySettings) (query : QuerySettings) : EntityConfig :=
  make s.name s.autoFields s.writePolicy query

end EntityConfig

end DocQuery
