import DocQuery.Adapter
import DocQuery.Cursor
import DocQuery.Identifier
import DocQuery.Repository.Args
import DocQuery.Repository.Config

/-!
# Operations on the records of an entity

The operations check what they are given before the store hears of them, fill in the automatic fields, and turn the store's pages
into records with cursors. What is refused for its arguments costs no call.
-/

namespace DocQuery

/-- The field that holds the instant of creation. -/
def createdAt : String := "createdAt"

/-- The field that holds the instant of the last write. -/
def updatedAt : String := "updatedAt"

/-- One page of records of a type. -/
structure RecordsPage (ρ : Type) where
  /-- The records. -/
  items : List ρ
  /-- The cursor of the next page, if there may be one. -/
  nextCursor : Option String
  deriving Repr

/-- The repository of one entity, whose records are read as `ρ`. -/
structure Repository (I : Interface) (ρ : Type) where
  /-- The settings. -/
  config : EntityConfig
  /-- The operations of the store. -/
  adapter : Adapter I
  /-- A record as its type, if it fits. -/
  decode : Document → Option ρ

namespace Repository

variable {I : Interface} {ρ : Type}

/-- A record of the store as its type. -/
def materialize (r : Repository I ρ) (d : Document) : Except Error ρ :=
  match r.decode d with
  | some record => .ok record
  | none => .error (.contractViolation (.recordShape r.config.name))

/-- The members of a payload: an object with at least one member. -/
def payload (operation : PayloadOperation) (data : Json) : Except Error Document :=
  match data with
  | .obj [] => .error (.invalidArgument (.payloadEmpty operation))
  | .obj members => .ok members
  | other => .error (.invalidArgument (.payloadNotObject operation other))

/-- The size of a page. -/
def pageSize (r : Repository I ρ) (take : Option Int64) : Except Error Nat :=
  match take with
  | none => .ok r.config.defaultPageSize
  | some n =>
    if 1 ≤ n.toInt ∧ n.toInt ≤ r.config.maxPageSize then .ok n.toInt.toNat
    else .error (.invalidArgument (.takeOutOfRange r.config.maxPageSize n))

/-- The request that the arguments of a search amount to. -/
def pageRequest (r : Repository I ρ) (args : FindArgs) : Except Error PageRequest := do
  let take ← r.pageSize args.take
  let continuation ← match args.cursor with
    | some cursor => (Cursor.decode cursor).map some
    | none => .ok none
  args.filter.validate
  .ok ⟨args.filter, args.select, args.order, take, continuation⟩

/-- One page of the records that pass a filter. -/
def findMany (r : Repository I ρ) (args : FindArgs) : Operation I (RecordsPage ρ) := do
  let request ← Operation.of (r.pageRequest args)
  let page ← r.adapter.findMany request
  let items ← Operation.of (page.items.mapM fun d => r.materialize (request.select.project d))
  return ⟨items, page.continuation.map Cursor.encode⟩

/-- The record with an identifier. -/
def findOne (r : Repository I ρ) (id : String) (select : Select) : Operation I ρ := do
  Operation.of (checkId id)
  match ← r.adapter.findById id select with
  | some d => Operation.of (r.materialize (select.project d))
  | none => throw (.notFound id)

/-- The document with an identifier in its field: its own one, or a fresh one. -/
def withId (r : Repository I ρ) (d : Document) : Operation I Document :=
  let field := r.adapter.idField
  match Fields.get? d field with
  | some (.str id) => do
    Operation.of (checkId id)
    return d
  | some other => throw (.invalidArgument (.idNotText field other))
  | none =>
    if r.config.autoFields.id then do
      let id ← Operation.freshId
      Operation.of (checkId id)
      return Fields.put d field (.str id)
    else throw (.invalidArgument (.idRequired field))

/-- The document of a new record with its instants. -/
def withCreation (r : Repository I ρ) (d : Document) : Operation I Document :=
  if r.config.autoFields.timestamp then do
    let now ← Operation.now
    return Fields.put (Fields.put d createdAt (.str now.text)) updatedAt (.str now.text)
  else return d

/-- Stores a new record. -/
def create (r : Repository I ρ) (data : Json) : Operation I ρ := do
  let d ← Operation.of (payload .create data)
  let d ← r.withId d
  let d ← r.withCreation d
  let stored ← r.adapter.insert d r.config.writePolicy
  Operation.of (r.materialize stored)

/-- Changes without the identifier, which may only be repeated. -/
def withoutId (field id : String) (changes : Document) : Except Error Document :=
  match Fields.get? changes field with
  | none => .ok changes
  | some (.str requested) =>
    if requested = id then .ok (Fields.drop changes field) else .error (.invalidArgument (.idChanged field))
  | some _ => .error (.invalidArgument (.idChanged field))

/-- Changes with the instant of the write, and without one of creation. -/
def withUpdate (r : Repository I ρ) (changes : Document) : Operation I Document :=
  if r.config.autoFields.timestamp then do
    let now ← Operation.now
    return Fields.put (Fields.drop changes createdAt) updatedAt (.str now.text)
  else return changes

/-- Changes fields of a record. -/
def update (r : Repository I ρ) (id : String) (data : Json) : Operation I ρ := do
  Operation.of (checkId id)
  let changes ← Operation.of (payload .update data)
  let changes ← Operation.of (withoutId r.adapter.idField id changes)
  let changes ← r.withUpdate changes
  if changes.isEmpty then throw (.invalidArgument .nothingToChange)
  let stored ← r.adapter.update id changes r.config.writePolicy
  Operation.of (r.materialize stored)

/-- Removes a record. -/
def delete (r : Repository I ρ) (id : String) : Operation I Unit := do
  Operation.of (checkId id)
  r.adapter.delete id r.config.writePolicy

end Repository

end DocQuery
