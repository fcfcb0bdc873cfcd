import DocQuery.Adapter
import DocQuery.Cosmos.Query

/-!
# Records in a container

Reads are queries. A checked write to an identifier reads the record first; the read and the write are two calls, so a record that
is deleted in between makes the write fail as not found. The properties that the service adds to stored documents are taken off
again.
-/

namespace DocQuery.Cosmos

/-- A container of a database, and the field that its documents are partitioned by. -/
structure Container where
  /-- The database. -/
  database : String
  /-- The container. -/
  name : String
  /-- The partition key. -/
  partitionKey : String
  deriving DecidableEq, Repr

/-- What can be asked of the service. -/
inductive Call where
  | query (container : Container) (spec : Spec) (max : Option Nat) (continuation : Option String)
  | create (container : Container) (document : Document)
  | upsert (container : Container) (document : Document)
  | replace (container : Container) (id : String) (partition : Json) (document : Document)
  | delete (container : Container) (id : String) (partition : Json)
  deriving Repr

/-- One page of a query. -/
structure Page where
  /-- The documents, in whatever shape the service returned them. -/
  resources : Option Json
  /-- Where the page ended, if there may be more. -/
  continuation : Option String
  deriving Repr

/-- The answer to each call. -/
def Call.Answer : Call → Type
  | .query _ _ _ _ => Page
  | .create _ _ | .upsert _ _ | .replace _ _ _ _ => Document
  | .delete _ _ _ => Unit

/-- The service as an interface. -/
def service : Interface := ⟨Call, Call.Answer⟩

/-- The properties that the service adds to every stored document. -/
def systemProperties : List String := ["_rid", "_self", "_etag", "_attachments", "_ts"]

/-- A document without the properties of the service. -/
def strip (d : Document) : Document := d.filter fun e => !systemProperties.contains e.1

/-- The value of a document's partition key. -/
def partitionValue (c : Container) (d : Document) : Except Error Json :=
  match Fields.get? d c.partitionKey with
  | some value => .ok value
  | none => .error (.invalidArgument (.noPartitionKey c.partitionKey))

/-- Sends a query. -/
def ask (c : Container) (q : Compiled) (max : Option Nat) (continuation : Option String) : Operation service Page :=
  Operation.ask (I := service) (.query c q.spec max continuation) .storeFailure

/-- A size as an unsigned 32-bit count, where it is one. -/
def count32? (n : Nat) : Option Nat := if n < UInt32.size then some n else none

/-- One page of the records that pass a filter. -/
def findMany (c : Container) (request : PageRequest) : Operation service RecordPage := do
  let compiled ← Operation.of (compileFindMany request.filter request.select request.order)
  let page ← ask c compiled (count32? request.take) request.continuation
  let items ← Operation.of (normalizeItems page.resources)
  return ⟨items.map strip, page.continuation⟩

/-- The record with an identifier. -/
def findById (c : Container) (id : String) (select : Select) : Operation service (Option Document) := do
  let compiled ← Operation.of (compileFindById id select)
  let page ← ask c compiled (some 1) none
  let items ← Operation.of (normalizeItems page.resources)
  return items.head?.map strip

/-- What a failed write to an identifier means: a record that is not there is reported by its identifier. -/
def missing (id : String) : StoreError → Error
  | .notFound _ => .notFound id
  | e => .storeFailure e

/-- Stores a document under its identifier, whatever is there. -/
def upsert (c : Container) (d : Document) : Operation service Document := do
  let stored : Document ← Operation.ask (I := service) (.upsert c d) .storeFailure
  return strip stored

/-- Stores a new record. -/
def insert (c : Container) (d : Document) (policy : WritePolicy) : Operation service Document := do
  let id ← Operation.of (match Fields.get? d "id" with
    | some (.str id) => .ok id
    | _ => .error (.invalidArgument .noTextId))
  let _ ← Operation.of (partitionValue c d)
  match policy with
  | .existenceChecked => do
    let stored : Document ← Operation.ask (I := service) (.create c d) fun
      | .conflict _ => .alreadyExists id
      | e => .storeFailure e
    return strip stored
  | .unchecked => upsert c d

/-- Replaces a record by what the changes make of it. The partition key stays, unless it is the identifier itself. -/
def replace (c : Container) (id : String) (existing changes : Document) : Operation service Document := do
  let partition ← Operation.of (partitionValue c existing)
  match Fields.get? changes c.partitionKey with
  | some requested =>
    if !requested.same partition && c.partitionKey != "id" then
      throw (.invalidArgument (.partitionKeyChanged c.partitionKey))
  | none => pure ()
  let merged := Fields.put (Fields.putAll existing changes) "id" (.str id)
  let stored : Document ← Operation.ask (I := service) (.replace c id partition merged) (missing id)
  return strip stored

/-- Changes fields of a record. Unchecked, a record that is not there is created from the changes. -/
def update (c : Container) (id : String) (changes : Document) (policy : WritePolicy) : Operation service Document := do
  match ← findById c id Select.all, policy with
  | some existing, _ => replace c id existing changes
  | none, .existenceChecked => throw (.notFound id)
  | none, .unchecked => do
    let d := Fields.put (Fields.putAll [("id", .str id)] changes) "id" (.str id)
    let _ ← Operation.of (partitionValue c d)
    upsert c d

/-- Removes a record. Unchecked, a record that is not there is no failure. -/
def delete (c : Container) (id : String) (policy : WritePolicy) : Operation service Unit := do
  match ← findById c id Select.all, policy with
  | none, .existenceChecked => throw (.notFound id)
  | none, .unchecked => return ()
  | some existing, _ => do
    let partition ← Operation.of (partitionValue c existing)
    ExceptT.mk (.call (I := service) (.delete c id partition) fun answer => .done (match answer, policy with
      | .ok _, _ => .ok ()
      | .error (.notFound _), .unchecked => .ok ()
      | .error e, _ => .error (missing id e)))

/-- The operations on a container. -/
def adapter (c : Container) : Adapter service where
  backend := .cosmos
  idField := "id"
  findMany := findMany c
  findById := findById c
  insert := insert c
  update := update c
  delete := delete c

end DocQuery.Cosmos
