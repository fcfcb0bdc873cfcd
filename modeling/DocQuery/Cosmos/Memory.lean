import DocQuery.Cosmos.Adapter
import DocQuery.Expression.Eval

/-!
# Containers in memory

A store that keeps the documents of its containers in insertion order and answers calls by evaluating the queries it is sent. A
continuation is the number of results before the page. A failure may be put in its way: the next call reports it and does nothing.
-/

namespace DocQuery.Cosmos

/-- The documents of a container. -/
structure Shelf where
  /-- The partition key. -/
  partitionKey : String
  /-- The documents in insertion order. -/
  documents : List Document
  deriving Repr

/-- The containers by database and name, and the failure that the next call reports. -/
structure Memory where
  /-- The containers. -/
  shelves : List ((String × String) × Shelf)
  /-- The failure in the way. -/
  failure : Option StoreError
  deriving Repr

/-- A violation of the rules for expressions, as the service reports it. -/
def invalid (reason : String) : StoreError := .service ("ValidationException: " ++ reason)

/-- A request that the service does not understand. -/
def badRequest (reason : String) : StoreError := .service ("BadRequest: " ++ reason)

/-- The identifier of a document. -/
def documentId? (d : Document) : Option String := (Fields.get? d "id").bind Json.str?

/-- The identifier of a document that is to be stored. -/
def requireId (d : Document) : Except StoreError String :=
  match documentId? d with
  | some id => .ok id
  | none => .error (badRequest "document has no string id")

namespace Shelf

/-- The place of the first document with an identifier. -/
def position? (s : Shelf) (id : String) : Option Nat := s.documents.findIdx? fun d => documentId? d == some id

/-- The place of the document with an identifier, if its partition key has this value. -/
def positionIn? (s : Shelf) (id : String) (partition : Json) : Option Nat := do
  let i ← s.position? id
  let d ← s.documents[i]?
  let value ← Fields.get? d s.partitionKey
  if value.same partition then some i else none

end Shelf

/-- The offset that a continuation names: digits, with a plus sign at most before them, within 64 bits. -/
def offset? (token : String) : Option Nat :=
  let digits := match token.toList with
    | '+' :: rest => rest
    | cs => cs
  if !digits.isEmpty && digits.all Text.isAsciiDigit then
    let n := Decimal.digitsValue 0 digits
    if n < UInt64.size then some n else none
  else none

/-- The order of two documents under sort keys in turn. -/
def compareBy (order : List (String × Bool)) (a b : Document) : Ordering :=
  match order with
  | [] => .eq
  | (field, ascending) :: rest =>
    let o := Json.sortCompare (Fields.get? a field) (Fields.get? b field)
    (if ascending then o else o.swap).then (compareBy rest a b)

/-- The documents under sort keys; those that compare as equal keep their order. -/
def sortBy (order : List (String × Bool)) (ds : List Document) : List Document :=
  ds.mergeSort fun a b => (compareBy order a b).isLE

/-- The documents for which a formula holds, in order. -/
def matching (params : Fields Json) (condition : Option Expression.Formula) (ds : List Document) :
    Except Expression.Fault (List Document) :=
  match condition with
  | none => .ok ds
  | some formula => ds.filterM fun d => Expression.Scope.eval ⟨d, params⟩ formula

/-- The projected fields that a document has. -/
def projectFields (projection : Option (List String)) (d : Document) : Document :=
  match projection with
  | none => d
  | some fields => Fields.ofList (Select.pick fields d)

/-- The page of a result from an offset on. -/
def pageOf (projection : Option (List String)) (offset : Nat) (max : Option Nat) (results : List Document) : Page :=
  let stop := match max with
    | some n => min (offset + n) results.length
    | none => results.length
  { resources := some (.arr (((results.take stop).drop offset).map fun d => .obj (projectFields projection d)))
    continuation := if stop < results.length then some (String.ofList (Decimal.naturalText stop)) else none }

namespace Memory

/-- A store without containers. -/
def empty : Memory := ⟨[], none⟩

/-- The store with an empty container, in place of the one of its name, if there was one. -/
def withContainer (m : Memory) (c : Container) : Memory :=
  { m with shelves := m.shelves.filter (fun e => e.1 != (c.database, c.name)) ++ [((c.database, c.name), ⟨c.partitionKey, []⟩)] }

/-- The documents of a container. -/
def shelf? (m : Memory) (c : Container) : Option Shelf := m.shelves.lookup (c.database, c.name)

/-- The store with the documents of a container replaced. -/
def setDocuments (m : Memory) (c : Container) (ds : List Document) : Memory :=
  { m with shelves := m.shelves.map fun (key, s) =>
      if key = (c.database, c.name) then (key, { s with documents := ds }) else (key, s) }

/-- The documents of a container that has to be there. -/
def requireShelf (m : Memory) (c : Container) : Except StoreError Shelf :=
  match m.shelf? c with
  | some s => .ok s
  | none => .error (.notFound ("Resource Not Found: " ++ c.database ++ "/" ++ c.name))

/-- How many documents a container holds. -/
def count (m : Memory) (c : Container) : Nat := ((m.shelf? c).map fun s => s.documents.length).getD 0

/-- Adds documents one by one until one of them has no identifier; nothing checks whether the identifier is taken. -/
def seed (m : Memory) (c : Container) (ds : List Document) : Except StoreError Unit × Memory :=
  match m.requireShelf c with
  | .error e => (.error e, m)
  | .ok s =>
    let fits := ds.takeWhile fun d => (documentId? d).isSome
    let stored := m.setDocuments c (s.documents ++ fits)
    match ds.drop fits.length with
    | [] => (.ok (), stored)
    | _ :: _ => (.error (badRequest "document has no string id"), stored)

/-- Answers a query. -/
def query (m : Memory) (c : Container) (spec : Spec) (max : Option Nat) (continuation : Option String) :
    Except StoreError Page := do
  let parsed ← (Expression.parseQuery spec.query).mapError fun fault => invalid fault.message
  let offset ← match continuation with
    | none => .ok 0
    | some token =>
      match offset? token with
      | some n => .ok n
      | none => .error (badRequest ("invalid continuation token " ++ token))
  let s ← m.requireShelf c
  let found ← (matching (Fields.ofList spec.parameters) parsed.condition s.documents).mapError fun fault =>
    invalid fault.message
  .ok (pageOf parsed.projection offset max (if parsed.order.isEmpty then found else sortBy parsed.order found))

/-- The result of an answer that leaves the documents of a container changed. -/
def store (m : Memory) (c : Container) {α : Type} (r : Except StoreError (List Document × α)) : Except StoreError α × Memory :=
  match r with
  | .ok (ds, a) => (.ok a, m.setDocuments c ds)
  | .error e => (.error e, m)

/-- Stores a document whose identifier is not taken. -/
def create (m : Memory) (c : Container) (d : Document) : Except StoreError Document × Memory :=
  m.store c do
    let id ← requireId d
    let s ← m.requireShelf c
    match s.position? id with
    | some _ => .error (.conflict ("Entity with the specified id already exists: " ++ id))
    | none => .ok (s.documents ++ [d], d)

/-- Stores a document in the place of the one with its identifier, or as a new one. -/
def upsert (m : Memory) (c : Container) (d : Document) : Except StoreError Document × Memory :=
  m.store c do
    let id ← requireId d
    let s ← m.requireShelf c
    match s.position? id with
    | some i => .ok (s.documents.set i d, d)
    | none => .ok (s.documents ++ [d], d)

/-- The place of a document that has to be there. -/
def requirePosition (s : Shelf) (id : String) (partition : Json) : Except StoreError Nat :=
  match s.positionIn? id partition with
  | some i => .ok i
  | none => .error (.notFound ("Resource Not Found: " ++ id))

/-- Replaces a document that is there. -/
def replace (m : Memory) (c : Container) (id : String) (partition : Json) (d : Document) :
    Except StoreError Document × Memory :=
  m.store c do
    let s ← m.requireShelf c
    let i ← requirePosition s id partition
    .ok (s.documents.set i d, d)

/-- Removes a document that is there. -/
def delete (m : Memory) (c : Container) (id : String) (partition : Json) : Except StoreError Unit × Memory :=
  m.store c do
    let s ← m.requireShelf c
    let i ← requirePosition s id partition
    .ok (s.documents.eraseIdx i, ())

/-- What a call does when no failure is in its way. -/
def act (m : Memory) : (call : Call) → Except StoreError call.Answer × Memory
  | .query c spec max continuation => (m.query c spec max continuation, m)
  | .create c d => m.create c d
  | .upsert c d => m.upsert c d
  | .replace c id partition d => m.replace c id partition d
  | .delete c id partition => m.delete c id partition

/-- The answer to a call: the failure in its way, if there is one, and otherwise what the call does. -/
def answer (call : Call) (m : Memory) : Except StoreError call.Answer × Memory :=
  answerUnless m.failure { m with failure := none } (m.act call)

end Memory

end DocQuery.Cosmos
