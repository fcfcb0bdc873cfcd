import DocQuery.Dynamo.Adapter
import DocQuery.Expression.Eval

/-!
# Tables in memory

A store that keeps the items of its tables under their keys and answers calls by evaluating the expressions it is sent. A limit
counts the items that are looked at, not those that match. A failure may be put in its way: the next call reports it and does
nothing.
-/

namespace DocQuery.Dynamo

/-- A violation of the rules for requests, as the service reports it. -/
def invalid (reason : String) : StoreError := .service ("ValidationException: " ++ reason)

/-- An expression that cannot be read or evaluated. -/
def invalidExpression (fault : Expression.Fault) : StoreError := invalid fault.message

/-- An attribute that cannot be read. -/
def invalidAttribute (fault : AttributeFault) : StoreError :=
  invalid (Error.message (.contractViolation (.attribute fault)))

/-- The text between the two parts of a key. It is a control character, which no JSON text contains. -/
def keySeparator : String := String.ofList [Char.ofNat 0x1F]

/-- The keys of a table, and its items in the order of their key texts. -/
structure Rows where
  /-- The partition key. -/
  partitionKey : String
  /-- The sort key, if the table has one. -/
  sortKey : Option String
  /-- The items, each under its key text, in increasing order of those. -/
  items : List (String × Item)
  deriving Repr

/-- The tables by name, and the failure that the next call reports. -/
structure Memory where
  /-- The tables. -/
  tables : List (String × Rows)
  /-- The failure in the way. -/
  failure : Option StoreError
  deriving Repr

namespace Rows

/-- Whether a field is one of the keys. -/
def isKey (t : Rows) (field : String) : Bool := field == t.partitionKey || t.sortKey == some field

/-- The key text of an item: its key attributes as JSON. -/
def keyText (t : Rows) (item : Item) : Except StoreError String := do
  let partition ← match item.get? t.partitionKey with
    | some value => .ok value.text
    | none => .error (invalid ("missing partition key " ++ t.partitionKey))
  match t.sortKey with
  | none => .ok partition
  | some sortKey =>
    match item.get? sortKey with
    | some value => .ok (partition ++ keySeparator ++ value.text)
    | none => .error (invalid ("missing sort key " ++ sortKey))

/-- The key attributes that an item has. -/
def keyOf (t : Rows) (item : Item) : Item :=
  Fields.ofList (Select.pick (t.partitionKey :: t.sortKey.toList) item)

/-- The item under a key text. -/
def find? (t : Rows) (key : String) : Option Item := Fields.get? t.items key

/-- Puts an item under a key text, in its place by the order of key texts. -/
def insertSorted (key : String) (item : Item) : List (String × Item) → List (String × Item)
  | [] => [(key, item)]
  | (k, i) :: rest =>
    match compare key k with
    | .lt => (key, item) :: (k, i) :: rest
    | .eq => (key, item) :: rest
    | .gt => (k, i) :: insertSorted key item rest

/-- The table with an item under a key text. -/
def put (t : Rows) (key : String) (item : Item) : Rows := { t with items := insertSorted key item t.items }

/-- The table without the item under a key text. -/
def erase (t : Rows) (key : String) : Rows := { t with items := Fields.drop t.items key }

/-- Where an item stands in a read: by its sort key's value, if the read is sorted by it, and then by its key text. -/
structure Position where
  /-- The value of the sort key. -/
  sortValue : Option Json
  /-- The key text. -/
  key : String
  deriving Repr

/-- The order of positions. -/
def Position.order (a b : Position) : Ordering :=
  (Json.sortCompare a.sortValue b.sortValue).then (compare a.key b.key)

/-- The position of an item. -/
def position (t : Rows) (bySortKey : Bool) (item : Item) : Except StoreError Position := do
  let sortValue ← match t.sortKey, bySortKey with
    | some sortKey, true =>
      match item.get? sortKey with
      | some typed => ((toJson typed).mapError invalidAttribute).map some
      | none => .ok none
    | _, _ => .ok none
  .ok ⟨sortValue, ← t.keyText item⟩

end Rows

/-- How a scan or a query reads a table. -/
structure ReadPlan where
  /-- The condition on the keys; a scan has none. -/
  keyCondition : Option Expression.Formula
  /-- The filter on the items that are looked at. -/
  filter : Option Expression.Formula
  /-- The projected fields. -/
  projection : Option (List String)
  /-- The values of the placeholders. -/
  values : Fields Json
  /-- Whether the read goes by the value of the sort key. -/
  bySortKey : Bool
  /-- Whether the read goes upward. -/
  forward : Bool
  /-- How many items are looked at, at most; zero sets no limit. -/
  limit : Option Nat
  /-- The item after which the read begins. -/
  start : Option Item

/-- An item that a read may look at. -/
structure Candidate where
  /-- Where it stands. -/
  position : Rows.Position
  /-- The item. -/
  item : Item
  /-- The item as a document. -/
  document : Document

/-- Whether a formula that may be missing holds of a document. -/
def holds (values : Fields Json) (formula : Option Expression.Formula) (d : Document) : Except StoreError Bool :=
  match formula with
  | none => .ok true
  | some f => (Expression.Scope.eval ⟨d, values⟩ f).mapError invalidExpression

/-- The projected attributes that an item has. -/
def projectItem (projection : Option (List String)) (item : Item) : Item :=
  match projection with
  | none => item
  | some fields => Fields.ofList (Select.pick fields item)

namespace ReadPlan

/-- The items that meet the key condition, in the order in which the table holds them. -/
def candidates (p : ReadPlan) (t : Rows) : List (String × Item) → Except StoreError (List Candidate)
  | [] => .ok []
  | (_, item) :: rest => do
    let document ← (toDocument item).mapError invalidAttribute
    if ← holds p.values p.keyCondition document then
      let position ← t.position p.bySortKey item
      .ok (⟨position, item, document⟩ :: (← p.candidates t rest))
    else p.candidates t rest

/-- The candidates in the order of the read. -/
def arrange (p : ReadPlan) (cs : List Candidate) : List Candidate :=
  let sorted := cs.mergeSort fun a b => (a.position.order b.position).isLE
  if p.forward then sorted else sorted.reverse

/-- The candidates that lie behind the start. -/
def afterStart (p : ReadPlan) (t : Rows) (cs : List Candidate) : Except StoreError (List Candidate) :=
  match p.start with
  | none => .ok cs
  | some item => do
    let start ← t.position p.bySortKey item
    .ok (cs.filter fun c => c.position.order start == if p.forward then .gt else .lt)

/-- The items that pass the filter among those that are looked at. -/
def collect (p : ReadPlan) : List Candidate → Except StoreError (List Json)
  | [] => .ok []
  | c :: rest => do
    if ← holds p.values p.filter c.document then
      .ok (.obj (projectItem p.projection c.item) :: (← p.collect rest))
    else p.collect rest

/-- The candidates that are looked at. -/
def looked (p : ReadPlan) (cs : List Candidate) : List Candidate :=
  match p.limit with
  | some (n + 1) => cs.take (n + 1)
  | _ => cs

/-- Reads a page from a table. -/
def read (p : ReadPlan) (t : Rows) : Except StoreError Page := do
  match p.keyCondition, p.filter with
  | some _, some filter =>
    match filter.paths.find? t.isKey with
    | some key =>
      throw (invalid ("Filter Expression can only contain non-primary key attributes: Primary key attribute: " ++ key))
    | none => pure ()
  | _, _ => pure ()
  let found ← p.candidates t t.items
  let behind ← p.afterStart t (p.arrange found)
  let looked := p.looked behind
  let items ← p.collect looked
  let last := if looked.length < behind.length then looked.getLast?.map fun c => t.keyOf c.item else none
  .ok ⟨some (.arr items), last⟩

end ReadPlan

namespace Memory

/-- A store without tables. -/
def empty : Memory := ⟨[], none⟩

/-- A table. -/
def table? (m : Memory) (name : String) : Option Rows := Fields.get? m.tables name

/-- A table that has to be there. -/
def requireTable (m : Memory) (name : String) : Except StoreError Rows :=
  match m.table? name with
  | some t => .ok t
  | none => .error (.notFound ("Requested resource not found: table " ++ name))

/-- The store with a table set, in place of the one of its name, if there was one. -/
def setTable (m : Memory) (name : String) (t : Rows) : Memory := { m with tables := Fields.put m.tables name t }

/-- The store with an empty table. -/
def withTable (m : Memory) (t : Table) : Memory := m.setTable t.name ⟨t.partitionKey, t.sortKey, []⟩

/-- How many items a table holds. -/
def count (m : Memory) (name : String) : Nat := ((m.table? name).map fun t => t.items.length).getD 0

/-- Adds documents one by one until one of them lacks a key. -/
def seedRows (t : Rows) : List Document → Except StoreError Unit × Rows
  | [] => (.ok (), t)
  | d :: rest =>
    let item := ofDocument d
    match t.keyText item with
    | .ok key => seedRows (t.put key item) rest
    | .error e => (.error e, t)

/-- Adds documents to a table one by one until one of them lacks a key. -/
def seed (m : Memory) (name : String) (ds : List Document) : Except StoreError Unit × Memory :=
  match m.table? name with
  | none => (.error (.notFound ("table " ++ name)), m)
  | some t =>
    let (result, t) := seedRows t ds
    (result, m.setTable name t)

/-- The values of placeholders. -/
def plainValues (values : Option (Fields Json)) : Except StoreError (Fields Json) :=
  (toMembers (values.getD [])).mapError invalidAttribute

/-- An expression that may be missing. -/
def parseOptional {α : Type} (parse : String → Except Expression.Fault α) (text : Option String) :
    Except StoreError (Option α) :=
  match text with
  | none => .ok none
  | some s => ((parse s).mapError invalidExpression).map some

/-- Answers a scan. -/
def scan (m : Memory) (r : ScanRequest) : Except StoreError Page := do
  let filter ← parseOptional (Expression.parseFormula · r.names) r.filter
  let projection ← parseOptional (Expression.parsePaths · r.names) r.projection
  let values ← plainValues r.values
  let t ← m.requireTable r.table
  ReadPlan.read ⟨none, filter, projection, values, false, true, r.limit, r.start⟩ t

/-- Answers a query. -/
def query (m : Memory) (r : QueryRequest) : Except StoreError Page := do
  let keyCondition ← (Expression.parseFormula r.keyCondition r.names).mapError invalidExpression
  let filter ← parseOptional (Expression.parseFormula · r.names) r.filter
  let projection ← parseOptional (Expression.parsePaths · r.names) r.projection
  let values ← plainValues r.values
  let t ← m.requireTable r.table
  ReadPlan.read ⟨some keyCondition, filter, projection, values, true, r.forward.getD true, r.limit, r.start⟩ t

/-- Answers a read by key. -/
def get (m : Memory) (r : GetRequest) : Except StoreError (Option Item) := do
  let projection ← parseOptional (Expression.parsePaths · r.names) r.projection
  let t ← m.requireTable r.table
  let key ← t.keyText r.key
  .ok ((t.find? key).map (projectItem projection))

/-- Succeeds only where the condition of a write holds of the item that is there, or of no attributes at all. -/
def checkCondition (condition : Option String) (names : Option (Fields String)) (values : Fields Json)
    (existing : Option Item) : Except StoreError Unit :=
  match condition with
  | none => .ok ()
  | some text => do
    let formula ← (Expression.parseFormula text names).mapError invalidExpression
    let document ← match existing with
      | some item => (toDocument item).mapError invalidAttribute
      | none => .ok []
    if ← holds values (some formula) document then .ok ()
    else .error (.conditionalCheckFailed "The conditional request failed")

/-- The result of an answer that leaves a table changed. -/
def store (m : Memory) (name : String) {α : Type} (r : Except StoreError (Rows × α)) : Except StoreError α × Memory :=
  match r with
  | .ok (t, a) => (.ok a, m.setTable name t)
  | .error e => (.error e, m)

/-- Stores a whole item. -/
def put (m : Memory) (r : PutRequest) : Except StoreError Unit × Memory :=
  m.store r.table do
    let values ← plainValues r.values
    let t ← m.requireTable r.table
    let key ← t.keyText r.item
    checkCondition r.condition r.names values (t.find? key)
    .ok (t.put key r.item, ())

/-- The attribute that an assignment assigns. -/
def assigned (values : Option (Fields Json)) : Expression.Term → Except StoreError Json
  | .param name =>
    match values.bind (·.get? name) with
    | some value => .ok value
    | none => .error (invalidExpression (.undefinedValue name))
  | .literal l => .ok (ofJson l.toJson)
  | other => .error (invalid ("unsupported SET operand " ++ other.shown))

/-- An item after assignments. -/
def applyAll (t : Rows) (values : Option (Fields Json)) (item : Item) :
    List (String × Expression.Term) → Except StoreError Item
  | [] => .ok item
  | (field, term) :: rest =>
    if t.isKey field then .error (invalid ("cannot update key attribute " ++ field))
    else do applyAll t values (item.put field (← assigned values term)) rest

/-- Changes an item, or makes one of its key. -/
def update (m : Memory) (r : UpdateRequest) : Except StoreError (Option Item) × Memory :=
  m.store r.table do
    let values ← plainValues r.values
    let assignments ← (Expression.parseAssignments r.assignments r.names).mapError invalidExpression
    let t ← m.requireTable r.table
    let key ← t.keyText r.key
    let existing := t.find? key
    checkCondition r.condition r.names values existing
    let item ← applyAll t r.values (existing.getD r.key) assignments
    .ok (t.put key item, some item)

/-- Removes an item. -/
def delete (m : Memory) (r : DeleteRequest) : Except StoreError Unit × Memory :=
  m.store r.table do
    let t ← m.requireTable r.table
    let key ← t.keyText r.key
    checkCondition r.condition r.names [] (t.find? key)
    .ok (t.erase key, ())

/-- What a call does when no failure is in its way. -/
def act (m : Memory) : (call : Call) → Except StoreError call.Answer × Memory
  | .scan r => (m.scan r, m)
  | .query r => (m.query r, m)
  | .get r => (m.get r, m)
  | .put r => m.put r
  | .update r => m.update r
  | .delete r => m.delete r

/-- The answer to a call: the failure in its way, if there is one, and otherwise what the call does. -/
def answer (call : Call) (m : Memory) : Except StoreError call.Answer × Memory :=
  answerUnless m.failure { m with failure := none } (m.act call)

end Memory

end DocQuery.Dynamo
