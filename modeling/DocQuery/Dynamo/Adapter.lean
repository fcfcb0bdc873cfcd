import DocQuery.Adapter
import DocQuery.Dynamo.Dialect
import DocQuery.Json.Raw

/-!
# Records in a table

A table has a partition key and perhaps a sort key. A filter that pins the partition key by one equality becomes a query on that
partition, with as much of the sort key's filter in the key condition as fits there as a whole; any other filter is a scan. With a
sort key, the identifier alone does not address a record, so an update or a removal first looks up the first record of the
partition.
-/

namespace DocQuery.Dynamo

/-- A table and its keys. -/
structure Table where
  /-- The table. -/
  name : String
  /-- The partition key. -/
  partitionKey : String
  /-- The sort key, if the table has one. -/
  sortKey : Option String
  deriving DecidableEq, Repr

/-- Whether a field is one of the keys. -/
def Table.isKey (t : Table) (field : String) : Bool := field == t.partitionKey || t.sortKey == some field

/-- A scan of a table. -/
structure ScanRequest where
  table : String
  filter : Option String
  projection : Option String
  names : Option (Fields String)
  values : Option (Fields Json)
  limit : Option Nat
  start : Option Item
  deriving Repr

/-- A query on one partition. -/
structure QueryRequest where
  table : String
  keyCondition : String
  filter : Option String
  projection : Option String
  names : Option (Fields String)
  values : Option (Fields Json)
  forward : Option Bool
  limit : Option Nat
  start : Option Item
  deriving Repr

/-- A read by key. -/
structure GetRequest where
  table : String
  key : Item
  projection : Option String
  names : Option (Fields String)
  deriving Repr

/-- A write of a whole item. -/
structure PutRequest where
  table : String
  item : Item
  condition : Option String
  names : Option (Fields String)
  values : Option (Fields Json)
  deriving Repr

/-- A write of some attributes of an item; the answer is the item afterwards. -/
structure UpdateRequest where
  table : String
  key : Item
  assignments : String
  condition : Option String
  names : Option (Fields String)
  values : Option (Fields Json)
  deriving Repr

/-- A removal by key. -/
structure DeleteRequest where
  table : String
  key : Item
  condition : Option String
  names : Option (Fields String)
  deriving Repr

/-- What can be asked of the service. -/
inductive Call where
  | scan (r : ScanRequest)
  | query (r : QueryRequest)
  | get (r : GetRequest)
  | put (r : PutRequest)
  | update (r : UpdateRequest)
  | delete (r : DeleteRequest)
  deriving Repr

/-- One page of a scan or a query. -/
structure Page where
  /-- The items, in whatever shape the service returned them. -/
  items : Option Json
  /-- The key of the last item looked at, if there may be more. -/
  last : Option Item
  deriving Repr

/-- The answer to each call. -/
def Call.Answer : Call → Type
  | .scan _ | .query _ => Page
  | .get _ | .update _ => Option Item
  | .put _ | .delete _ => Unit

/-- The service as an interface. -/
def service : Interface := ⟨Call, Call.Answer⟩

/-- A condition on a key. -/
inductive KeyCondition where
  | single (c : Condition)
  | between (low high : Operand)
  deriving DecidableEq, Repr

/-- The conditions that a sort key can meet in a key condition. -/
def keyCompatible (mode : Mode) : Condition → Bool
  | .compare c _ => c != .not
  | .text t _ => t == .startsWith && mode == .sensitive
  | .member _ _ => false

/-- The whole filter of a sort key as one key condition, if it fits. -/
def sortKeyCondition? (f : FieldFilter) : Option KeyCondition :=
  match f.conditions with
  | [c] => if keyCompatible f.mode c then some (.single c) else none
  | [.compare .gte low, .compare .lte high] | [.compare .lte high, .compare .gte low] => some (.between low high)
  | _ => none

/-- The key conditions of a filter and the filter that remains, or nothing where the request has to be a scan: the partition key
is not pinned by a single equality, or part of the sort key's filter does not fit a key condition. -/
def keyPlan? (t : Table) (w : Where) : Option (List (String × KeyCondition) × Where) := do
  let pinned ← w.get? t.partitionKey
  let partition ← match pinned.conditions with
    | [.compare .equals v] => some (t.partitionKey, KeyCondition.single (.compare .equals v))
    | _ => none
  let remaining := w.drop t.partitionKey
  match t.sortKey with
  | none => some ([partition], remaining)
  | some sortKey =>
    match w.get? sortKey with
    | none => some ([partition], remaining)
    | some f => do
      let c ← sortKeyCondition? f
      some ([partition, (sortKey, c)], remaining.drop sortKey)

/-- One key condition as a fragment. -/
def compileKey (field : String) : KeyCondition → Compile (List String) Fragment
  | .single c => Compile.condition dialect field .sensitive c
  | .between low high => do
    let target ← Compile.reference dialect field
    let lowSlot ← Compile.bindOperand low
    let highSlot ← Compile.bindOperand high
    return Fragment.text (target ++ " BETWEEN ") ++ Fragment.slot lowSlot ++ Fragment.text " AND " ++ Fragment.slot highSlot

/-- The texts of a read. -/
structure Texts where
  /-- The projection. -/
  projection : Option String
  /-- The key condition, empty for a scan. -/
  keyCondition : String
  /-- The filter. -/
  filter : Option String
  deriving Repr

/-- Compiles the texts of a read: first the projection, then the key conditions, then the filter. -/
def compileTexts (select : Select) (keys : List (String × KeyCondition)) (remaining : Where) :
    Compile (List String) Texts := do
  let projection ← compileProjection select
  let keyFragments ← keys.mapM fun (field, c) => compileKey field c
  let filter ← Compile.filter dialect remaining
  return ⟨projection, Bindings.render dialect (Fragment.join " AND " keyFragments), filter.map (Bindings.render dialect)⟩

/-- Compiles the texts of a read together with their tables. -/
def readTexts? (select : Select) (keys : List (String × KeyCondition)) (remaining : Where) : Except Error (Texts × Tables) :=
  match (compileTexts select keys remaining).run.run ⟨[], []⟩ with
  | (.ok texts, b) => .ok (texts, Tables.ofBindings b)
  | (.error e, _) => .error e

/-- The key that a continuation names. -/
def startKey (token : String) : Except Error Item :=
  match Json.parse? token with
  | some (.obj key) => .ok key
  | some other => .error (.invalidCursor (.keyNotObject other))
  | none => .error (.invalidCursor .keyNotJson)

/-- Sends a call whose failure is a failure of the operation. -/
def ask (c : Call) : Operation service c.Answer := Operation.ask (I := service) c .storeFailure

/-- Sends a conditional write; a condition that does not hold means what `refusal` says. -/
def write (c : Call) (refusal : Error) : Operation service c.Answer :=
  Operation.ask (I := service) c fun
    | .conditionalCheckFailed _ => refusal
    | e => .storeFailure e

/-- The document of an item that the service returned. -/
def readItem (item : Item) : Except Error Document :=
  (toDocument item).mapError fun fault => .contractViolation (.attribute fault)

/-- The documents of a result set. -/
def readItems (items : Option Json) : Except Error (List Document) := do
  (← normalizeItems items).mapM readItem

/-- The direction in which a request wants to go through a partition, if it may ask for one. -/
def forward? (t : Table) (isQuery : Bool) (order : Order) : Except Error (Option Bool) :=
  match order.entries with
  | [] => .ok none
  | [(field, direction)] =>
    if isQuery && t.sortKey == some field then .ok (some (direction == .ascending))
    else .error (.invalidArgument .orderUnsupported)
  | _ => .error (.invalidArgument .orderUnsupported)

/-- A size as an unsigned 32-bit count, where it is one. -/
def count32? (n : Nat) : Option Nat := if n < UInt32.size then some n else none

/-- The read that a request for a page amounts to. -/
def planRead (t : Table) (request : PageRequest) : Except Error Call := do
  request.filter.validate
  let (keys, remaining) := (keyPlan? t request.filter).getD ([], request.filter)
  let isQuery := !keys.isEmpty
  let forward ← forward? t isQuery request.order
  let start ← match request.continuation with
    | some token => (startKey token).map some
    | none => .ok none
  let (texts, tables) ← readTexts? request.select keys remaining
  let limit := count32? request.take
  if isQuery then
    .ok (.query {
      table := t.name, keyCondition := texts.keyCondition, filter := texts.filter, projection := texts.projection,
      names := tables.names, values := tables.values, forward, limit, start })
  else
    .ok (.scan {
      table := t.name, filter := texts.filter, projection := texts.projection, names := tables.names,
      values := tables.values, limit, start })

/-- The page that a scan or a query answers with. -/
def pageOf : (c : Call) → c.Answer → Page
  | .scan _, page | .query _, page => page
  | .get _, _ | .put _, _ | .update _, _ | .delete _, _ => ⟨none, none⟩

/-- One page of the records that pass a filter. -/
def findMany (t : Table) (request : PageRequest) : Operation service RecordPage := do
  let call ← Operation.of (planRead t request)
  let answer ← ask call
  let page := pageOf call answer
  let items ← Operation.of (readItems page.items)
  return ⟨items, page.last.map fun key => (Json.obj key).text⟩

/-- The key of a record in a table without a sort key. -/
def partitionItem (t : Table) (id : String) : Item := [(t.partitionKey, tagged "S" (.str id))]

/-- The query for the first record of a partition. -/
def firstRequest (t : Table) (id : String) (select : Select) : Except Error QueryRequest := do
  let (texts, tables) ← readTexts? select [(t.partitionKey, .single (.compare .equals (.text id)))] Keyed.empty
  .ok {
    table := t.name, keyCondition := texts.keyCondition, filter := none, projection := texts.projection,
    names := tables.names, values := tables.values, forward := none, limit := some 1, start := none }

/-- The first record of a partition. -/
def firstOf (t : Table) (id : String) (select : Select) : Operation service (Option Document) := do
  let request ← Operation.of (firstRequest t id select)
  let page : Page ← ask (.query request)
  let items ← Operation.of (readItems page.items)
  return items.head?

/-- The record with an identifier. -/
def findById (t : Table) (id : String) (select : Select) : Operation service (Option Document) :=
  match t.sortKey with
  | some _ => firstOf t id select
  | none => do
    let (text, names) := projection [] select
    let tables : Tables := ⟨names, []⟩
    let item : Option Item ← ask (.get { table := t.name, key := partitionItem t id, projection := text, names := tables.names })
    match item with
    | some item => (Operation.of (readItem item)).map some
    | none => return none

/-- The whole key of the record with an identifier, if it exists or can be addressed without looking. -/
def resolveKey (t : Table) (id : String) : Operation service (Option Item) :=
  match t.sortKey with
  | none => return some (partitionItem t id)
  | some sortKey => do
    match ← firstOf t id (Select.ofFields [t.partitionKey, sortKey]) with
    | none => return none
    | some record =>
      match Fields.get? record sortKey with
      | some value => return some (Fields.put (partitionItem t id) sortKey (ofJson value))
      | none => throw (.contractViolation (.noSortKey id sortKey))

/-- The condition that a write carries under a policy, and the tables afterwards. -/
def existence (t : Table) (tables : Tables) (policy : WritePolicy) (function : String) : Option String × Tables :=
  match policy with
  | .existenceChecked =>
    let (a, tables) := tables.refer t.partitionKey
    (some (function ++ "(" ++ a ++ ")"), tables)
  | .unchecked => (none, tables)

/-- Stores a new record. -/
def insert (t : Table) (d : Document) (policy : WritePolicy) : Operation service Document := do
  let id ← Operation.of (match Fields.get? d t.partitionKey with
    | some (.str id) => .ok id
    | some other => .ok other.text
    | none => .error (.invalidArgument (.noPartitionKey t.partitionKey)))
  match t.sortKey with
  | some sortKey => if !Fields.has d sortKey then throw (.invalidArgument (.noSortKey sortKey))
  | none => pure ()
  let (condition, tables) := existence t Tables.empty policy "attribute_not_exists"
  let _ ← write (.put { table := t.name, item := ofDocument d, condition, names := tables.names, values := none })
    (.alreadyExists id)
  return d

/-- Assignments of values to fields, each through an alias and a placeholder. -/
def assign (tables : Tables) : List (String × Json) → List String × Tables
  | [] => ([], tables)
  | (field, value) :: rest =>
    let (a, tables) := tables.refer field
    let (slot, tables) := tables.bind (ofJson value)
    let (more, tables) := assign tables rest
    ((a ++ " = " ++ slot) :: more, tables)

/-- Changes fields of a record. The keys stay, whatever the changes say about them. -/
def update (t : Table) (id : String) (changes : Document) (policy : WritePolicy) : Operation service Document := do
  let changes := changes.filter fun e => !t.isKey e.1
  if changes.isEmpty then throw (.invalidArgument .onlyKeyChanges)
  match ← resolveKey t id with
  | none => throw (.notFound id)
  | some key => do
    let (assignments, tables) := assign Tables.empty changes
    let (condition, tables) := existence t tables policy "attribute_exists"
    let stored : Option Item ← write (.update {
      table := t.name, key, assignments := "SET " ++ String.intercalate ", " assignments, condition,
      names := tables.names, values := tables.values }) (.notFound id)
    match stored with
    | some item => Operation.of (readItem item)
    | none => throw (.contractViolation .noAttributes)

/-- Removes a record. Unchecked, a record that is not there is no failure. -/
def delete (t : Table) (id : String) (policy : WritePolicy) : Operation service Unit := do
  match ← resolveKey t id with
  | none =>
    match policy with
    | .existenceChecked => throw (.notFound id)
    | .unchecked => return ()
  | some key => do
    let (condition, tables) := existence t Tables.empty policy "attribute_exists"
    write (.delete { table := t.name, key, condition, names := tables.names }) (.notFound id)

/-- The operations on a table. -/
def adapter (t : Table) : Adapter service where
  backend := .dynamodb
  idField := t.partitionKey
  findMany := findMany t
  findById := findById t
  insert := insert t
  update := update t
  delete := delete t

end DocQuery.Dynamo
