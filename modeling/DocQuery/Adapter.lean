import DocQuery.Filter.Where
import DocQuery.Order
import DocQuery.Program
import DocQuery.Select

/-!
# Adapters

Every family of stores offers the same operations on the records of one entity. What they have in common is stated here: the
request for a page, the page, and the operations, each a program over the calls of the store at hand.
-/

namespace DocQuery

/-- Whether writes look at what is there. -/
inductive WritePolicy where
  /-- Creating refuses to overwrite; updating and deleting require the record. -/
  | existenceChecked
  /-- Writes go straight to the store. -/
  | unchecked
  deriving DecidableEq, Repr, Inhabited

/-- A request for one page of records. -/
structure PageRequest where
  /-- Which records. -/
  filter : Where
  /-- Which of their fields. -/
  select : Select
  /-- In which order. -/
  order : Order
  /-- At most how many. -/
  take : Nat
  /-- Where the last page ended, in the store's own terms. -/
  continuation : Option String

/-- One page of records. -/
structure RecordPage where
  /-- The records. -/
  items : List Document
  /-- Where the page ended, in the store's own terms, if there may be more. -/
  continuation : Option String
  deriving Repr

/-- The operations on the records of one entity. -/
structure Adapter (I : Interface) where
  /-- The family of the store. -/
  backend : Backend
  /-- The field that holds a record's identifier. -/
  idField : String
  /-- One page of the records that pass a filter. -/
  findMany : PageRequest → Operation I RecordPage
  /-- The record with an identifier, if there is one. -/
  findById : String → Select → Operation I (Option Document)
  /-- Stores a new record. -/
  insert : Document → WritePolicy → Operation I Document
  /-- Changes fields of a record; the record afterwards. -/
  update : String → Document → WritePolicy → Operation I Document
  /-- Removes a record. -/
  delete : String → WritePolicy → Operation I Unit

/-- The items of a result set from one index on, all of which have to be objects. -/
def objectsFrom (index : Nat) : List Json → Except Error (List Document)
  | [] => .ok []
  | .obj members :: rest => (objectsFrom (index + 1) rest).map (members :: ·)
  | other :: _ => .error (.contractViolation (.itemNotObject index other))

/-- The records of a result set as a store hands it out. A missing result set holds none. -/
def normalizeItems : Option Json → Except Error (List Document)
  | none => .ok []
  | some (.arr items) => objectsFrom 0 items
  | some other => .error (.contractViolation (.notList other))

end DocQuery
