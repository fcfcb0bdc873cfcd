import DocQuery.Filter.Operator
import DocQuery.Text.Base64
import DocQuery.Text.Quoted
import DocQuery.Time.Span

/-!
# Errors

Every error is a cause; the wording is in the `message` functions alone. The causes fall into kinds, which is what callers tell
errors apart by. A failure of the store itself is kept as the store reported it.
-/

namespace DocQuery

/-- The families of stores. -/
inductive Backend where
  | dynamodb | cosmos
  deriving DecidableEq, Repr

/-- The name of a family of stores. -/
def Backend.name : Backend → String
  | .dynamodb => "dynamodb"
  | .cosmos => "cosmos"

/-- A failure reported by a store. -/
inductive StoreError where
  | notFound (detail : String)
  | conditionalCheckFailed (detail : String)
  | conflict (detail : String)
  | throttled (detail : String)
  | service (detail : String)
  deriving DecidableEq, Repr, Inhabited

/-- The wording of a store's failure. -/
def StoreError.message : StoreError → String
  | .notFound d => "Resource not found: " ++ d
  | .conditionalCheckFailed d => "Conditional check failed: " ++ d
  | .conflict d => "Conflict: " ++ d
  | .throttled d => "Throttled: " ++ d
  | .service d => "Service error: " ++ d

/-- Why a typed attribute cannot be read. -/
inductive AttributeFault where
  | notObject
  | empty
  | manyTags
  | notText (tag : String)
  | notBoolean
  | notArray (tag : String)
  | notMap
  | notBinary
  | itemNotText (tag : String)
  | itemNotNumeral
  | badBase64 (fault : Text.Base64.Fault)
  | badNumber (numeral : String)
  | unknownTag (tag : String)
  deriving DecidableEq, Repr

/-- The wording of an attribute's fault. -/
def AttributeFault.message : AttributeFault → String
  | .notObject => "Attribute value must be an object"
  | .empty => "Empty attribute value"
  | .manyTags => "Attribute value must have exactly one type key"
  | .notText tag => tag ++ " value must be a string"
  | .notBoolean => "BOOL value must be a boolean"
  | .notArray tag => tag ++ " value must be an array"
  | .notMap => "M value must be an object"
  | .notBinary => "B value must be a base64 string"
  | .itemNotText tag => tag ++ " items must be strings"
  | .itemNotNumeral => "NS items must be number strings"
  | .badBase64 fault => "Invalid base64: " ++ fault.message
  | .badNumber numeral => "Invalid number: " ++ numeral
  | .unknownTag tag => "Unknown type: " ++ tag

/-- The writing operations whose payload may be refused. -/
inductive PayloadOperation where
  | create | update
  deriving DecidableEq, Repr

/-- The name of a writing operation. -/
def PayloadOperation.name : PayloadOperation → String
  | .create => "create"
  | .update => "update"

/-- Why an argument is refused. -/
inductive ArgumentFault where
  | emptyId
  | blankInId (id : String)
  | whereNotObject (got : Json)
  | selectNotObject (got : Json)
  | selectNotBoolean (field : String) (got : Json)
  | orderNotObject (got : Json)
  | orderNotDirection (field : String) (got : Json)
  | orderUnsupported
  | noPartitionKey (field : String)
  | noSortKey (field : String)
  | noTextId
  | onlyKeyChanges
  | partitionKeyChanged (field : String)
  | noClient (backend : Backend)
  | argsNotObject
  | takeNotInteger (got : Json)
  | unknownArgument (name : String)
  | payloadEmpty (operation : PayloadOperation)
  | payloadNotObject (operation : PayloadOperation) (got : Json)
  | idNotText (field : String) (got : Json)
  | idRequired (field : String)
  | idChanged (field : String)
  | nothingToChange
  | takeOutOfRange (max : Nat) (got : Int64)
  deriving Repr

/-- The wording of a refused argument. -/
def ArgumentFault.message : ArgumentFault → String
  | .emptyId => "id must not be empty"
  | .blankInId id => "id must not contain whitespace: " ++ Text.quoted id
  | .whereNotObject got => "where must be an object, got " ++ got.text
  | .selectNotObject got => "select must be an object, got " ++ got.text
  | .selectNotBoolean field got => "select." ++ field ++ " must be a boolean, got " ++ got.text
  | .orderNotObject got => "orderBy must be an object, got " ++ got.text
  | .orderNotDirection field got => "orderBy." ++ field ++ " must be ASC or DESC, got " ++ got.text
  | .orderUnsupported => "DynamoDB can only order by the sort key of a partition-key query"
  | .noPartitionKey field => "record has no partition key " ++ field
  | .noSortKey field => "record has no sort key " ++ field
  | .noTextId => "record has no string id"
  | .onlyKeyChanges => "update changes no attributes besides the key"
  | .partitionKeyChanged field => "partition key " ++ field ++ " cannot be changed"
  | .noClient .dynamodb => "no DynamoDB client configured"
  | .noClient .cosmos => "no Cosmos client configured"
  | .argsNotObject => "findMany arguments must be an object"
  | .takeNotInteger got => "take must be an integer, got " ++ got.text
  | .unknownArgument name => "unknown findMany argument " ++ name
  | .payloadEmpty operation => operation.name ++ " payload must not be empty"
  | .payloadNotObject operation got => operation.name ++ " payload must be an object, got " ++ got.text
  | .idNotText field got => field ++ " must be a string, got " ++ got.text
  | .idRequired field => field ++ " is required"
  | .idChanged field => field ++ " cannot be changed by update"
  | .nothingToChange => "update payload has no fields to change"
  | .takeOutOfRange max got =>
    "take must be between 1 and " ++ toString max ++ ", got " ++ String.ofList (Decimal.integerText got.toInt)

/-- Why a filter on a field is malformed. -/
inductive FilterFault where
  | notObject
  | notScalar (operator : Operator) (got : Json)
  | notText (operator : Operator)
  | notList (operator : Operator)
  | badMode (got : Json)
  | emptyName
  | noOperators
  | noValues (operator : Operator)
  | notFinite
  | mixedTypes (operator : Operator) (operand field : FieldType)
  | emptyList
  | listTooLong (max got : Nat)
  deriving Repr

/-- The wording of a filter's fault. -/
def FilterFault.message : FilterFault → String
  | .notObject => "filter condition must be an object"
  | .notScalar operator got => "`" ++ operator.name ++ "` expects a scalar operand, got " ++ got.text
  | .notText operator => "`" ++ operator.name ++ "` expects a string operand"
  | .notList operator => "`" ++ operator.name ++ "` expects an array operand"
  | .badMode got => "mode must be SENSITIVE or INSENSITIVE, got " ++ got.text
  | .emptyName => "field name must not be empty"
  | .noOperators => "filter condition has no operators"
  | .noValues operator => "`" ++ operator.name ++ "` requires at least one value"
  | .notFinite => "non-finite number operand"
  | .mixedTypes operator operand field =>
    "`" ++ operator.name ++ "` operand is " ++ operand.name ++ " but the field is filtered as " ++ field.name
  | .emptyList => "`in` requires at least one value"
  | .listTooLong max got => "`in` accepts at most " ++ toString max ++ " values, got " ++ toString got

/-- Why a cursor is refused. -/
inductive CursorFault where
  | empty
  | notBase64
  | notUtf8
  | keyNotObject (got : Json)
  | keyNotJson
  | notText (got : Json)
  deriving Repr

/-- The wording of a refused cursor. -/
def CursorFault.message : CursorFault → String
  | .empty => "cursor is empty"
  | .notBase64 => "not base64url:"
  | .notUtf8 => "token is not valid UTF-8"
  | .keyNotObject got => "pagination key must be an object, got " ++ got.text
  | .keyNotJson => "pagination key is not JSON:"
  | .notText got => "cursor must be a string, got " ++ got.text

/-- How an answer of a store breaks its contract. -/
inductive ContractFault where
  | itemNotObject (index : Nat) (got : Json)
  | notList (got : Json)
  | noSortKey (id field : String)
  | noAttributes
  | recordShape (entity : String)
  | attribute (fault : AttributeFault)
  deriving Repr

/-- The wording of a broken contract. -/
def ContractFault.message : ContractFault → String
  | .itemNotObject index got => "result item " ++ toString index ++ " is not an object: " ++ got.text
  | .notList got => "result set is not a list: " ++ got.text
  | .noSortKey id field => "item " ++ id ++ " has no sort key attribute " ++ field
  | .noAttributes => "update returned no attributes"
  | .recordShape entity => "record does not fit " ++ entity
  | .attribute fault => fault.message

/-- Why an operation fails. -/
inductive Error where
  | invalidArgument (fault : ArgumentFault)
  | malformedFilter (field : String) (fault : FilterFault)
  | unsupportedOperator (field operator fieldType : String)
  | notFound (id : String)
  | alreadyExists (id : String)
  | invalidCursor (fault : CursorFault)
  | contractViolation (fault : ContractFault)
  | storeFailure (cause : StoreError)
  | timedOut (limit : Span)
  | cancelled
  deriving Repr

namespace Error

/-- What callers tell errors apart by. -/
inductive Kind where
  | invalidArgument | malformedFilter | unsupportedOperator | notFound | alreadyExists | invalidCursor | contractViolation
  | storeFailure | timedOut | cancelled
  deriving DecidableEq, Repr

/-- The kind of an error. -/
def kind : Error → Kind
  | .invalidArgument _ => .invalidArgument
  | .malformedFilter _ _ => .malformedFilter
  | .unsupportedOperator _ _ _ => .unsupportedOperator
  | .notFound _ => .notFound
  | .alreadyExists _ => .alreadyExists
  | .invalidCursor _ => .invalidCursor
  | .contractViolation _ => .contractViolation
  | .storeFailure _ => .storeFailure
  | .timedOut _ => .timedOut
  | .cancelled => .cancelled

/-- The wording of an error. -/
def message : Error → String
  | .invalidArgument fault => "Invalid argument: " ++ fault.message
  | .malformedFilter field fault => "Malformed filter on `" ++ field ++ "`: " ++ fault.message
  | .unsupportedOperator field operator fieldType =>
    "Unsupported operator `" ++ operator ++ "` on " ++ fieldType ++ " field `" ++ field ++ "`"
  | .notFound id => "Record not found: " ++ id
  | .alreadyExists id => "Record already exists: " ++ id
  | .invalidCursor fault => "Invalid cursor: " ++ fault.message
  | .contractViolation fault => "Backend contract violation: " ++ fault.message
  | .storeFailure cause => "Backend failure: " ++ cause.message
  | .timedOut limit => "Operation timed out after " ++ limit.text
  | .cancelled => "Operation cancelled"

end Error

end DocQuery
