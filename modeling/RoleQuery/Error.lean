import RoleQuery.Bytes.Base64
import RoleQuery.Bytes.Wire
import RoleQuery.Catalog.Operation
import RoleQuery.Filter.Operator

/-!
# Errors of requests

Every way in which a request can fail is a cause. A cause has a message, the status that a
transport reports for it, and a stable code; most causes arise before the tables are touched.
-/
namespace RoleQuery

/-- What is wrong with the input of a request. A path names an entity and the
fields navigated from it. -/
inductive InputFault where
  | filterNotObject (path : String) (found : Json)
  | memberNotObject (path field : String) (found : Json)
  | notList (name path : String)
  | noOperator (path : String)
  | unknownOperator (name path : String)
  | operandNotScalar (name path : String)
  | unknownMember (field path : String)
  | relationshipCompared (path field : String) (op : Operator)
  | nestedCompared (op : Operator) (path field : String)
  | operandAt (fault : OperandFault) (path field : String)
  | operandOn (fault : OperandFault) (field : String)
  | notNavigable (path field : String)
  | notIterable (path field : String)
  | unknownField (field entity : String)
  | unordered (entity field : String)
  | readIsNoWrite
  | relationshipWritten (field entity : String)
  | valueNotScalar (field : String)
  | keyFieldMissing (field entity : String)
  | keyMissing (operation : Operation) (entity : String)
  | nestedColumn (path : List String)
  | embeddedList
  | bareRelationship (field : String)
  | joinedWritePolicy
  | relationshipSelected (entity : String)
  | relationshipFiltered (target : String)
  | other (text : String)
  deriving Repr

def InputFault.message : InputFault → String
  | .filterNotObject path found => s!"filter for {path} must be an object, got {found.compact}"
  | .memberNotObject path field found =>
    s!"filter on {path}.{field} must be an object, got {found.compact}"
  | .notList name path => s!"'{name}' in {path} must be a list of filters"
  | .noOperator path => s!"no operator given for {path}"
  | .unknownOperator name path => s!"unknown operator '{name}' on {path}"
  | .operandNotScalar name path => s!"operand of '{name}' on {path} must be a scalar"
  | .unknownMember field path => s!"field '{field}' is not defined on {path}"
  | .relationshipCompared path field op =>
    s!"relationship {path}.{field} cannot be compared with '{op.name}'"
  | .nestedCompared op path field =>
    s!"operator '{op.name}' cannot be applied to nested field {path}.{field}"
  | .operandAt fault path field => s!"{fault.message} on {path}.{field}"
  | .operandOn fault field => s!"{fault.message} on '{field}'"
  | .notNavigable path field => s!"{path}.{field} is not an object and cannot be navigated into"
  | .notIterable path field => s!"{path}.{field} is not a list and cannot be filtered by element"
  | .unknownField field entity => s!"field '{field}' is not defined on entity '{entity}'"
  | .unordered entity field => s!"cannot order {entity} by '{field}'"
  | .readIsNoWrite => "read is not a mutation"
  | .relationshipWritten field entity =>
    s!"relationship '{field}' cannot be written through {entity}"
  | .valueNotScalar field => s!"value of '{field}' must be a scalar"
  | .keyFieldMissing field entity => s!"primary key field '{field}' of {entity} is required"
  | .keyMissing operation entity => s!"{operation.name} of {entity} needs the item's primary key"
  | .nestedColumn path =>
    "nested path '" ++ ".".intercalate path ++ "' is not supported by relational sources"
  | .embeddedList => "embedded arrays are not supported by relational sources"
  | .bareRelationship field => s!"relationship '{field}' needs a nested selection"
  | .joinedWritePolicy => "write policies cannot be joined into the statement"
  | .relationshipSelected entity => s!"relationship fields cannot be selected on {entity}"
  | .relationshipFiltered target =>
    s!"relationship to {target} cannot be filtered on a document source"
  | .other text => text

/-- What is wrong with a cursor. -/
inductive CursorFault where
  | base64 (fault : Base64.Fault)
  | payload (fault : Wire.Fault)
  /-- The cursor belongs to the other kind of backend. -/
  | foreign (entity : String)
  /-- The cursor has more or fewer positions than the ordering has keys. -/
  | ordering
  | orderingField (found expected : String)
  | other (text : String)
  deriving Repr

def CursorFault.message : CursorFault → String
  | .base64 fault => s!"not valid base64: {fault.message}"
  | .payload fault => s!"malformed payload: {fault.message}"
  | .foreign entity => s!"cursor was not issued for {entity}"
  | .ordering => "cursor does not match the requested ordering"
  | .orderingField found expected =>
    s!"cursor field '{found}' does not match ordering field '{expected}'"
  | .other text => text

/-- What went wrong while a statement was carried out. -/
inductive ExecutionFault where
  | orderingColumn (column : String)
  | continuationToken (token : String)
  | readIsNoWrite
  | other (text : String)
  deriving Repr

def ExecutionFault.message : ExecutionFault → String
  | .orderingColumn column => s!"ordering column '{column}' holds a non-scalar value"
  | .continuationToken token => s!"Invalid continuation token '{token}'"
  | .readIsNoWrite => "Read is not a write operation"
  | .other text => text

/-- Why a request failed. -/
inductive RequestError where
  | input (fault : InputFault)
  | cursor (fault : CursorFault)
  | pageSize (requested : Int64) (max : UInt32)
  | filterField (entity field : String)
  | selectedField (entity field : String)
  | writtenField (entity field : String)
  /-- The role lacks a grant of the operation. -/
  | operationDenied
  /-- The row failed the policy of the grant. -/
  | policyDenied (entity operation : String)
  | unknownEntity (entity : String)
  | noSuchItem (entity : String)
  | execution (fault : ExecutionFault)
  deriving Repr

namespace RequestError

def message : RequestError → String
  | .input fault => s!"Invalid filter input: {fault.message}"
  | .cursor fault => s!"Invalid pagination cursor: {fault.message}"
  | .pageSize requested max =>
    s!"Invalid page size {requested.toInt}: must be -1 or between 1 and {max.toNat}"
  | .filterField entity field =>
    s!"Access forbidden to field '{field}' of entity '{entity}' referenced in the filter"
  | .selectedField entity field =>
    s!"Access forbidden to field '{field}' of entity '{entity}' referenced in the selection"
  | .writtenField entity field =>
    s!"Access forbidden to field '{field}' of entity '{entity}' in the mutation input"
  | .operationDenied => "The current user is not authorized to access this resource"
  | .policyDenied entity operation =>
    s!"Could not {operation} the item in entity '{entity}': the database policy denied the request"
  | .unknownEntity entity => s!"Entity '{entity}' is not defined in the configuration"
  | .noSuchItem entity => s!"No item of entity '{entity}' matches the given key"
  | .execution fault => s!"Query execution failed: {fault.message}"

/-- The status that a transport reports. -/
def status : RequestError → Nat
  | .input _ | .cursor _ | .pageSize _ _ => 400
  | .filterField _ _ | .selectedField _ _ | .writtenField _ _ | .operationDenied
  | .policyDenied _ _ => 403
  | .unknownEntity _ | .noSuchItem _ => 404
  | .execution _ => 500

def code : RequestError → String
  | .input _ | .pageSize _ _ => "BadRequest"
  | .cursor _ => "InvalidCursor"
  | .filterField _ _ | .selectedField _ _ | .writtenField _ _ | .operationDenied =>
    "AuthorizationCheckFailed"
  | .policyDenied _ _ => "DatabasePolicyFailure"
  | .unknownEntity _ | .noSuchItem _ => "EntityNotFound"
  | .execution _ => "DatabaseOperationFailed"

/-- Whether the error can only be seen after the tables were asked. -/
def isPostExecution : RequestError → Bool
  | .policyDenied _ _ | .noSuchItem _ | .execution _ => true
  | _ => false

/-- The body that reports the error. -/
def problem (e : RequestError) : Json :=
  .object [("error", .object
    [("code", .str e.code), ("message", .str e.message), ("status", .int e.status)])]

end RequestError

end RoleQuery
