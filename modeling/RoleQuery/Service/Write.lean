import RoleQuery.Access.Authorization
import RoleQuery.Predicate.OfFilter
import RoleQuery.Service.Read
import RoleQuery.Statement.OfPlan
import RoleQuery.Tables.Run

/-!
# Writes

A write request creates an item, or updates or deletes the item with a given primary key. It
is authorized and compiled like a read, carried out on the tables, and answered with the
written item as far as the caller may read it.
-/
namespace RoleQuery

/-- A request to create, update or delete an item. -/
structure WriteRequest where
  entity : String
  operation : Operation
  /-- The primary key, by field. -/
  key : Members
  /-- The written values, by field. -/
  input : Members
  deriving Repr

/-- The answer to a write that was carried out. -/
inductive WriteAnswer where
  /-- The written item, as far as the caller may read it. -/
  | item (j : Json)
  /-- The caller may not read the item. -/
  | unreadable (message : String)
  deriving Repr

namespace Catalog

/-- The written columns and their values, which must be scalars. -/
def writtenValues (e : Entity) : Members → Except RequestError (List (String × Value))
  | [] => .ok []
  | (field, raw) :: rest =>
    match Value.ofJson? raw with
    | none => .error (.input (.valueNotScalar field))
    | some v => (writtenValues e rest).map ((e.column field, v) :: ·)

/-- The columns of the primary key and their values, none of which may be missing or null. -/
def keyValues (e : Entity) (key : Members) :
    List Field → Except RequestError (List (String × Value))
  | [] => .ok []
  | f :: rest =>
    match (key.get? f.name).bind Value.ofJson? with
    | none | some .null => .error (.input (.keyFieldMissing f.name e.name))
    | some v => (keyValues e key rest).map ((f.column, v) :: ·)

/-- Compile a write. -/
def planWrite (catalog : Catalog) (e : Entity) (request : WriteRequest) (caller : Caller) :
    Except RequestError WritePlan := do
  let policy ← authorizeWrite catalog e request.operation request.input.names caller
  let values ← writtenValues e request.input
  let key ← if request.operation = .create then pure [] else keyValues e request.key e.key
  let policy ← policy.mapM (Predicate.ofWritePolicy catalog e)
  return {
    entity := e.name
    object := e.object
    backend := e.backend
    operation := request.operation
    key, values, policy }

/-- The answer to a write that gave a row. -/
def answerWrite (catalog : Catalog) (e : Entity) (op : Operation) (caller : Caller) (row : Json) :
    Except RequestError WriteAnswer :=
  match catalog.readGrant? e caller with
  | none => .ok (.unreadable (unreadableMessage op))
  | some p =>
    (FieldMask.ofSelections catalog (some e) (Selection.readable e p.allows)).map fun mask =>
      .item (mask.shape row)

/-- Carry out a write. -/
def write (catalog : Catalog) (t : Tables) (request : WriteRequest) (caller : Caller) :
    Except RequestError WriteAnswer × Tables :=
  let prepared : Except RequestError (Entity × WritePlan) := do
    let e ← catalog.requireEntity request.entity
    let plan ← catalog.planWrite e request caller
    let _ ← plan.statement?
    return (e, plan)
  match prepared with
  | .error error => (.error error, t)
  | .ok (e, plan) =>
    match t.write plan with
    | .error fault => (.error (.execution fault), t)
    | .ok (.rejected, t) => (.error (.policyDenied e.name request.operation.name), t)
    | .ok (.notFound, t) => (.error (.noSuchItem e.name), t)
    | .ok (.applied row, t) => (catalog.answerWrite e request.operation caller row, t)

end Catalog

end RoleQuery
