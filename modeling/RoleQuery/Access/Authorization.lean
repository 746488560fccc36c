import RoleQuery.Access.Fields
import RoleQuery.Access.Policy

/-!
# Authorization of requests

A read is authorized as a whole: the role holds a read grant, may use every field that
the request refers to, and carries the claims of the policy, which then restricts the
filter. A write is authorized for the fields it gives, and its policy is what the
written row must satisfy.
-/
namespace RoleQuery

namespace Catalog

/-- The grant that the caller uses, or the denial of the operation. -/
def requireGrant (catalog : Catalog) (e : Entity) (op : Operation) (caller : Caller) :
    Except RequestError Permission :=
  match catalog.grant? e caller.role op with
  | some p => .ok p
  | none => .error .operationDenied

/-- The grant under which the caller sees the item it has written. -/
def readGrant? (catalog : Catalog) (e : Entity) (caller : Caller) : Option Permission :=
  catalog.grant? e caller.role .read

end Catalog

/-- A read that the caller may make. -/
structure AuthorizedRead where
  /-- What the client and the policy ask of the rows. -/
  filter : Option Filter
  selection : List Selection
  mask : FieldMask
  deriving Repr

/-- Authorize a read. An empty selection stands for every field that the role may read. -/
def authorizeRead (catalog : Catalog) (e : Entity) (filter : Option Filter)
    (selection : List Selection) (orderBy : List String) (caller : Caller) :
    Except RequestError AuthorizedRead := do
  let p ← catalog.requireGrant e .read caller
  let selection :=
    if selection.isEmpty then Selection.readable e (catalog.allows caller.role .read e)
    else selection
  let mask ← FieldMask.ofSelections catalog (some e) selection
  match filter with
  | some f => Access.checkFilter catalog caller.role .read e f
  | none => pure ()
  Access.checkSelections catalog caller.role .read (some e) selection
  Access.checkOrder catalog caller.role .read e orderBy
  let policy ← Policy.ofPermission caller p
  return ⟨Policy.restrict filter policy, selection, mask⟩

/-- Check that a written field is a field of the entity. -/
def checkWritable (e : Entity) (field : String) : Except RequestError Unit :=
  if (e.field? field).isSome then .ok ()
  else if (e.relationship? field).isSome then .error (.input (.relationshipWritten field e.name))
  else .error (.input (.unknownField field e.name))

/-- Authorize a write of some fields; the result is what the written row must satisfy. -/
def authorizeWrite (catalog : Catalog) (e : Entity) (op : Operation) (fields : List String)
    (caller : Caller) : Except RequestError (Option Filter) := do
  if op = .read then throw (.input .readIsNoWrite)
  let p ← catalog.requireGrant e op caller
  fields.forM (checkWritable e)
  Access.checkInput catalog caller.role op e fields
  Policy.ofPermission caller p

/-- The answer to a write whose result the caller may not see. -/
def unreadableMessage (op : Operation) : String :=
  s!"The mutation operation {op.name} was successful but the current user is unauthorized to " ++
    "view the response due to lack of read permissions"

end RoleQuery
