import RoleQuery.Catalog.Basic
import RoleQuery.Error

/-!
# Filters in JSON

A client writes a filter as an object. The members `and` and `or` hold lists of filters; every
other member names a field of the entity and holds comparisons, or a filter on what the field
leads to. A member that is `null` asks nothing. Inside a type that the catalog does not know,
an object whose names are all operators compares a scalar, and any other object navigates.
-/
namespace RoleQuery.Filter

/-- How a member is written. -/
inductive Shape where
  | scalar
  | object
  | element
  deriving DecidableEq, Repr

/-- A group under construction. -/
structure Group where
  fields : List Filter := []
  allOf : Option (List Filter) := none
  anyOf : Option (List Filter) := none

namespace Group

def toFilter (g : Group) : Filter := .group g.fields g.allOf g.anyOf

/-- The group as the children of a field: its fields, and the lists, if
any, as one more child. -/
def toChildren (g : Group) : List Filter :=
  if g.allOf.isSome || g.anyOf.isSome then g.fields ++ [.group [] g.allOf g.anyOf] else g.fields

end Group

/-- Whether a value compares a scalar of an unknown type: it is no object, or an object with
at least one member whose names are all operators. -/
def comparesScalar : Json → Bool
  | .object ms => !ms.isEmpty && ms.all fun m => (Operator.parse? m.1).isSome
  | _ => true

/-- How a member is written: as the entity declares it, and otherwise as its value looks. -/
def shape (entity : Option Entity) (path field : String) (value : Json) :
    Except InputFault Shape :=
  match entity with
  | none => .ok (if comparesScalar value then .scalar else .object)
  | some e =>
    match e.relationship? field with
    | some r =>
      match r.cardinality with
      | .one => .ok .object
      | .many => .ok .element
    | none =>
      match e.field? field with
      | none => .error (.unknownMember field path)
      | some f =>
        match f.kind with
        | .scalar => .ok .scalar
        | .object _ => .ok .object
        | .list _ => .ok .element

/-- The comparisons of one field. -/
def comparisons (path field : String) : Members → Except InputFault (List Filter)
  | [] => .ok []
  | (name, raw) :: rest =>
    match Operator.parse? name with
    | none => .error (.unknownOperator name path)
    | some op =>
      match Value.ofJson? raw with
      | none => .error (.operandNotScalar name path)
      | some operand => (comparisons path field rest).map (.scalar field op operand :: ·)

/-- The entity that a member leads to. -/
def nested (catalog : Catalog) (entity : Option Entity) (field : String) : Option Entity :=
  entity.bind fun e => catalog.nestedEntity? e field

mutual

/-- The filters that a member other than `and` and `or` writes. -/
def ofMember (catalog : Catalog) (entity : Option Entity) (path field : String) :
    Json → Except InputFault (List Filter)
  | .null => do
    let _ ← shape entity path field .null
    return [.scalar field .eq .null]
  | .object ms => do
    let memberPath := path ++ "." ++ field
    match ← shape entity path field (.object ms) with
    | .scalar =>
      if ms.isEmpty then .error (.noOperator memberPath) else comparisons memberPath field ms
    | .object =>
      let group ← ofMembers catalog (nested catalog entity field) memberPath {} ms
      return [.object field group.toChildren]
    | .element =>
      let group ← ofMembers catalog (nested catalog entity field) memberPath {} ms
      return [.element field group.toChildren]
  | other => do
    let _ ← shape entity path field other
    .error (.memberNotObject path field other)
termination_by structural value => value

/-- The filters of a member `and` or `or`; `null` is as good as absent. -/
def ofList (catalog : Catalog) (entity : Option Entity) (path name : String) :
    Json → Except InputFault (Option (List Filter))
  | .null => .ok none
  | .list items => (ofItems catalog entity path items).map some
  | _ => .error (.notList name path)
termination_by structural value => value

def ofObject (catalog : Catalog) (entity : Option Entity) (path : String) :
    Json → Except InputFault Filter
  | .object ms => (ofMembers catalog entity path {} ms).map Group.toFilter
  | other => .error (.filterNotObject path other)
termination_by structural value => value

/-- The filters of a list. -/
def ofItems (catalog : Catalog) (entity : Option Entity) (path : String) :
    List Json → Except InputFault (List Filter)
  | [] => .ok []
  | j :: rest => do
    let f ← ofObject catalog entity path j
    let fs ← ofItems catalog entity path rest
    return f :: fs
termination_by structural items => items

def ofMembers (catalog : Catalog) (entity : Option Entity) (path : String) (group : Group) :
    List (String × Json) → Except InputFault Group
  | [] => .ok group
  | (name, value) :: rest => do
    if name = "and" then
      let fs ← ofList catalog entity path name value
      ofMembers catalog entity path { group with allOf := fs <|> group.allOf } rest
    else if name = "or" then
      let fs ← ofList catalog entity path name value
      ofMembers catalog entity path { group with anyOf := fs <|> group.anyOf } rest
    else
      let fs ← ofMember catalog entity path name value
      ofMembers catalog entity path { group with fields := group.fields ++ fs } rest
termination_by structural members => members

end

/-- The filter on an entity that a JSON value writes. -/
def ofJson (catalog : Catalog) (entity : Entity) (input : Json) : Except InputFault Filter :=
  ofObject catalog (some entity) entity.name input

end RoleQuery.Filter
