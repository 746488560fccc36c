import RoleQuery.Catalog.Basic
import RoleQuery.Error
import RoleQuery.Json.Record

/-!
# Selected fields

A request selects a tree of fields, each under the name that the answer gives it. Resolved
against the catalog, the tree becomes a mask: which columns are fetched, which relationships
are followed, and how the rows are shaped into the answer.
-/
namespace RoleQuery

/-- A selected field. -/
structure Selection where
  field : String
  /-- The name in the answer, where it is not the name of the field. -/
  label : Option String
  /-- The type of the nested values, where the client knows it. -/
  typeHint : Option String
  children : List Selection
  deriving Repr, Inhabited

namespace Selection

open Json (Raw)

/-- A field without a selection of nested values. -/
def leaf (field : String) : Selection := ⟨field, none, none, []⟩

/-- The name in the answer. -/
def output (s : Selection) : String := s.label.getD s.field

/-- The fields of an entity that a reader may see, in declared order. -/
def readable (e : Entity) (allows : String → Bool) : List Selection :=
  (e.fields.filter fun f => allows f.name).map fun f => leaf f.name

/-- The members of a selection other than the children. -/
def readHead? (r : Raw) (children : List Selection) : Option Selection := do
  match ← r.record? ["field", "alias", "typeHint", "children"] with
  | [field, label, typeHint, _] =>
    return ⟨← Raw.required? Raw.string? field, ← Raw.optional? Raw.string? label,
      ← Raw.optional? Raw.string? typeHint, children⟩
  | _ => none

mutual

def ofRaw? : Raw → Option Selection
  | .object ms => (childrenAmong? ms).bind (readHead? (.object ms))
  | .list items => (childrenAt? 3 items).bind (readHead? (.list items))
  | _ => none
termination_by structural r => r

def listOfRaw? : Raw → Option (List Selection)
  | .list items => allOfRaw? items
  | _ => none
termination_by structural r => r

/-- Every item as a selection. -/
def allOfRaw? : List Raw → Option (List Selection)
  | [] => some []
  | r :: rest =>
    match ofRaw? r, allOfRaw? rest with
    | some s, some ss => some (s :: ss)
    | _, _ => none
termination_by structural items => items

/-- The children at a place of a list; none when the list is shorter. -/
def childrenAt? : Nat → List Raw → Option (List Selection)
  | _, [] => some []
  | 0, r :: _ => listOfRaw? r
  | n + 1, _ :: rest => childrenAt? n rest
termination_by structural _ items => items

/-- The children among members; none when there is no such member. -/
def childrenAmong? : List (String × Raw) → Option (List Selection)
  | [] => some []
  | (name, r) :: rest => if name = "children" then listOfRaw? r else childrenAmong? rest
termination_by structural ms => ms

end

end Selection

/-- A field that the answer shows, with what is needed to fetch it. -/
inductive MaskedField where
  /-- The value as it is. -/
  | plain (name output column : String) (relationship : Option Relationship)
  /-- The selected part of nested values. -/
  | nested (name output column : String) (relationship : Option Relationship)
      (entity object : Option String) (fields : List MaskedField)
  deriving Repr, Inhabited

/-- The fields that the answer shows of one row. -/
structure FieldMask where
  /-- The owner of the fields; absent inside a type that the catalog does not know. -/
  entity : Option String
  /-- The table or container of the owner. -/
  object : Option String
  fields : List MaskedField
  deriving Repr, Inhabited

namespace MaskedField

def name : MaskedField → String
  | .plain name _ _ _ | .nested name _ _ _ _ _ _ => name

/-- The name in the answer. -/
def output : MaskedField → String
  | .plain _ output _ _ | .nested _ output _ _ _ _ _ => output

/-- The column that holds the value; related rows are fetched under the
name of their member. -/
def column : MaskedField → String
  | .plain _ _ column _ | .nested _ _ column _ _ _ _ => column

def relationship? : MaskedField → Option Relationship
  | .plain _ _ _ relationship | .nested _ _ _ relationship _ _ _ => relationship

def nested? : MaskedField → Option FieldMask
  | .plain _ _ _ _ => none
  | .nested _ _ _ _ entity object fields => some ⟨entity, object, fields⟩

end MaskedField

namespace FieldMask

/-- The columns that fields are fetched from, related rows apart. -/
def columnsOf (fields : List MaskedField) : List String :=
  (fields.filter (·.relationship?.isNone)).map (·.column)

/-- The columns that are fetched, related rows apart. -/
def columns (mask : FieldMask) : List String := columnsOf mask.fields

/-- The fields that show related rows. -/
def relationships (mask : FieldMask) : List MaskedField :=
  mask.fields.filter (·.relationship?.isSome)

/-- The column behind a selected member; inside an unknown type it has
the name of the member. -/
def columnOf (entity : Option Entity) (field : String) : Except RequestError String :=
  match entity with
  | none => .ok field
  | some e =>
    if (e.relationship? field).isSome then .ok field
    else match e.field? field with
      | some f => .ok f.column
      | none => .error (.input (.unknownField field e.name))

mutual

/-- A selection resolved against its owner. -/
def ofSelection (catalog : Catalog) (entity : Option Entity) :
    Selection → Except RequestError MaskedField
  | ⟨field, label, typeHint, children⟩ => do
    let column ← columnOf entity field
    let relationship := entity.bind (·.relationship? field)
    if children.isEmpty then return .plain field (label.getD field) column relationship
    let owner := entity.bind fun e => catalog.nestedEntity? e field typeHint
    let fields ← fieldsOf catalog owner children
    return .nested field (label.getD field) column relationship
      (owner.map (·.name)) (owner.map (·.object)) fields
termination_by structural s => s

/-- Selections resolved against their owner. -/
def fieldsOf (catalog : Catalog) (entity : Option Entity) :
    List Selection → Except RequestError (List MaskedField)
  | [] => .ok []
  | s :: rest => do
    let field ← ofSelection catalog entity s
    let fields ← fieldsOf catalog entity rest
    return field :: fields
termination_by structural ss => ss

end

def ofSelections (catalog : Catalog) (entity : Option Entity) (selections : List Selection) :
    Except RequestError FieldMask :=
  (fieldsOf catalog entity selections).map
    (⟨entity.map (·.name), entity.map (·.object), ·⟩)

mutual

/-- What the answer shows of the value of a field: of a document or of each document of a list
the selected part, and anything else as it is. -/
def shapeValue : MaskedField → Json → Json
  | .plain _ _ _ _, value => value
  | .nested _ _ _ _ _ _ fields, .list items =>
    .list (items.map fun item => .object (shapeFieldsInto [] fields item))
  | .nested _ _ _ _ _ _ fields, .object ms => .object (shapeFieldsInto [] fields (.object ms))
  | .nested _ _ _ _ _ _ _, value => value
termination_by structural field => field

/-- Add the members that the answer shows of a row. A missing column is null, and of fields
with one name in the answer the last one counts. -/
def shapeFieldsInto (shown : Members) : List MaskedField → Json → Members
  | [], _ => shown
  | field :: rest, row =>
    shapeFieldsInto
      (shown.insert field.output (shapeValue field ((row.get? field.column).getD .null))) rest row
termination_by structural fields => fields

end

/-- What the answer shows of a row. -/
def shape (mask : FieldMask) (row : Json) : Json := .object (shapeFieldsInto [] mask.fields row)

end FieldMask

end RoleQuery
