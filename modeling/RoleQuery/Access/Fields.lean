import RoleQuery.Selection

/-!
# Access to fields

Every field that a request refers to is checked against the grant of the role on the entity
that owns the field, at every level of nesting. A relationship need not be included in the
grant, but the role must hold the same grant on its target. Fields of types that the catalog
does not know are not restricted.
-/
namespace RoleQuery

/-- Whether a role may use a field of an entity in an operation. -/
def Catalog.allows (catalog : Catalog) (role : String) (op : Operation) (e : Entity)
    (field : String) : Bool :=
  match catalog.grant? e role op with
  | none => false
  | some p =>
    match e.relationship? field with
    | some r =>
      !p.excluded.contains field && (catalog.permissions.lookup r.target role op).isSome
    | none => p.allows field

namespace Access

/-- Where a request refers to a field. -/
inductive Usage where
  | filter
  | selection
  | input
  deriving DecidableEq, Repr

/-- The error of a field that may not be used. -/
def Usage.denied (usage : Usage) (entity field : String) : RequestError :=
  match usage with
  | .filter => .filterField entity field
  | .selection => .selectedField entity field
  | .input => .writtenField entity field

def checkField (catalog : Catalog) (role : String) (op : Operation) (usage : Usage) (e : Entity)
    (field : String) : Except RequestError Unit :=
  if catalog.allows role op e field then .ok () else .error (usage.denied e.name field)

/-- Check one field, if its owner is known. -/
def checkMember (catalog : Catalog) (role : String) (op : Operation) (usage : Usage)
    (entity : Option Entity) (field : String) : Except RequestError Unit :=
  match entity with
  | some e => checkField catalog role op usage e field
  | none => .ok ()

mutual

/-- Check the fields of a filter whose members belong to `entity`. -/
def checkNode (catalog : Catalog) (role : String) (op : Operation) (entity : Option Entity) :
    Filter → Except RequestError Unit
  | .scalar field _ _ => checkMember catalog role op .filter entity field
  | .object field children | .element field children => do
    checkMember catalog role op .filter entity field
    checkNodes catalog role op (entity.bind fun e => catalog.nestedEntity? e field) children
  | .group fields allOf anyOf => do
    checkNodes catalog role op entity fields
    checkList catalog role op entity allOf
    checkList catalog role op entity anyOf
termination_by structural x => x

def checkNodes (catalog : Catalog) (role : String) (op : Operation) (entity : Option Entity) :
    List Filter → Except RequestError Unit
  | [] => .ok ()
  | x :: rest => do
    checkNode catalog role op entity x
    checkNodes catalog role op entity rest
termination_by structural xs => xs

def checkList (catalog : Catalog) (role : String) (op : Operation) (entity : Option Entity) :
    Option (List Filter) → Except RequestError Unit
  | none => .ok ()
  | some xs => checkNodes catalog role op entity xs
termination_by structural xs => xs

end

/-- Check the fields of a filter on an entity. -/
def checkFilter (catalog : Catalog) (role : String) (op : Operation) (e : Entity) (f : Filter) :
    Except RequestError Unit :=
  checkNode catalog role op (some e) f

/-- The owner of the fields selected below a field. -/
def selectedEntity (catalog : Catalog) (entity : Option Entity) (field : String)
    (hint : Option String) : Option Entity :=
  match entity with
  | some e => catalog.nestedEntity? e field hint
  | none => hint.bind catalog.entityForType?

mutual

/-- Check a selected field and the fields selected below it. -/
def checkSelection (catalog : Catalog) (role : String) (op : Operation) (entity : Option Entity) :
    Selection → Except RequestError Unit
  | ⟨field, _, typeHint, children⟩ => do
    checkMember catalog role op .selection entity field
    checkSelections catalog role op (selectedEntity catalog entity field typeHint) children
termination_by structural s => s

def checkSelections (catalog : Catalog) (role : String) (op : Operation)
    (entity : Option Entity) : List Selection → Except RequestError Unit
  | [] => .ok ()
  | s :: rest => do
    checkSelection catalog role op entity s
    checkSelections catalog role op entity rest
termination_by structural ss => ss

end

/-- Check the fields of an ordering, which are as good as selected. -/
def checkOrder (catalog : Catalog) (role : String) (op : Operation) (e : Entity)
    (fields : List String) : Except RequestError Unit :=
  fields.forM (checkField catalog role op .selection e)

def checkInput (catalog : Catalog) (role : String) (op : Operation) (e : Entity)
    (fields : List String) : Except RequestError Unit :=
  fields.forM (checkField catalog role op .input e)

end Access

end RoleQuery
