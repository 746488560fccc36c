import RoleQuery.Catalog.Basic
import RoleQuery.Error

/-!
# Well-formed filters

A filter may come from a client or be built by hand, so it is checked against the catalog
before anything else: its fields exist, scalars are compared, objects are navigated, lists are
filtered by element, and every operand suits its operator. Inside a type that the catalog does
not know, only the operands are checked.
-/
namespace RoleQuery.Filter

/-- Whether a field may be compared with an operand; a field with nested
values only with null. -/
def validateCompared (entity : Option Entity) (path field : String) (op : Operator)
    (operand : Value) : Except InputFault Unit :=
  match entity with
  | none => .ok ()
  | some e =>
    if (e.relationship? field).isSome then .error (.relationshipCompared path field op)
    else match e.field? field with
      | none => .error (.unknownMember field path)
      | some f =>
        if f.kind = .scalar ∨ operand.isNull then .ok ()
        else .error (.nestedCompared op path field)

/-- Whether a field may be compared with an operand that suits the operator. -/
def validateScalar (entity : Option Entity) (path field : String) (op : Operator)
    (operand : Value) : Except InputFault Unit :=
  match validateCompared entity path field op operand with
  | .error fault => .error fault
  | .ok () => (op.check operand).mapError fun fault => .operandAt fault path field

/-- Whether a member leads to one nested document or related item. -/
def validateObject (entity : Option Entity) (path field : String) : Except InputFault Unit :=
  match entity with
  | none => .ok ()
  | some e =>
    match e.relationship? field with
    | some r => if r.cardinality = .one then .ok () else .error (.notNavigable path field)
    | none =>
      match e.field? field with
      | none => .error (.unknownMember field path)
      | some f =>
        match f.kind with
        | .object _ => .ok ()
        | _ => .error (.notNavigable path field)

/-- Whether a member leads to several elements or related items. -/
def validateElement (entity : Option Entity) (path field : String) : Except InputFault Unit :=
  match entity with
  | none => .ok ()
  | some e =>
    match e.relationship? field with
    | some r => if r.cardinality = .many then .ok () else .error (.notIterable path field)
    | none =>
      match e.field? field with
      | none => .error (.unknownMember field path)
      | some f =>
        match f.kind with
        | .list _ => .ok ()
        | _ => .error (.notIterable path field)

mutual

/-- The first fault of a filter whose members belong to `entity`, reached by `path`. -/
def validateNode (catalog : Catalog) (entity : Option Entity) (path : String) :
    Filter → Except InputFault Unit
  | .scalar field op operand => validateScalar entity path field op operand
  | .object field children => do
    validateObject entity path field
    validateAll catalog (entity.bind fun e => catalog.nestedEntity? e field)
      (path ++ "." ++ field) children
  | .element field children => do
    validateElement entity path field
    validateAll catalog (entity.bind fun e => catalog.nestedEntity? e field)
      (path ++ "." ++ field) children
  | .group fields allOf anyOf => do
    validateAll catalog entity path fields
    validateList catalog entity path allOf
    validateList catalog entity path anyOf
termination_by structural x => x

def validateAll (catalog : Catalog) (entity : Option Entity) (path : String) :
    List Filter → Except InputFault Unit
  | [] => .ok ()
  | x :: rest => do
    validateNode catalog entity path x
    validateAll catalog entity path rest
termination_by structural xs => xs

def validateList (catalog : Catalog) (entity : Option Entity) (path : String) :
    Option (List Filter) → Except InputFault Unit
  | none => .ok ()
  | some xs => validateAll catalog entity path xs
termination_by structural xs => xs

end

/-- The first fault of a filter on an entity. -/
def validate (catalog : Catalog) (entity : Entity) (f : Filter) : Except InputFault Unit :=
  validateNode catalog (some entity) entity.name f

end RoleQuery.Filter
