/-!
# Entities

An entity is a kind of item that a role can be allowed to use: its fields, the columns behind
them, and its relationships to other entities. Clients know the fields by their names and the
tables know them by their columns.
-/
namespace RoleQuery

/-- How the items of an entity are stored. -/
inductive Backend where
  /-- Tables, read by SQL statements. -/
  | relational
  /-- Documents with nested objects and lists. -/
  | hierarchical
  deriving DecidableEq, Repr

def Backend.name : Backend → String
  | .relational => "relational"
  | .hierarchical => "hierarchical"

/-- What the values of a field are. -/
inductive FieldKind where
  | scalar
  /-- A nested document of the named type. -/
  | object (type : String)
  /-- A list of elements of the named type. -/
  | list (type : String)
  deriving DecidableEq, Repr

/-- The type of the nested values of a field. -/
def FieldKind.type? : FieldKind → Option String
  | .scalar => none
  | .object type | .list type => some type

/-- A field and the column behind it. -/
structure Field where
  name : String
  column : String
  /-- The field is part of the primary key. -/
  isKey : Bool
  kind : FieldKind
  deriving DecidableEq, Repr

/-- How many related items an item has. -/
inductive Cardinality where
  | one
  | many
  deriving DecidableEq, Repr

def Cardinality.name : Cardinality → String
  | .one => "one"
  | .many => "many"

/-- A relationship to another entity: items are related when the paired columns are equal. -/
structure Relationship where
  /-- The member that carries the relationship. -/
  field : String
  target : String
  cardinality : Cardinality
  sourceColumns : List String
  targetColumns : List String
  deriving DecidableEq, Repr

/-- How long results about an entity may be kept. -/
structure CachePolicy where
  enabled : Bool
  /-- The time to live in milliseconds. -/
  ttl : Nat
  deriving DecidableEq, Repr

/-- An entity. -/
structure Entity where
  name : String
  /-- The display name of one item, which is also the name of its type. -/
  singular : String
  plural : String
  /-- The table or container that holds the items. -/
  object : String
  backend : Backend
  cache : Option CachePolicy
  fields : List Field
  relationships : List Relationship
  deriving DecidableEq, Repr

namespace Entity

/-- An entity with no relationships, under its default display names. -/
def ofFields (name object : String) (backend : Backend) (fields : List Field) : Entity where
  name := name
  singular := name
  plural := name ++ "s"
  object := object
  backend := backend
  cache := none
  fields := fields
  relationships := []

/-- Add a relationship; one with the same field is replaced in its place. -/
def withRelationship (e : Entity) (r : Relationship) : Entity :=
  if e.relationships.any (·.field = r.field) then
    { e with relationships := e.relationships.map fun old =>
        if old.field = r.field then r else old }
  else { e with relationships := e.relationships ++ [r] }

/-- The field of a name; of several the last one counts. -/
def field? (e : Entity) (name : String) : Option Field :=
  e.fields.reverse.find? (·.name = name)

/-- The field of a column; of several the last one counts. -/
def fieldOfColumn? (e : Entity) (column : String) : Option Field :=
  e.fields.reverse.find? (·.column = column)

/-- The column behind a field, or the name itself where there is no such field. -/
def column (e : Entity) (name : String) : String :=
  match e.field? name with
  | some f => f.column
  | none => name

/-- The relationship carried by a member. -/
def relationship? (e : Entity) (name : String) : Option Relationship :=
  e.relationships.find? (·.field = name)

/-- Whether the entity has a field or relationship of a name. -/
def hasMember (e : Entity) (name : String) : Bool :=
  (e.field? name).isSome || (e.relationship? name).isSome

/-- The fields of the primary key in declared order. -/
def key (e : Entity) : List Field := e.fields.filter (·.isKey)

@[simp] theorem relationship?_withRelationship_self (e : Entity) (r : Relationship) :
    (e.withRelationship r).relationship? r.field = some r := by
  by_cases h : e.relationships.any (·.field = r.field)
  · have hfield : ∀ old : Relationship,
        decide ((if old.field = r.field then r else old).field = r.field) =
          decide (old.field = r.field) := by
      intro old
      by_cases ho : old.field = r.field <;> simp [ho]
    obtain ⟨found, hfound⟩ :=
      Option.isSome_iff_exists.1 (List.find?_isSome.2 (List.any_eq_true.1 h))
    have hf : found.field = r.field := by simpa using List.find?_some hfound
    simp only [withRelationship, if_pos h, relationship?, List.find?_map, Function.comp_def, hfield,
      hfound]
    simp [hf]
  · have hnone : e.relationships.find? (·.field = r.field) = none :=
      List.find?_eq_none.2 fun old ho hr => h (List.any_eq_true.2 ⟨old, ho, hr⟩)
    rw [withRelationship, if_neg h]
    simp [relationship?, List.find?_append, hnone]

end Entity

end RoleQuery
