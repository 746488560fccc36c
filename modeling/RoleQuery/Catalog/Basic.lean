import RoleQuery.Catalog.Entity
import RoleQuery.Catalog.Permission
import RoleQuery.Text.Case

/-!
# The catalog

The catalog holds everything a request is compiled against: the entities, the grants of the
roles, and the settings. An entity is found by its name, or as the type of nested values by
the display name of one item, in upper or lower case.

## Main definitions

* `Settings`, `Catalog`.
* `Catalog.addEntity`, `Catalog.withPermissions`: building a catalog.
* `Catalog.entity?`, `Catalog.entityForType?`, `Catalog.nestedEntity?`: finding entities.
* `Catalog.cacheTtl?`: how long results about an entity are kept.

## Main statements

* `Catalog.entity?_addEntity_self`, `Catalog.entity?_addEntity_of_ne`: an added entity is
  found by its name, and the others as before.
-/
namespace RoleQuery

/-- The settings of a catalog. -/
structure Settings where
  cacheEnabled : Bool
  /-- The time to live of results, in seconds, where an entity gives none. -/
  ttlSeconds : Nat
  defaultPageSize : UInt32
  maxPageSize : UInt32
  deriving DecidableEq, Repr, Inhabited

namespace Settings

/-- The settings of a configuration that gives none. -/
def default : Settings := ⟨false, 5, 100, 100000⟩

end Settings

/-- Entities, grants and settings. -/
structure Catalog where
  settings : Settings
  entities : List Entity
  /-- The entity of each lower-case type name. -/
  typeNames : List (String × String)
  permissions : PermissionTable
  deriving Repr

namespace Catalog

/-- A catalog without entities. -/
def empty (settings : Settings) : Catalog := ⟨settings, [], [], .empty⟩

/-- Add or replace an entity among others. -/
def putEntity (e : Entity) : List Entity → List Entity
  | [] => [e]
  | other :: rest => if other.name = e.name then e :: rest else other :: putEntity e rest

/-- Bind a type name, in place of an earlier binding. -/
def putTypeName (type entity : String) : List (String × String) → List (String × String)
  | [] => [(type, entity)]
  | (t, n) :: rest =>
    if t = type then (type, entity) :: rest else (t, n) :: putTypeName type entity rest

/-- Add an entity; one of the same name is replaced. -/
def addEntity (c : Catalog) (e : Entity) : Catalog :=
  { c with
    entities := putEntity e c.entities
    typeNames := putTypeName (Text.lowercase e.singular) e.name c.typeNames }

/-- Replace the grants, every role inheriting from the anonymous one. -/
def withPermissions (c : Catalog) (t : PermissionTable) : Catalog :=
  { c with permissions := t.resolve }

def entity? (c : Catalog) (name : String) : Option Entity := c.entities.find? (·.name = name)

/-- The entity of a type: the entity of that name, or else the one
whose items are called so. -/
def entityForType? (c : Catalog) (type : String) : Option Entity :=
  c.entity? type <|> (c.typeNames.lookup (Text.lowercase type)).bind c.entity?

/-- The entity reached through a member: the target of a relationship, the entity of the
nested type, or the entity of the given hint. -/
def nestedEntity? (c : Catalog) (e : Entity) (field : String) (hint : Option String := none) :
    Option Entity :=
  match e.relationship? field with
  | some r => c.entity? r.target
  | none =>
    ((e.field? field).bind (·.kind.type?)).bind c.entityForType? <|> hint.bind c.entityForType?

/-- The grant that a role uses for an operation on an entity. -/
def grant? (c : Catalog) (e : Entity) (role : String) (op : Operation) : Option Permission :=
  c.permissions.lookup e.name role op

/-- How long results about an entity are kept, in milliseconds; absent when they are not. -/
def cacheTtl? (c : Catalog) (e : Entity) : Option Nat :=
  if c.settings.cacheEnabled then
    e.cache.bind fun policy =>
      if policy.enabled && policy.ttl != 0 then some policy.ttl else none
  else none

@[simp] theorem entity?_addEntity_self (c : Catalog) (e : Entity) :
    (c.addEntity e).entity? e.name = some e := by
  suffices h : ∀ es, (putEntity e es).find? (·.name = e.name) = some e from h c.entities
  intro es
  induction es with
  | nil => simp [putEntity]
  | cons other rest ih => by_cases h : other.name = e.name <;> simp [putEntity, h, ih]

theorem entity?_addEntity_of_ne (c : Catalog) (e : Entity) {name : String} (hne : name ≠ e.name) :
    (c.addEntity e).entity? name = c.entity? name := by
  suffices h : ∀ es, (putEntity e es).find? (·.name = name) = es.find? (·.name = name) from
    h c.entities
  intro es
  induction es with
  | nil => simp [putEntity, Ne.symm hne]
  | cons other rest ih =>
    by_cases h : other.name = e.name
    · simp [putEntity, h, Ne.symm hne]
    · simp [putEntity, h, List.find?_cons, ih]

end Catalog

end RoleQuery
