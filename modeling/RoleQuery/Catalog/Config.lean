import RoleQuery.Catalog.Basic
import RoleQuery.Json.Record

/-!
# The configuration document

A configuration is a JSON document with settings and a description of every entity: its
source, its fields, its relationships, and the permissions of the roles. It says what the
catalog should be; the checks are made when the catalog is built.
-/
namespace RoleQuery

open Json (Raw)

/-- Insert an entry into entries sorted by name; an entry of the same name is replaced. -/
def insertByName {α : Type} (name : String) (x : α) : List (String × α) → List (String × α)
  | [] => [(name, x)]
  | (other, y) :: rest =>
    if name = other then (name, x) :: rest
    else if name < other then (name, x) :: (other, y) :: rest
    else (other, y) :: insertByName name x rest

/-- Entries sorted by name; of several with one name the last counts. -/
def sortByName {α : Type} (entries : List (String × α)) : List (String × α) :=
  entries.foldl (fun sorted entry => insertByName entry.1 entry.2 sorted) []

/-- The kind of a field, without the type of its nested values. -/
inductive KindConfig where
  | scalar
  | object
  | list
  deriving DecidableEq, Repr

/-- The description of a field. -/
structure FieldConfig where
  name : String
  column : Option String
  isKey : Bool
  kind : KindConfig
  type : Option String
  deriving Repr

/-- The description of a relationship. -/
structure RelationshipConfig where
  target : String
  cardinality : Cardinality
  sourceColumns : List String
  targetColumns : List String
  deriving Repr

/-- The fields that an action extends to. -/
structure FieldsConfig where
  /-- Absent for every field; `*` stands for every field. -/
  included : Option (List String)
  excluded : List String
  deriving Repr

/-- An action that a role is allowed. -/
structure ActionConfig where
  /-- The name of an operation, or `*` for all of them. -/
  action : String
  fields : Option FieldsConfig
  /-- The filter that rows must satisfy, in the form that clients write. -/
  policy : Option Json
  deriving Repr

/-- What a role is allowed to do. -/
structure PermissionConfig where
  role : String
  actions : List ActionConfig
  deriving Repr

/-- The caching of results about an entity. -/
structure CacheConfig where
  enabled : Bool
  ttlSeconds : Option Nat
  deriving Repr

/-- The description of an entity. -/
structure EntityConfig where
  object : String
  backend : Backend
  /-- The display names of one item and of several. -/
  displayNames : Option (String × String)
  fields : List FieldConfig
  relationships : List (String × RelationshipConfig)
  permissions : List PermissionConfig
  cache : Option CacheConfig
  deriving Repr

/-- A configuration; its entities are sorted by name. -/
structure Config where
  settings : Settings
  entities : List (String × EntityConfig)
  deriving Repr

/-- Numbers of thirty-two bits. -/
def readUInt32? (r : Raw) : Option UInt32 := (r.natBelow? UInt32.size).map UInt32.ofNat

/-- Numbers of sixty-four bits. -/
def readUInt64? (r : Raw) : Option Nat := r.natBelow? UInt64.size

def readNames? : Raw → Option (List String) := Raw.listOf? Raw.string?

namespace Settings

/-- The switch of the cache and the time to live. -/
def readCache? (r : Raw) : Option (Bool × Nat) := do
  match ← r.record? ["enabled", "ttlSeconds"] with
  | [enabled, ttl] =>
    return (← Raw.withDefault? Raw.bool? default.cacheEnabled enabled,
      ← Raw.withDefault? readUInt64? default.ttlSeconds ttl)
  | _ => none

/-- The default and the greatest page size. -/
def readPaging? (r : Raw) : Option (UInt32 × UInt32) := do
  match ← r.record? ["defaultPageSize", "maxPageSize"] with
  | [size, max] =>
    return (← Raw.withDefault? readUInt32? default.defaultPageSize size,
      ← Raw.withDefault? readUInt32? default.maxPageSize max)
  | _ => none

def ofRaw? (r : Raw) : Option Settings := do
  match ← r.record? ["cache", "pagination"] with
  | [cache, paging] =>
    let (enabled, ttl) ←
      Raw.withDefault? readCache? (default.cacheEnabled, default.ttlSeconds) cache
    let (size, max) ←
      Raw.withDefault? readPaging? (default.defaultPageSize, default.maxPageSize) paging
    return ⟨enabled, ttl, size, max⟩
  | _ => none

end Settings

namespace Config

def readBackend? : Raw → Option Backend :=
  Raw.choice? [("relational", .relational), ("hierarchical", .hierarchical)]

def readCardinality? : Raw → Option Cardinality := Raw.choice? [("one", .one), ("many", .many)]

def readKind? : Raw → Option KindConfig :=
  Raw.choice? [("scalar", .scalar), ("object", .object), ("array", .list)]

def readSource? (r : Raw) : Option (String × Backend) := do
  match ← r.record? ["object", "type"] with
  | [object, backend] =>
    return (← Raw.required? Raw.string? object, ← Raw.required? readBackend? backend)
  | _ => none

def readDisplayNames? (r : Raw) : Option (String × String) := do
  match ← r.record? ["singular", "plural"] with
  | [singular, plural] =>
    return (← Raw.required? Raw.string? singular, ← Raw.required? Raw.string? plural)
  | _ => none

def readField? (r : Raw) : Option FieldConfig := do
  match ← r.record? ["name", "backingName", "primaryKey", "kind", "type"] with
  | [name, column, isKey, kind, type] =>
    return {
      name := ← Raw.required? Raw.string? name
      column := ← Raw.optional? Raw.string? column
      isKey := ← Raw.withDefault? Raw.bool? false isKey
      kind := ← Raw.withDefault? readKind? .scalar kind
      type := ← Raw.optional? Raw.string? type }
  | _ => none

def readRelationship? (r : Raw) : Option RelationshipConfig := do
  match ← r.record? ["targetEntity", "cardinality", "sourceFields", "targetFields"] with
  | [target, cardinality, source, columns] =>
    return {
      target := ← Raw.required? Raw.string? target
      cardinality := ← Raw.required? readCardinality? cardinality
      sourceColumns := ← Raw.required? readNames? source
      targetColumns := ← Raw.required? readNames? columns }
  | _ => none

def readFields? (r : Raw) : Option FieldsConfig := do
  match ← r.record? ["include", "exclude"] with
  | [included, excluded] =>
    return {
      included := ← Raw.optional? readNames? included
      excluded := ← Raw.withDefault? readNames? [] excluded }
  | _ => none

/-- The filter of a policy, which may be left out. -/
def readPolicy? (r : Raw) : Option (Option Json) := do
  match ← r.record? ["database"] with
  | [database] => Raw.optional? Raw.value? database
  | _ => none

def readAction? (r : Raw) : Option ActionConfig := do
  match ← r.record? ["action", "fields", "policy"] with
  | [action, fields, policy] =>
    return {
      action := ← Raw.required? Raw.string? action
      fields := ← Raw.optional? readFields? fields
      policy := (← Raw.optional? readPolicy? policy).join }
  | _ => none

def readPermission? (r : Raw) : Option PermissionConfig := do
  match ← r.record? ["role", "actions"] with
  | [role, actions] =>
    return {
      role := ← Raw.required? Raw.string? role
      actions := ← Raw.required? (Raw.listOf? readAction?) actions }
  | _ => none

def readCache? (r : Raw) : Option CacheConfig := do
  match ← r.record? ["enabled", "ttlSeconds"] with
  | [enabled, ttl] =>
    return {
      enabled := ← Raw.withDefault? Raw.bool? false enabled
      ttlSeconds := ← Raw.optional? readUInt64? ttl }
  | _ => none

def readEntity? (r : Raw) : Option EntityConfig := do
  match ← r.record? ["source", "graphql", "fields", "relationships", "permissions", "cache"] with
  | [source, displayNames, fields, relationships, permissions, cache] =>
    let (object, backend) ← Raw.required? readSource? source
    return {
      object, backend
      displayNames := ← Raw.optional? readDisplayNames? displayNames
      fields := ← Raw.required? (Raw.listOf? readField?) fields
      relationships :=
        sortByName (← Raw.withDefault? (Raw.mapOf? readRelationship?) [] relationships)
      permissions := ← Raw.withDefault? (Raw.listOf? readPermission?) [] permissions
      cache := ← Raw.optional? readCache? cache }
  | _ => none

/-- The configuration of a document. -/
def ofRaw? (r : Raw) : Option Config := do
  match ← r.record? ["runtime", "entities"] with
  | [settings, entities] =>
    return {
      settings := ← Raw.withDefault? Settings.ofRaw? .default settings
      entities := sortByName (← Raw.required? (Raw.mapOf? readEntity?) entities) }
  | _ => none

/-- The configuration that a text writes. -/
def ofText? (text : String) : Option Config := (Raw.ofText? text).bind ofRaw?

end Config

end RoleQuery
