import RoleQuery.Catalog.Config
import RoleQuery.Filter.Parser

/-!
# Building the catalog

A catalog is built from a configuration in three steps: the entities, one by one in the
order of their names; the relationships, whose targets must exist and whose columns
must be paired; and the grants. The first fault stops the building, and says where it
was found and what it is.
-/
namespace RoleQuery

/-- What is wrong with the definition of an entity. -/
inductive EntityFault where
  | columnMappedTwice (column : String)
  | typeMissing (field : String)
  | keyMissing
  deriving DecidableEq, Repr

def EntityFault.message : EntityFault → String
  | .columnMappedTwice column => s!"Backing name '{column}' is mapped more than once"
  | .typeMissing field => s!"Field '{field}' needs a 'type' for its nested elements"
  | .keyMissing => "Entity has no primary key field"

/-- What is wrong with a grant. -/
inductive GrantFault where
  | unknownAction (action : String)
  | unknownField (field : String)
  | policy (fault : InputFault)
  deriving Repr

def GrantFault.message : GrantFault → String
  | .unknownAction action => s!"Unknown action '{action}'"
  | .unknownField field => s!"Permission references unknown field '{field}'"
  | .policy fault => s!"Invalid database policy: {(RequestError.input fault).message}"

/-- What is wrong with a configuration. -/
inductive CatalogFault where
  | entity (name : String) (fault : EntityFault)
  | unknownTarget (field entity target : String)
  | unpairedColumns (field entity : String)
  | grant (action role entity : String) (fault : GrantFault)
  deriving Repr

namespace CatalogFault

/-- Where the fault was found. -/
def context : CatalogFault → String
  | .entity name _ => s!"Invalid definition of entity '{name}'"
  | .unknownTarget field owner target =>
    s!"Relationship '{field}' of entity '{owner}' targets unknown entity '{target}'"
  | .unpairedColumns field owner =>
    s!"Relationship '{field}' of entity '{owner}' must pair source and target fields one to one"
  | .grant action role owner _ =>
    s!"Invalid '{action}' permission of role '{role}' on entity '{owner}'"

/-- Where the fault was found, and what it is. -/
def message (fault : CatalogFault) : String :=
  match fault with
  | .entity _ cause => s!"{fault.context}: {cause.message}"
  | .grant _ _ _ cause => s!"{fault.context}: {cause.message}"
  | _ => fault.context

end CatalogFault

namespace Catalog

/-- A field; nested values need a type. -/
def buildField (config : FieldConfig) : Except EntityFault Field :=
  let field (kind : FieldKind) : Field :=
    ⟨config.name, config.column.getD config.name, config.isKey, kind⟩
  match config.kind, config.type with
  | .scalar, _ => .ok (field .scalar)
  | .object, some type => .ok (field (.object type))
  | .list, some type => .ok (field (.list type))
  | _, none => .error (.typeMissing config.name)

/-- The fields that follow those whose columns are already mapped; no
column is mapped twice. -/
def buildFields (mapped : List String) : List FieldConfig → Except EntityFault (List Field)
  | [] => .ok []
  | config :: rest => do
    let column := config.column.getD config.name
    if mapped.contains column then throw (.columnMappedTwice column)
    let field ← buildField config
    let fields ← buildFields (column :: mapped) rest
    return field :: fields

def buildRelationship (field : String) (config : RelationshipConfig) : Relationship :=
  ⟨field, config.target, config.cardinality, config.sourceColumns, config.targetColumns⟩

/-- An entity; it needs a primary key. -/
def buildEntity (settings : Settings) (name : String) (config : EntityConfig) :
    Except EntityFault Entity := do
  let fields ← buildFields [] config.fields
  if !fields.any (·.isKey) then throw .keyMissing
  let (singular, plural) := config.displayNames.getD (name, name ++ "s")
  return {
    name, singular, plural, fields
    object := config.object
    backend := config.backend
    cache := config.cache.map fun cache =>
      ⟨cache.enabled, 1000 * cache.ttlSeconds.getD settings.ttlSeconds⟩
    relationships := config.relationships.map fun r => buildRelationship r.1 r.2 }

/-- Add entities in order. -/
def buildEntities (catalog : Catalog) : List (String × EntityConfig) → Except CatalogFault Catalog
  | [] => .ok catalog
  | (name, config) :: rest => do
    let e ← (buildEntity catalog.settings name config).mapError (.entity name)
    buildEntities (catalog.addEntity e) rest

/-- Whether a relationship leads to an entity over at least one pair of columns. -/
def checkRelationship (catalog : Catalog) (e : Entity) (r : Relationship) :
    Except CatalogFault Unit :=
  if (catalog.entity? r.target).isNone then .error (.unknownTarget r.field e.name r.target)
  else if r.sourceColumns.length ≠ r.targetColumns.length ∨ r.sourceColumns.isEmpty then
    .error (.unpairedColumns r.field e.name)
  else .ok ()

/-- The first fault of the relationships, in the order of the entities. -/
def checkRelationships (catalog : Catalog) : Except CatalogFault Unit :=
  catalog.entities.forM fun e => e.relationships.forM (checkRelationship catalog e)

/-- The operations of an action. -/
def operationsOf (action : String) : Except GrantFault (List Operation) :=
  if action = "*" then .ok Operation.all
  else match Operation.parse? action with
    | some op => .ok [op]
    | none => .error (.unknownAction action)

/-- The included and excluded fields of an action, all of which must exist. -/
def scopeOf (e : Entity) : Option FieldsConfig → Except GrantFault (FieldScope × NameSet)
  | none => .ok (.all, .empty)
  | some fields =>
    match (fields.excluded ++ fields.included.getD []).find?
        fun field => field != "*" && !e.hasMember field with
    | some field => .error (.unknownField field)
    | none =>
      let included : FieldScope := match fields.included with
        | none => .all
        | some names => if names.contains "*" then .all else .only (.ofList names)
      .ok (included, .ofList fields.excluded)

def policyOf (catalog : Catalog) (e : Entity) : Option Json → Except GrantFault (Option Filter)
  | none => .ok none
  | some input => ((Filter.ofJson catalog e input).mapError .policy).map some

def buildGrants (catalog : Catalog) (e : Entity) (role : String) (action : ActionConfig)
    (table : PermissionTable) : Except GrantFault PermissionTable := do
  let operations ← operationsOf action.action
  let (included, excluded) ← scopeOf e action.fields
  let policy ← policyOf catalog e action.policy
  return operations.foldl
    (fun table op => table.grant e.name role op ⟨included, excluded, policy⟩) table

/-- Grant the actions of all roles on one entity. -/
def buildEntityGrants (catalog : Catalog) (e : Entity) (permissions : List PermissionConfig)
    (table : PermissionTable) : Except CatalogFault PermissionTable :=
  permissions.foldlM (fun table permission =>
    permission.actions.foldlM (fun table action =>
      (buildGrants catalog e permission.role action table).mapError
        (.grant action.action permission.role e.name)) table) table

/-- Grant the actions on all entities. -/
def buildPermissions (catalog : Catalog) (entities : List (String × EntityConfig)) :
    Except CatalogFault PermissionTable :=
  entities.foldlM (fun table (name, config) =>
    match catalog.entity? name with
    | some e => buildEntityGrants catalog e config.permissions table
    | none => .ok table) .empty

/-- The catalog of a configuration. -/
def ofConfig (config : Config) : Except CatalogFault Catalog := do
  let catalog ← buildEntities (.empty config.settings) config.entities
  checkRelationships catalog
  let table ← buildPermissions catalog config.entities
  return catalog.withPermissions table

end Catalog

/-- Why a configuration file gives no catalog. -/
inductive LoadFault where
  | unreadable
  | invalid
  | catalog (fault : CatalogFault)
  deriving Repr

/-- What is reported of the fault, for the file at `path`. -/
def LoadFault.context (path : String) : LoadFault → String
  | .unreadable => s!"Failed to read configuration file {path}"
  | .invalid => s!"Invalid configuration file {path}"
  | .catalog fault => fault.context

/-- The catalog of a configuration file, given by its contents if it can be read. -/
def Catalog.ofFile (contents : Option String) : Except LoadFault Catalog :=
  match contents with
  | none => .error .unreadable
  | some text =>
    match Config.ofText? text with
    | none => .error .invalid
    | some config => (Catalog.ofConfig config).mapError .catalog

end RoleQuery
