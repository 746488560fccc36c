import RoleQuery.Access.Authorization
import RoleQuery.Filter.Parser
import RoleQuery.Filter.Validation
import RoleQuery.Predicate.OfFilter
import RoleQuery.Statement.OfPlan
import RoleQuery.Tables.Run

/-!
# Reads

A read request names an entity, a filter, the fields to answer with, and a page. It is
compiled in one pass: the filter is read and checked, the request is authorized, the filter
with the policy in it becomes a predicate, the page is resolved, and the statement is written.
Nothing is fetched before all of that has succeeded.
-/
namespace RoleQuery

/-- A request for a page of items. -/
structure ReadRequest where
  entity : String
  /-- The filter, in the form that clients write. -/
  filter : Option Json := none
  /-- The fields to answer with; empty for every field that the role may read. -/
  selection : List Selection := []
  paging : PageRequest := {}
  deriving Repr

namespace ReadRequest

open Json (Raw)

/-- Whether a member of a request is well formed. The members of the page stand among the
others and are found by the values of all of them, so that every member must have a value,
also one that nobody asks for. Only the selection is read as it stands, and may have unusable
parts that it ignores. -/
def isMember (m : String × Raw) : Bool := m.1 == "selection" || m.2.value?.isSome

def ofRaw? : Raw → Option ReadRequest
  | .object ms => do
    guard (ms.all isMember)
    match ← Raw.record? ["entity", "filter", "selection"] (.object ms) with
    | [entity, filter, selection] =>
      return {
        entity := ← Raw.required? Raw.string? entity
        filter := ← Raw.optional? Raw.value? filter
        selection := ← Raw.withDefault? Selection.listOfRaw? [] selection
        paging := ← PageRequest.ofRaw? true (.object ms) }
    | _ => none
  | _ => none

def ofText? (text : String) : Option ReadRequest := (Raw.ofText? text).bind ofRaw?

end ReadRequest

/-- A compiled read: the plan and its statement. -/
structure CompiledRead where
  plan : QueryPlan
  statement : Statement
  deriving Repr

namespace Catalog

/-- The entity of a name, or the error that there is none. -/
def requireEntity (catalog : Catalog) (name : String) : Except RequestError Entity :=
  match catalog.entity? name with
  | some e => .ok e
  | none => .error (.unknownEntity name)

/-- The filter of a request, read and checked. -/
def clientFilter (catalog : Catalog) (e : Entity) (input : Json) : Except RequestError Filter :=
  match Filter.ofJson catalog e input with
  | .error fault => .error (.input fault)
  | .ok f =>
    match f.validate catalog e with
    | .error fault => .error (.input fault)
    | .ok () => .ok f

/-- The plan of a read. -/
def planRead (catalog : Catalog) (request : ReadRequest) (caller : Caller) :
    Except RequestError QueryPlan := do
  let e ← catalog.requireEntity request.entity
  let filter ← request.filter.mapM (catalog.clientFilter e)
  let authorized ← authorizeRead catalog e filter request.selection
    (request.paging.orderBy.map (·.field)) caller
  let (predicate, nextAlias) ← match authorized.filter with
    | none => pure (none, 1)
    | some f =>
      let (predicate, nextAlias) := Predicate.ofFilter catalog e f 1
      predicate.map fun p => (some p, nextAlias)
  let pagination ← Pagination.resolve catalog.settings e request.paging
  return {
    entity := e.name
    object := e.object
    backend := e.backend
    predicate
    mask := authorized.mask
    pagination
    nextAlias }

/-- Compile a read. -/
def compileRead (catalog : Catalog) (request : ReadRequest) (caller : Caller) :
    Except RequestError CompiledRead := do
  let plan ← catalog.planRead request caller
  return ⟨plan, ← plan.statement⟩

end Catalog

namespace CompiledRead

def body (mask : FieldMask) (page : Page) : Json :=
  .object
    [("items", .list (page.items.map mask.shape)),
      ("endCursor", Json.ofText? page.endCursor),
      ("hasNextPage", .bool page.hasNextPage)]

/-- Fetch a page and answer with it. -/
def answer (t : Tables) (q : CompiledRead) : Except RequestError Json := do
  let fetched ← (t.query q.plan).mapError .execution
  let page ← Page.assemble q.plan.pagination fetched.rows fetched.continuation
  return body q.plan.mask page

/-- The text of the answer with a page. -/
def fetch (t : Tables) (q : CompiledRead) : Except RequestError String :=
  (q.answer t).map Json.compact

end CompiledRead

end RoleQuery
