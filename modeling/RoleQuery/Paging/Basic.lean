import RoleQuery.Catalog.Basic
import RoleQuery.Json.Record
import RoleQuery.Paging.Cursor

/-!
# Pages

The items of an entity are read page by page in a total order: the requested fields, then the
primary key. A page of a table is fetched with one row too many, which tells whether another
page follows and is then dropped; a document source says so itself by giving a token.
-/
namespace RoleQuery

/-- A requested ordering field. -/
structure OrderBy where
  field : String
  direction : SortDirection
  deriving DecidableEq, Repr

/-- The pagination that a client asks for. -/
structure PageRequest where
  orderBy : List OrderBy := []
  first : Option Int64 := none
  after : Option String := none
  deriving Repr

namespace PageRequest

open Json (Raw)

/-- A direction: its name, alone or as a member that is `null` or, where `nested`
allows it, an empty object. -/
def readDirection? (nested : Bool) (r : Raw) : Option SortDirection :=
  let names : List (String × SortDirection) := [("asc", .asc), ("desc", .desc)]
  match r with
  | .object [(name, .object [])] => if nested then names.lookup name else none
  | r => Raw.choice? names r

/-- An ordering field; it is ascending unless it says otherwise. -/
def readOrderBy? (nested : Bool) (r : Raw) : Option OrderBy := do
  match ← r.record? ["field", "direction"] with
  | [field, direction] =>
    return ⟨← Raw.required? Raw.string? field,
      ← Raw.withDefault? (readDirection? nested) .asc direction⟩
  | _ => none

/-- A pagination of its own, or the members of a pagination nested in a request. -/
def ofRaw? (nested : Bool) (r : Raw) : Option PageRequest := do
  match ← r.record? ["orderBy", "first", "after"] with
  | [orderBy, first, after] =>
    return {
      orderBy := ← Raw.withDefault? (Raw.listOf? (readOrderBy? nested)) [] orderBy
      first := ← Raw.optional? Raw.int64? first
      after := ← Raw.optional? Raw.string? after }
  | _ => none

end PageRequest

/-- A key of the ordering. -/
structure OrderKey where
  field : String
  column : String
  direction : SortDirection
  /-- The column may hold nulls; those of the primary key never do. -/
  nullable : Bool
  deriving DecidableEq, Repr

/-- Where a page starts. -/
inductive Continuation where
  | start
  /-- After the row with these values of the ordering. -/
  | after (values : List Value)
  /-- Where the token of the backend says. -/
  | token (token : String)
  deriving DecidableEq, Repr

/-- A resolved pagination. -/
structure Pagination where
  backend : Backend
  order : List OrderKey
  pageSize : UInt32
  continuation : Continuation
  deriving DecidableEq, Repr

/-- Rows that a page is made of, or a position after them. -/
structure Page where
  items : List Json
  endCursor : Option String
  hasNextPage : Bool
  deriving Repr

namespace Pagination

/-- How many rows are fetched: one more than the page holds where only that shows whether
another page follows. -/
def fetchLimit (p : Pagination) : UInt32 :=
  match p.backend with
  | .relational => if p.pageSize = 0xFFFFFFFF then p.pageSize else p.pageSize + 1
  | .hierarchical => p.pageSize

/-- The direction of all keys, if there is one. -/
def uniformDirection? (p : Pagination) : Option SortDirection :=
  match p.order with
  | [] => none
  | key :: rest =>
    if rest.all (·.direction = key.direction) then some key.direction else none

/-- The page size: the default, the greatest for `-1`, or what is asked
for within the limits. -/
def resolvePageSize (settings : Settings) : Option Int64 → Except RequestError UInt32
  | none => .ok (min settings.defaultPageSize settings.maxPageSize)
  | some n =>
    if n.toInt = -1 then .ok settings.maxPageSize
    else if 1 ≤ n.toInt ∧ n.toInt ≤ settings.maxPageSize.toNat then
      .ok (UInt32.ofNat n.toInt.toNat)
    else .error (.pageSize n settings.maxPageSize)

/-- The keys of the requested fields that follow the keys there are; a field counts once. -/
def requestedKeys (e : Entity) (keys : List OrderKey) :
    List OrderBy → Except RequestError (List OrderKey)
  | [] => .ok keys
  | requested :: rest =>
    match e.field? requested.field with
    | none => .error (.input (.unordered e.name requested.field))
    | some f =>
      if f.kind ≠ .scalar then .error (.input (.unordered e.name requested.field))
      else if keys.any (·.field = f.name) then requestedKeys e keys rest
      else requestedKeys e (keys ++ [⟨f.name, f.column, requested.direction, !f.isKey⟩]) rest

/-- The keys, followed by the fields of the primary key that are not among them. -/
def withPrimaryKey (keys : List OrderKey) : List Field → List OrderKey
  | [] => keys
  | f :: rest =>
    withPrimaryKey
      (if keys.any (·.field = f.name) then keys else keys ++ [⟨f.name, f.column, .asc, false⟩]) rest

def resolveOrder (e : Entity) (orderBy : List OrderBy) : Except RequestError (List OrderKey) :=
  (requestedKeys e [] orderBy).map fun keys => withPrimaryKey keys e.key

/-- The values of a position, field by field those of the ordering. -/
def matchFields : List CursorField → List OrderKey → Except RequestError (List Value)
  | f :: fields, key :: keys =>
    if f.field = key.field ∧ f.direction = key.direction then
      (matchFields fields keys).map (f.value :: ·)
    else .error (.cursor (.orderingField f.field key.field))
  | _, _ => .ok []

/-- The values of a position, which counts only for the ordering it was issued under. -/
def matchKeyset (fields : List CursorField) (order : List OrderKey) :
    Except RequestError (List Value) :=
  if fields.length ≠ order.length then .error (.cursor .ordering) else matchFields fields order

/-- Where a page starts, as a cursor says. -/
def resolveContinuation (e : Entity) (order : List OrderKey) :
    Option String → Except RequestError Continuation
  | none => .ok .start
  | some cursor => do
    match ← CursorPayload.decode cursor, e.backend with
    | .keyset fields, .relational => (matchKeyset fields order).map .after
    | .continuation token, .hierarchical => .ok (.token token)
    | _, _ => .error (.cursor (.foreign e.name))

/-- The pagination of a request on an entity. -/
def resolve (settings : Settings) (e : Entity) (request : PageRequest) :
    Except RequestError Pagination := do
  let pageSize ← resolvePageSize settings request.first
  let order ← resolveOrder e request.orderBy
  let continuation ← resolveContinuation e order request.after
  return ⟨e.backend, order, pageSize, continuation⟩

/-- The position of a row in the ordering; a missing column counts as null. -/
def positionOf (row : Json) : List OrderKey → Except RequestError (List CursorField)
  | [] => .ok []
  | key :: rest =>
    match Value.ofJson? ((row.get? key.column).getD .null) with
    | none => .error (.execution (.orderingColumn key.column))
    | some value => (positionOf row rest).map (⟨key.field, value, key.direction⟩ :: ·)

end Pagination

namespace Page

/-- The page of the fetched rows, and of what the backend gave to continue by. -/
def assemble (p : Pagination) (rows : List Json) (continuation : Option String) :
    Except RequestError Page :=
  let items := rows.take p.pageSize.toNat
  match p.backend with
  | .relational =>
    match items.getLast? with
    | some last =>
      if p.pageSize.toNat < rows.length then
        (Pagination.positionOf last p.order).map fun fields =>
          ⟨items, some (CursorPayload.keyset fields).encode, true⟩
      else .ok ⟨items, none, false⟩
    | none => .ok ⟨items, none, decide (p.pageSize.toNat < rows.length)⟩
  | .hierarchical =>
    let cursor := continuation.map fun token => (CursorPayload.continuation token).encode
    .ok ⟨items, cursor, cursor.isSome⟩

end Page

end RoleQuery
