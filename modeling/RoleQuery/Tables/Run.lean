import RoleQuery.Statement.Plan
import RoleQuery.Tables.Basic
import RoleQuery.Tables.Order

/-!
# Running plans on tables

A read filters the rows of a table, orders them, skips those up to the start of the page,
and takes as many as are fetched; of each row it takes the columns and related rows that the
mask names. A write adds a row, or changes or removes the first row with the given key,
provided that the policy holds of the new row, or of the old one. A write that is refused
leaves the tables as they were.
-/
namespace RoleQuery

/-- The rows of a page, and what the backend gives to continue by. -/
structure Fetched where
  rows : List Json
  continuation : Option String
  deriving Repr

/-- What became of a write. -/
inductive WriteOutcome where
  /-- The written row, or the removed one. -/
  | applied (row : Json)
  /-- The row did not satisfy the policy. -/
  | rejected
  /-- No row has the key. -/
  | notFound
  deriving Repr

namespace Tables

/-- The columns of a row; a missing one is null. -/
def project (columns : List String) (row : Json) : Members :=
  Members.ofList (columns.map fun c => (c, (row.get? c).getD .null))

mutual

/-- The related rows that a field shows: the first or null for a relationship to one item, all
of them otherwise. A field that selects nothing of them shows none. -/
def relatedValue? (t : Tables) (row : Json) : MaskedField → Option Json
  | .nested _ _ _ (some r) _ (some object) fields =>
    let documents :=
      (t.related object r.sourceColumns r.targetColumns row).map fun child =>
        .object (addRelated t child (project (FieldMask.columnsOf fields) child) fields)
    match r.cardinality with
    | .many => some (.list documents)
    | .one => some (documents.headD .null)
  | _ => none
termination_by structural field => field

/-- Add the related rows that fields show to the columns of a row. -/
def addRelated (t : Tables) (row : Json) (columns : Members) : List MaskedField → Members
  | [] => columns
  | field :: rest =>
    addRelated t row
      (match relatedValue? t row field with
        | some value => columns.insert field.column value
        | none => columns) rest
termination_by structural fields => fields

end

/-- What a read takes of a row. -/
def fetchRow (t : Tables) (plan : QueryPlan) (row : Json) : Json :=
  .object (addRelated t row
    (project (plan.mask.columns ++ plan.pagination.order.map (·.column)) row) plan.mask.fields)

/-- The rows that satisfy the predicate of a read, in order. -/
def matching (t : Tables) (plan : QueryPlan) : List Json :=
  sortRows plan.pagination.order ((t.rows plan.object).filter fun row =>
    match plan.predicate with
    | some p => p.holds t.resolver row
    | none => true)

/-- The number that a token writes, in sixty-four bits. -/
def tokenOffset? (token : String) : Option Nat :=
  let digits := match token.toList with
    | '+' :: rest => rest
    | cs => cs
  if digits.isEmpty || !digits.all Char.isDigit then none
  else
    let n := digits.foldl (fun n c => 10 * n + (c.toNat - 48)) 0
    if n < UInt64.size then some n else none

/-- How many rows come before the page. -/
def offset (rows : List Json) (order : List OrderKey) :
    Continuation → Except ExecutionFault Nat
  | .start => .ok 0
  | .after values =>
    .ok (rows.takeWhile fun row => compareToPosition row values order != .gt).length
  | .token token =>
    match tokenOffset? token with
    | some n => .ok n
    | none => .error (.continuationToken token)

/-- Run a read. A document source gives the offset of the next page when there is one. -/
def query (t : Tables) (plan : QueryPlan) : Except ExecutionFault Fetched := do
  let rows := t.matching plan
  let start := min (← offset rows plan.pagination.order plan.pagination.continuation) rows.length
  let stop := min (start + plan.pagination.fetchLimit.toNat) rows.length
  return {
    rows := ((rows.take stop).drop start).map (t.fetchRow plan)
    continuation :=
      if plan.backend = .hierarchical ∧ stop < rows.length then some (toString stop) else none }

/-- Whether a row has the key. -/
def hasKey (key : List (String × Value)) (row : Json) : Bool :=
  key.all fun (column, value) =>
    match (row.get? column).bind Value.ofJson? with
    | some found => found.same value
    | none => false

/-- Whether the policy of a write holds of a row. -/
def admits (t : Tables) (plan : WritePlan) (row : Json) : Bool :=
  match plan.policy with
  | some p => p.holds t.resolver row
  | none => true

/-- The row that a create adds. -/
def newRow (values : List (String × Value)) : Json :=
  .object (Members.ofList (values.map fun (column, v) => (column, v.toJson)))

/-- A row with values written to it; only documents have columns. -/
def writeValues (values : List (String × Value)) : Json → Json
  | .object ms =>
    .object (values.foldl (fun ms (column, v) => Members.insert ms column v.toJson) ms)
  | row => row

def writeAt (t : Tables) (plan : WritePlan) (index : Nat) (row : Json) : WriteOutcome × Tables :=
  let rows := t.rows plan.object
  if !t.admits plan row then (.rejected, t)
  else if plan.operation = .delete then (.applied row, t.put plan.object (rows.eraseIdx index))
  else
    let row := writeValues plan.values row
    (.applied row, t.put plan.object (rows.set index row))

/-- Run a write. -/
def write (t : Tables) (plan : WritePlan) : Except ExecutionFault (WriteOutcome × Tables) :=
  match plan.operation with
  | .read => .error .readIsNoWrite
  | .create =>
    let row := newRow plan.values
    if t.admits plan row then .ok (.applied row, t.append plan.object [row])
    else .ok (.rejected, t)
  | .update | .delete =>
    let rows := t.rows plan.object
    match rows.findIdx? (hasKey plan.key), rows.find? (hasKey plan.key) with
    | some index, some row => .ok (t.writeAt plan index row)
    | _, _ => .ok (.notFound, t)

end Tables

end RoleQuery
