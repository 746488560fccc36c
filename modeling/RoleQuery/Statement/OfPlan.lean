import RoleQuery.DocumentQuery.Basic
import RoleQuery.Sql.Select
import RoleQuery.Sql.Write

/-!
# Statements of plans

A plan becomes the statement of its backend. Writes to a document source are point
operations, which need none.
-/
namespace RoleQuery

def QueryPlan.statement (plan : QueryPlan) : Except RequestError Statement :=
  match plan.backend with
  | .relational => (Sql.Select.ofPlan plan).map fun s => .ofPieces s.pieces
  | .hierarchical => (DocumentQuery.Select.ofPlan plan).map fun s => .ofPieces s.pieces

/-- The statement of a write, where the backend needs one. -/
def WritePlan.statement? (plan : WritePlan) : Except RequestError (Option Statement) :=
  match plan.backend with
  | .relational => (Sql.Write.ofPlan plan).map fun w => some (.ofPieces w.pieces)
  | .hierarchical => .ok none

end RoleQuery
