import RoleQuery.Sql.Condition
import RoleQuery.Statement.Plan

/-!
# Writes in SQL

A write that must satisfy a policy does so in one statement: an update or delete asks it
of the row that the key identifies, and an insert selects the new row from a derived
table only if the policy holds of it. Columns that the policy reads and the insert does
not write are null there.
-/
namespace RoleQuery.Sql

/-- A write. -/
inductive Write where
  | insert (object : String) (values : List (String × Value))
  /-- Insert the values if a condition holds of the row made of them and of nulls. -/
  | insertIf (object : String) (values : List (String × Value)) (nulls : List String)
      (condition : Condition)
  | update (object : String) (values key : List (String × Value)) (condition : Option Condition)
  | delete (object : String) (key : List (String × Value)) (condition : Option Condition)
  deriving Repr

/-- The condition of a policy; a statement that writes has nowhere to put joins. -/
def ofPolicy (policy : Predicate) : Except RequestError Condition :=
  if policy.joins.isEmpty then ofPredicate policy else .error (.input .joinedWritePolicy)

namespace Write

/-- The columns that a policy reads and the values do not give. -/
def nullColumns (policy : Predicate) (values : List (String × Value)) : List String :=
  policy.rootColumns.filter fun column => !values.any (·.1 = column)

/-- The condition of a policy, if there is one. A write that neither a key nor a policy
restricts is refused. -/
def restriction (plan : WritePlan) : Except RequestError (Option Condition) := do
  let condition ← plan.policy.mapM ofPolicy
  if plan.key.isEmpty && condition.isNone then
    throw (.input (.keyMissing plan.operation plan.entity))
  return condition

def ofPlan (plan : WritePlan) : Except RequestError Write :=
  match plan.operation with
  | .create =>
    match plan.policy with
    | none => .ok (.insert plan.object plan.values)
    | some policy =>
      (ofPolicy policy).map
        (.insertIf plan.object plan.values (nullColumns policy plan.values))
  | .update => (restriction plan).map (.update plan.object plan.values plan.key)
  | .delete => (restriction plan).map (.delete plan.object plan.key)
  | .read => .error (.input .readIsNoWrite)

def columnTexts (values : List (String × Value)) : List String := values.map fun v => quote v.1

/-- The text of an assignment or of a test for equality. -/
def equalPieces (column : String) (v : Value) : List Piece := [.text (column ++ " = "), .operand v]

def restrictionPieces (key : List (String × Value)) (condition : Option Condition) : List Piece :=
  Piece.intercalate " AND "
    (key.map (fun (c, v) => equalPieces (Column.mk rootName c).text v) ++
      (condition.map fun c => c.pieces dialect).toList)

def pieces : Write → List Piece
  | .insert object values =>
    .text ("INSERT INTO " ++ quoteObject object ++ " (" ++
        ", ".intercalate (columnTexts values) ++ ") VALUES (") ::
      Piece.intercalate ", " (values.map fun v => [.operand v.2]) ++ [.text ")"]
  | .insertIf object values nulls condition =>
    let columns := columnTexts values
    .text ("INSERT INTO " ++ quoteObject object ++ " (" ++ ", ".intercalate columns ++
        ") SELECT " ++ ", ".intercalate (columns.map fun c => rootName ++ "." ++ c) ++
        " FROM (SELECT ") ::
      Piece.intercalate ", "
        (values.map (fun (c, v) => [.operand v, .text (" AS " ++ quote c)]) ++
          nulls.map fun c => [.text ("NULL AS " ++ quote c)]) ++
      .text (") AS " ++ rootName ++ " WHERE ") :: condition.pieces dialect
  | .update object values key condition =>
    .text ("UPDATE " ++ quoteObject object ++ " AS " ++ rootName ++ " SET ") ::
      Piece.intercalate ", " (values.map fun (c, v) => equalPieces (quote c) v) ++
      .text " WHERE " :: restrictionPieces key condition
  | .delete object key condition =>
    .text ("DELETE FROM " ++ quoteObject object ++ " AS " ++ rootName ++ " WHERE ") ::
      restrictionPieces key condition

end Write

end RoleQuery.Sql
