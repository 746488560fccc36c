import RoleQuery.Value

/-!
# Filter operators

The comparisons a client may ask for, and the operands that each of them takes. A null operand
is never compared, so every operator takes it.
-/
namespace RoleQuery

/-- A comparison of a scalar field with an operand. -/
inductive Operator where
  | eq
  | neq
  | gt
  | gte
  | lt
  | lte
  | contains
  | notContains
  | startsWith
  | endsWith
  | isNull
  deriving DecidableEq, Repr

namespace Operator

/-- The name of the operator in a filter. -/
def name : Operator → String
  | .eq => "eq"
  | .neq => "neq"
  | .gt => "gt"
  | .gte => "gte"
  | .lt => "lt"
  | .lte => "lte"
  | .contains => "contains"
  | .notContains => "notContains"
  | .startsWith => "startsWith"
  | .endsWith => "endsWith"
  | .isNull => "isNull"

/-- Every operator once. -/
def all : List Operator :=
  [.eq, .neq, .gt, .gte, .lt, .lte, .contains, .notContains, .startsWith, .endsWith, .isNull]

/-- The operator of a name. -/
def parse? (s : String) : Option Operator := all.find? (·.name = s)

/-- Operators on texts. -/
def matchesText : Operator → Bool
  | .contains | .notContains | .startsWith | .endsWith => true
  | _ => false

/-- Operators that ask which of two values is greater. -/
def isOrdering : Operator → Bool
  | .gt | .gte | .lt | .lte => true
  | _ => false

@[simp] theorem parse?_name (op : Operator) : parse? op.name = some op := by
  cases op <;> decide

end Operator

/-- Why an operand does not suit its operator. -/
inductive OperandFault where
  | needsBoolean (op : Operator) (operand : Value)
  | needsText (op : Operator) (operand : Value)
  /-- Truth values have no order. -/
  | unordered (op : Operator)
  deriving DecidableEq, Repr

def OperandFault.message : OperandFault → String
  | .needsBoolean op operand =>
    s!"operator '{op.name}' expects a boolean operand, got {operand.display}"
  | .needsText op operand =>
    s!"operator '{op.name}' expects a string operand, got {operand.display}"
  | .unordered op => s!"operator '{op.name}' cannot be applied to a boolean operand"

/-- Whether an operand suits an operator. -/
def Operator.check (op : Operator) (operand : Value) : Except OperandFault Unit :=
  match operand.kind? with
  | none => .ok ()
  | some kind =>
    if op = .isNull ∧ kind ≠ .boolean then .error (.needsBoolean op operand)
    else if op.matchesText ∧ kind ≠ .text then .error (.needsText op operand)
    else if op.isOrdering ∧ kind = .boolean then .error (.unordered op)
    else .ok ()

end RoleQuery
