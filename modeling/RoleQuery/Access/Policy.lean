import RoleQuery.Access.Caller
import RoleQuery.Error

/-!
# Row policies

A grant may carry a policy: a filter that every row it is used on must satisfy. Its operands
may stand for claims of the caller, as texts that begin with `@claims.`; they are replaced for
each request, and a claim that the caller does not carry denies the operation.
-/
namespace RoleQuery.Policy

/-- How an operand that stands for a claim begins. -/
def claimMark : String := "@claims."

/-- The claim that an operand stands for. -/
def claimName? (operand : Value) : Option String :=
  operand.text?.bind fun s =>
    if claimMark.toList.isPrefixOf s.toList then
      some (String.ofList (s.toList.drop claimMark.length))
    else none

/-- An operand with the claim it stands for, if any, in its place. -/
def resolveOperand (caller : Caller) (operand : Value) : Except RequestError Value :=
  match claimName? operand with
  | none => .ok operand
  | some name =>
    match caller.claim? name with
    | some claim => .ok claim
    | none => .error .operationDenied

/-- The policy with the claims of the caller in it. -/
def resolve (caller : Caller) (policy : Filter) : Except RequestError Filter :=
  policy.mapOperands (resolveOperand caller)

/-- The resolved policy of a grant, if it has one. -/
def ofPermission (caller : Caller) (p : Permission) : Except RequestError (Option Filter) :=
  match p.policy with
  | some policy => (resolve caller policy).map some
  | none => .ok none

/-- What a filter and a policy both admit; absent when neither asks anything. -/
def restrict : Option Filter → Option Filter → Option Filter
  | none, policy => policy
  | filter, none => filter
  | some filter, some policy => some (.conjunction [filter, policy])

end RoleQuery.Policy
