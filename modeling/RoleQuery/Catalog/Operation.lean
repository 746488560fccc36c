/-!
# Operations

The four things that a role may be allowed to do with the items of an entity.
-/
namespace RoleQuery

/-- An operation on the items of an entity. -/
inductive Operation where
  | create
  | read
  | update
  | delete
  deriving DecidableEq, Repr

namespace Operation

/-- Every operation once. -/
def all : List Operation := [.create, .read, .update, .delete]

def name : Operation → String
  | .create => "create"
  | .read => "read"
  | .update => "update"
  | .delete => "delete"

/-- The operation of a name, in upper or lower case of the Latin letters. -/
def parse? (s : String) : Option Operation :=
  all.find? (·.name = String.ofList (s.toList.map Char.toLower))

@[simp] theorem parse?_name (op : Operation) : parse? op.name = some op := by
  cases op <;> decide

end Operation

end RoleQuery
