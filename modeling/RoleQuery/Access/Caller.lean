import RoleQuery.Catalog.Permission

/-!
# Callers

A request is made by a caller, who acts under a role and carries claims about who it is.
-/
namespace RoleQuery

/-- The role and the claims of a caller; of claims with one name the newest counts. -/
structure Caller where
  role : String
  /-- The claims, newest first. -/
  claims : List (String × Value)
  deriving Repr

namespace Caller

/-- A caller without claims. -/
def ofRole (role : String) : Caller := ⟨role, []⟩

/-- The caller of a request that names no role. -/
def anonymous : Caller := ofRole anonymousRole

/-- Add or replace a claim. -/
def withClaim (caller : Caller) (name : String) (value : Value) : Caller :=
  { caller with claims := (name, value) :: caller.claims }

def claim? (caller : Caller) (name : String) : Option Value := caller.claims.lookup name

@[simp] theorem claim?_withClaim_self (caller : Caller) (name : String) (value : Value) :
    (caller.withClaim name value).claim? name = some value := by
  simp [claim?, withClaim]

theorem claim?_withClaim_of_ne (caller : Caller) {name other : String} (value : Value)
    (h : other ≠ name) : (caller.withClaim name value).claim? other = caller.claim? other := by
  have h' : (other == name) = false := by simp [h]
  simp [claim?, withClaim, List.lookup_cons, h']

end Caller

end RoleQuery
