import RoleQuery.Catalog.Operation
import RoleQuery.Filter.Basic

/-!
# Permissions

A role holds grants: of an operation on an entity, for some of its fields, and under a policy
that the rows must satisfy. A role that holds no grant of its own for an operation uses the
grant of the anonymous role.
-/
namespace RoleQuery

/-- A set of names, kept sorted and without repetition. -/
structure NameSet where
  names : List String
  deriving DecidableEq, Repr, Inhabited

namespace NameSet

def empty : NameSet := ⟨[]⟩

def insertSorted (name : String) : List String → List String
  | [] => [name]
  | other :: rest =>
    if name = other then other :: rest
    else if name < other then name :: other :: rest
    else other :: insertSorted name rest

def ofList (names : List String) : NameSet := ⟨names.foldr insertSorted []⟩

def contains (s : NameSet) (name : String) : Bool := s.names.contains name

@[simp] theorem mem_insertSorted {name other : String} {names : List String} :
    other ∈ insertSorted name names ↔ other = name ∨ other ∈ names := by
  induction names with
  | nil => simp [insertSorted]
  | cons first rest ih =>
    by_cases h : name = first
    · simp [insertSorted, h]
    · by_cases hlt : name < first
      · simp [insertSorted, h, hlt]
      · simp only [insertSorted, h, hlt, ↓reduceIte, List.mem_cons, ih]
        exact or_left_comm

@[simp] theorem contains_ofList (names : List String) (name : String) :
    (ofList names).contains name = names.contains name := by
  rw [Bool.eq_iff_iff]
  simp only [contains, ofList, List.contains_iff_mem]
  induction names with
  | nil => simp
  | cons first rest ih => simp [ih]

end NameSet

/-- The fields that a grant includes. -/
inductive FieldScope where
  | all
  | only (names : NameSet)
  deriving DecidableEq, Repr

/-- A grant of one operation on one entity to one role. -/
structure Permission where
  included : FieldScope
  excluded : NameSet
  /-- The rows that the grant extends to; absent when it extends to all. -/
  policy : Option Filter
  deriving Repr

namespace Permission

/-- Whether the grant extends to a field: it is included, and
exclusion wins over inclusion. -/
def allows (p : Permission) (field : String) : Bool :=
  !p.excluded.contains field &&
    match p.included with
    | .all => true
    | .only names => names.contains field

end Permission

/-- The role that every caller may fall back to. -/
def anonymousRole : String := "anonymous"

/-- The grants of a role on an entity, by operation. -/
structure Grants where
  create : Option Permission := none
  read : Option Permission := none
  update : Option Permission := none
  delete : Option Permission := none
  deriving Repr

namespace Grants

def get (g : Grants) : Operation → Option Permission
  | .create => g.create
  | .read => g.read
  | .update => g.update
  | .delete => g.delete

def set (g : Grants) (p : Permission) : Operation → Grants
  | .create => { g with create := some p }
  | .read => { g with read := some p }
  | .update => { g with update := some p }
  | .delete => { g with delete := some p }

/-- The grants, filled up from others where there is none. -/
def orElse (g others : Grants) : Grants where
  create := g.create <|> others.create
  read := g.read <|> others.read
  update := g.update <|> others.update
  delete := g.delete <|> others.delete

@[simp] theorem get_set_self (g : Grants) (p : Permission) (op : Operation) :
    (g.set p op).get op = some p := by
  cases op <;> rfl

theorem get_set_of_ne (g : Grants) (p : Permission) {op other : Operation} (h : other ≠ op) :
    (g.set p op).get other = g.get other := by
  cases op <;> cases other <;> simp_all [get, set]

theorem get_orElse (g others : Grants) (op : Operation) :
    (g.orElse others).get op = (g.get op <|> others.get op) := by
  cases op <;> rfl

end Grants

/-- The grants of one role on one entity. -/
structure RoleGrants where
  entity : String
  role : String
  grants : Grants
  deriving Repr

/-- The grants of all roles on all entities, at most one entry for an entity and a role. -/
structure PermissionTable where
  entries : List RoleGrants
  deriving Repr, Inhabited

namespace PermissionTable

def empty : PermissionTable := ⟨[]⟩

/-- The grants that a role holds on an entity, if the entity knows the role. -/
def find? (t : PermissionTable) (entity role : String) : Option Grants :=
  (t.entries.find? fun e => e.entity = entity ∧ e.role = role).map (·.grants)

/-- Add a grant among entries; it replaces an earlier one of the same operation. -/
def grantIn (entity role : String) (op : Operation) (p : Permission) :
    List RoleGrants → List RoleGrants
  | [] => [⟨entity, role, Grants.set {} p op⟩]
  | e :: rest =>
    if e.entity = entity ∧ e.role = role then { e with grants := e.grants.set p op } :: rest
    else e :: grantIn entity role op p rest

/-- Grant an operation on an entity to a role. -/
def grant (t : PermissionTable) (entity role : String) (op : Operation) (p : Permission) :
    PermissionTable :=
  ⟨grantIn entity role op p t.entries⟩

/-- Give every role the anonymous grants of an entity for the operations where it has none. -/
def resolve (t : PermissionTable) : PermissionTable :=
  ⟨t.entries.map fun e =>
    match t.find? e.entity anonymousRole with
    | some anonymous =>
      if e.role = anonymousRole then e else { e with grants := e.grants.orElse anonymous }
    | none => e⟩

/-- The grant that a role uses: its own entry, or the anonymous one if the entity
does not know the role. -/
def lookup (t : PermissionTable) (entity role : String) (op : Operation) : Option Permission :=
  ((t.find? entity role <|> t.find? entity anonymousRole).bind (·.get op))

theorem find?_grant_self (t : PermissionTable) (entity role : String) (op : Operation)
    (p : Permission) :
    (t.grant entity role op p).find? entity role =
      some (((t.find? entity role).getD {}).set p op) := by
  obtain ⟨entries⟩ := t
  simp only [find?, grant]
  induction entries with
  | nil => simp [grantIn]
  | cons e rest ih =>
    by_cases h : e.entity = entity ∧ e.role = role
    · simp [grantIn, h]
    · simp only [grantIn, h, ↓reduceIte, List.find?_cons, decide_false]
      exact ih

theorem find?_grant_of_ne (t : PermissionTable) {entity role entity' role' : String}
    (op : Operation) (p : Permission) (hne : ¬(entity' = entity ∧ role' = role)) :
    (t.grant entity role op p).find? entity' role' = t.find? entity' role' := by
  obtain ⟨entries⟩ := t
  simp only [find?, grant]
  induction entries with
  | nil =>
    have h : ¬(entity = entity' ∧ role = role') := fun h => hne ⟨h.1.symm, h.2.symm⟩
    simp [grantIn, h]
  | cons e rest ih =>
    by_cases h : e.entity = entity ∧ e.role = role
    · have h' : ¬(e.entity = entity' ∧ e.role = role') := fun h' =>
        hne ⟨h'.1.symm.trans h.1, h'.2.symm.trans h.2⟩
      simp only [grantIn, if_pos h, List.find?_cons, h', decide_false]
    · by_cases h' : e.entity = entity' ∧ e.role = role'
      · rw [grantIn, if_neg h]
        simp [h']
      · simp only [grantIn, if_neg h, List.find?_cons, h', decide_false]
        exact ih

end PermissionTable

end RoleQuery
