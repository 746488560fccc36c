import RoleQuery.Proofs.Service.Planning

/-!
# Grants without their policies

A grant is made for all rows by taking its policy away. Nothing but the authorization of
requests looks at the grants, and which fields a role may use does not depend on
policies. So a catalog that differs in one policy reads, checks and resolves everything
else of a request as before.
-/
namespace RoleQuery

/-- The grant for all rows. -/
def Permission.unrestricted (p : Permission) : Permission := { p with policy := none }

/-- The grants, one of them for all rows. -/
def Grants.unrestrict (g : Grants) (op : Operation) : Grants :=
  match g.get op with
  | some p => g.set p.unrestricted op
  | none => g

namespace Grants

theorem get_unrestrict (g : Grants) (op : Operation) :
    (g.unrestrict op).get op = (g.get op).map Permission.unrestricted := by
  rw [unrestrict]
  cases hp : g.get op with
  | none => exact hp
  | some p => exact get_set_self g _ op

theorem get_unrestrict_of_ne (g : Grants) {op other : Operation} (h : other ≠ op) :
    (g.unrestrict op).get other = g.get other := by
  rw [unrestrict]
  cases g.get op with
  | none => rfl
  | some p => exact get_set_of_ne g _ h

end Grants

namespace PermissionTable

/-- The role whose entry counts for a role: its own, or the anonymous one if the entity
does not know the role. -/
def holder (t : PermissionTable) (entity role : String) : String :=
  if (t.find? entity role).isSome then role else anonymousRole

/-- An entry; if it is the one of a role on an entity, one of its grants is for all rows. -/
def unrestrictEntry (entity role : String) (op : Operation) (e : RoleGrants) : RoleGrants where
  entity := e.entity
  role := e.role
  grants := if e.entity = entity ∧ e.role = role then e.grants.unrestrict op else e.grants

/-- The table in which the grant that a role uses for an operation on an
entity is for all rows. -/
def unrestrict (t : PermissionTable) (entity role : String) (op : Operation) : PermissionTable :=
  ⟨t.entries.map (unrestrictEntry entity (t.holder entity role) op)⟩

variable (t : PermissionTable) (entity role : String) (op : Operation)

theorem find?_unrestrict (entity' role' : String) :
    (t.unrestrict entity role op).find? entity' role' =
      (t.find? entity' role').map fun g =>
        if entity' = entity ∧ role' = t.holder entity role then g.unrestrict op else g := by
  simp only [find?, unrestrict, List.find?_map, Function.comp_def, unrestrictEntry, Option.map_map]
  refine Option.map_congr fun e he => ?_
  have hfound := List.find?_some he
  obtain ⟨rfl, rfl⟩ := of_decide_eq_true hfound
  rfl

/-- A role uses the grants that it uses, that of the operation on the
entity without a policy. -/
theorem lookup_unrestrict (entity' : String) (op' : Operation) :
    (t.unrestrict entity role op).lookup entity' role op' =
      if entity' = entity ∧ op' = op then (t.lookup entity' role op').map Permission.unrestricted
      else t.lookup entity' role op' := by
  have hget : ∀ g : Grants, (if entity' = entity then g.unrestrict op else g).get op' =
      if entity' = entity ∧ op' = op then (g.get op').map Permission.unrestricted
      else g.get op' := by
    intro g
    by_cases hentity : entity' = entity
    · by_cases hop : op' = op
      · rw [if_pos hentity, if_pos ⟨hentity, hop⟩, hop, Grants.get_unrestrict]
      · rw [if_pos hentity, if_neg (fun h => hop h.2), Grants.get_unrestrict_of_ne _ hop]
    · rw [if_neg hentity, if_neg (fun h => hentity h.1)]
  -- The entry that counts for the role is the one that is changed.
  have hentry : ((t.unrestrict entity role op).find? entity' role <|>
      (t.unrestrict entity role op).find? entity' anonymousRole) =
      (t.find? entity' role <|> t.find? entity' anonymousRole).map fun g =>
        if entity' = entity then g.unrestrict op else g := by
    rw [find?_unrestrict, find?_unrestrict]
    by_cases hentity : entity' = entity
    · subst hentity
      cases hrole : t.find? entity' role with
      | some g => simp [holder, hrole]
      | none => simp [holder, hrole]
    · simp [hentity]
  rw [lookup, lookup, hentry, Option.bind_map]
  cases t.find? entity' role <|> t.find? entity' anonymousRole with
  | none => simp
  | some g => exact hget g

end PermissionTable

namespace Catalog

/-- A catalog with other grants. -/
def withGrants (c : Catalog) (t : PermissionTable) : Catalog := { c with permissions := t }

/-! ## What does not look at the grants -/

section WithGrants

variable (c : Catalog) (t : PermissionTable)

-- The recursions below look at the entities of the catalog only, so both sides are one
-- recursion once they are opened; no induction is needed.
theorem validateNode_withGrants (entity : Option Entity) (path : String) (f : Filter) :
    Filter.validateNode (c.withGrants t) entity path f = Filter.validateNode c entity path f := by
  delta Filter.validateNode
  rfl

theorem fieldsOf_withGrants (entity : Option Entity) (selections : List Selection) :
    FieldMask.fieldsOf (c.withGrants t) entity selections =
      FieldMask.fieldsOf c entity selections := by
  delta FieldMask.fieldsOf
  rfl

theorem ofNode_withGrants (navigations : List String) (frame : Frame) (f : Filter) :
    Predicate.ofNode (c.withGrants t) navigations frame f =
      Predicate.ofNode c navigations frame f := by
  delta Predicate.ofNode
  rfl

theorem ofJson_withGrants (e : Entity) (input : Json) :
    Filter.ofJson (c.withGrants t) e input = Filter.ofJson c e input := by
  delta Filter.ofJson Filter.ofObject
  rfl

theorem clientFilter_withGrants (e : Entity) (input : Json) :
    (c.withGrants t).clientFilter e input = c.clientFilter e input := by
  simp only [clientFilter, ofJson_withGrants, Filter.validate, validateNode_withGrants]

theorem ofFilter_withGrants (e : Entity) (f : Filter) (start : Alias) :
    Predicate.ofFilter (c.withGrants t) e f start = Predicate.ofFilter c e f start := by
  rw [Predicate.ofFilter, Predicate.ofFilter, Predicate.compile, Predicate.compile,
    ofNode_withGrants]

end WithGrants

/-! ## One grant without its policy -/

/-- The catalog in which the grant that a role uses for an operation on an
entity is for all rows. -/
def unrestrict (c : Catalog) (e : Entity) (role : String) (op : Operation) : Catalog :=
  c.withGrants (c.permissions.unrestrict e.name role op)

section Unrestrict

variable (c : Catalog) (e : Entity) (role : String) (op : Operation)

theorem grant?_unrestrict :
    (c.unrestrict e role op).grant? e role op =
      (c.grant? e role op).map Permission.unrestricted := by
  rw [grant?, unrestrict, withGrants, PermissionTable.lookup_unrestrict, if_pos ⟨rfl, rfl⟩, grant?]

/-- Which fields a role may use does not depend on a policy. -/
theorem allows_unrestrict (e' : Entity) (field : String) :
    (c.unrestrict e role op).allows role op e' field = c.allows role op e' field := by
  have hlookup : ∀ entity', (c.unrestrict e role op).permissions.lookup entity' role op =
      if entity' = e.name then (c.permissions.lookup entity' role op).map Permission.unrestricted
      else c.permissions.lookup entity' role op := by
    intro entity'
    rw [unrestrict, withGrants, PermissionTable.lookup_unrestrict]
    simp only [and_true]
  have hsome : ∀ entity', ((c.unrestrict e role op).permissions.lookup entity' role op).isSome =
      (c.permissions.lookup entity' role op).isSome := by
    intro entity'
    rw [hlookup]
    split <;> simp
  simp only [allows, grant?, hsome, hlookup e'.name]
  by_cases hname : e'.name = e.name
  · simp only [if_pos hname]
    cases c.permissions.lookup e'.name role op <;> rfl
  · simp only [if_neg hname]

theorem checkField_unrestrict (usage : Access.Usage) (e' : Entity) :
    Access.checkField (c.unrestrict e role op) role op usage e' =
      Access.checkField c role op usage e' := by
  funext field
  rw [Access.checkField, Access.checkField, allows_unrestrict]

theorem checkMember_unrestrict (usage : Access.Usage) (entity : Option Entity) (field : String) :
    Access.checkMember (c.unrestrict e role op) role op usage entity field =
      Access.checkMember c role op usage entity field := by
  cases entity with
  | none => rfl
  | some e' => rw [Access.checkMember, Access.checkMember, checkField_unrestrict]

mutual

/-- The fields of a filter are checked as before. -/
theorem checkNode_unrestrict (entity : Option Entity) : (x : Filter) →
    Access.checkNode (c.unrestrict e role op) role op entity x = Access.checkNode c role op entity x
  | .scalar field _ _ => checkMember_unrestrict c e role op .filter entity field
  | .object field children | .element field children => by
    rw [Access.checkNode, Access.checkNode, checkMember_unrestrict,
      checkNodes_unrestrict _ children]
    rfl
  | .group fields allOf anyOf => by
    rw [Access.checkNode, Access.checkNode, checkNodes_unrestrict entity fields,
      checkList_unrestrict entity allOf, checkList_unrestrict entity anyOf]
termination_by structural x => x

theorem checkNodes_unrestrict (entity : Option Entity) : (xs : List Filter) →
    Access.checkNodes (c.unrestrict e role op) role op entity xs =
      Access.checkNodes c role op entity xs
  | [] => rfl
  | x :: rest => by
    rw [Access.checkNodes, Access.checkNodes, checkNode_unrestrict entity x,
      checkNodes_unrestrict entity rest]
termination_by structural xs => xs

theorem checkList_unrestrict (entity : Option Entity) : (list : Option (List Filter)) →
    Access.checkList (c.unrestrict e role op) role op entity list =
      Access.checkList c role op entity list
  | none => rfl
  | some xs => checkNodes_unrestrict entity xs
termination_by structural list => list

end

mutual

/-- Selected fields are checked as before. -/
theorem checkSelection_unrestrict (entity : Option Entity) : (s : Selection) →
    Access.checkSelection (c.unrestrict e role op) role op entity s =
      Access.checkSelection c role op entity s
  | ⟨field, label, typeHint, children⟩ => by
    rw [Access.checkSelection, Access.checkSelection, checkMember_unrestrict,
      checkSelections_unrestrict _ children]
    rfl
termination_by structural s => s

theorem checkSelections_unrestrict (entity : Option Entity) : (ss : List Selection) →
    Access.checkSelections (c.unrestrict e role op) role op entity ss =
      Access.checkSelections c role op entity ss
  | [] => rfl
  | s :: rest => by
    rw [Access.checkSelections, Access.checkSelections, checkSelection_unrestrict entity s,
      checkSelections_unrestrict entity rest]
termination_by structural ss => ss

end

theorem checkOrder_unrestrict (e' : Entity) (fields : List String) :
    Access.checkOrder (c.unrestrict e role op) role op e' fields =
      Access.checkOrder c role op e' fields := by
  rw [Access.checkOrder, Access.checkOrder, checkField_unrestrict]

theorem checkInput_unrestrict (e' : Entity) (fields : List String) :
    Access.checkInput (c.unrestrict e role op) role op e' fields =
      Access.checkInput c role op e' fields := by
  rw [Access.checkInput, Access.checkInput, checkField_unrestrict]

end Unrestrict

end Catalog

/-- A read that is authorized without the policy is authorized with it if the policy can be
resolved, and then asks, besides, what the policy asks. -/
theorem authorizeRead_unrestrict {catalog : Catalog} {e : Entity} {filter : Option Filter}
    {selection : List Selection} {orderBy : List String} {caller : Caller} {p : Permission}
    {bare : AuthorizedRead} (hgrant : catalog.grant? e caller.role .read = some p)
    (hbare : authorizeRead (catalog.unrestrict e caller.role .read) e filter selection orderBy
      caller = .ok bare) :
    bare.filter = filter ∧
      authorizeRead catalog e filter selection orderBy caller =
        (Policy.ofPermission caller p).map fun policy =>
          ⟨Policy.restrict filter policy, bare.selection, bare.mask⟩ := by
  obtain ⟨⟨p', policy, hp', hpolicy, hfilter⟩, hselection, hmask, hfiltered, hselected, hordered⟩ :=
    authorizes_of_authorizeRead hbare
  have hallows : (catalog.unrestrict e caller.role .read).allows caller.role .read e =
      catalog.allows caller.role .read e :=
    funext fun field => Catalog.allows_unrestrict catalog e caller.role .read e field
  have hrequire : catalog.requireGrant e .read caller = .ok p := by
    rw [Catalog.requireGrant, hgrant]
  have hmask' : FieldMask.ofSelections catalog (some e) bare.selection = .ok bare.mask := by
    rw [← hmask, FieldMask.ofSelections, FieldMask.ofSelections, Catalog.unrestrict,
      Catalog.fieldsOf_withGrants]
  rw [Catalog.checkSelections_unrestrict] at hselected
  rw [Catalog.checkOrder_unrestrict] at hordered
  rw [hallows] at hselection
  constructor
  · rw [Catalog.requireGrant, Catalog.grant?_unrestrict, hgrant] at hp'
    cases hp'
    cases hpolicy
    rw [hfilter]
    cases filter <;> rfl
  · simp only [authorizeRead, hrequire, bind, Except.bind, ← hselection, hmask']
    cases filter with
    | none =>
      simp only [pure, Except.pure, hselected, hordered]
      cases Policy.ofPermission caller p <;> rfl
    | some f =>
      have hfiltered' := hfiltered f rfl
      rw [Access.checkFilter, Catalog.checkNode_unrestrict] at hfiltered'
      simp only [Access.checkFilter, hfiltered', pure, Except.pure, hselected, hordered]
      cases Policy.ofPermission caller p <;> rfl

/-- A write that is authorized without the policy is authorized with it if the policy can be
resolved, and the policy is then all that is asked of the row. -/
theorem authorizeWrite_unrestrict {catalog : Catalog} {e : Entity} {op : Operation}
    {fields : List String} {caller : Caller} {p : Permission} {bare : Option Filter}
    (hgrant : catalog.grant? e caller.role op = some p)
    (hbare : authorizeWrite (catalog.unrestrict e caller.role op) e op fields caller = .ok bare) :
    bare = none ∧ authorizeWrite catalog e op fields caller = Policy.ofPermission caller p := by
  have hrequire : catalog.requireGrant e op caller = .ok p := by
    rw [Catalog.requireGrant, hgrant]
  have hrequire' : (catalog.unrestrict e caller.role op).requireGrant e op caller =
      .ok p.unrestricted := by
    rw [Catalog.requireGrant, Catalog.grant?_unrestrict, hgrant]
    rfl
  rw [authorizeWrite] at hbare ⊢
  by_cases hop : op = .read
  · rw [if_pos hop] at hbare
    cases hbare
  · rw [if_neg hop, hrequire'] at hbare
    obtain ⟨hwritable, hbare⟩ := Except.check_bind_eq_ok_iff.1 hbare
    obtain ⟨hinput, hbare⟩ := Except.check_bind_eq_ok_iff.1 hbare
    rw [Catalog.checkInput_unrestrict] at hinput
    cases hbare
    refine ⟨rfl, ?_⟩
    rw [if_neg hop, hrequire]
    simp only [hwritable, hinput, bind, Except.bind]

end RoleQuery
