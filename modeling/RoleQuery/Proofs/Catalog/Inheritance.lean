import RoleQuery.Catalog.Basic

/-!
# Inherited grants

A role that holds no grant of its own for an operation uses the one of the anonymous role.
There are two ways to it: a role that the entity knows has the anonymous grants copied into
the places where it has none, and a role that the entity does not know is looked up as the
anonymous one. Together they are one rule. A table is made by granting, and each grant takes
the place of an earlier one of the same operation, so what counts is the last.
-/
namespace RoleQuery.PermissionTable

/-- A grant of an operation on an entity that a role is given. -/
structure Award where
  entity : String
  role : String
  operation : Operation
  permission : Permission
  deriving Repr

/-- The table of grants that are given one after another. -/
def ofAwards (awards : List Award) : PermissionTable :=
  awards.foldl (fun t a => t.grant a.entity a.role a.operation a.permission) empty

/-- The last of some grants that a role is given for an operation on an entity. -/
def lastAward? (awards : List Award) (entity role : String) (op : Operation) : Option Permission :=
  (awards.filter fun a => a.entity = entity ∧ a.role = role ∧ a.operation = op).getLast?.map
    (·.permission)

/-- The grant that a role holds itself for an operation on an entity. -/
def own? (t : PermissionTable) (entity role : String) (op : Operation) : Option Permission :=
  (t.find? entity role).bind (·.get op)

/-! ## Granting -/

theorem lastAward?_cons (a : Award) (rest : List Award) (entity role : String) (op : Operation) :
    lastAward? (a :: rest) entity role op =
      (lastAward? rest entity role op <|>
        if a.entity = entity ∧ a.role = role ∧ a.operation = op then some a.permission
        else none) := by
  rw [lastAward?, lastAward?]
  by_cases h : a.entity = entity ∧ a.role = role ∧ a.operation = op
  · rw [List.filter_cons_of_pos (by simpa using h), List.getLast?_cons, if_pos h]
    cases (rest.filter _).getLast? <;> rfl
  · rw [List.filter_cons_of_neg (by simpa using h), if_neg h]
    cases (rest.filter _).getLast? <;> rfl

/-- A grant is held by the role that it is given to, and no other grant is changed. -/
theorem own?_grant (t : PermissionTable) (a : Award) (entity role : String) (op : Operation) :
    (t.grant a.entity a.role a.operation a.permission).own? entity role op =
      if a.entity = entity ∧ a.role = role ∧ a.operation = op then some a.permission
      else t.own? entity role op := by
  by_cases hplace : entity = a.entity ∧ role = a.role
  · obtain ⟨rfl, rfl⟩ := hplace
    rw [own?, find?_grant_self, Option.bind_some]
    by_cases hop : op = a.operation
    · rw [hop, Grants.get_set_self, if_pos ⟨rfl, rfl, rfl⟩]
    · rw [Grants.get_set_of_ne _ _ hop, if_neg fun h => hop h.2.2.symm, own?]
      cases t.find? a.entity a.role with
      | none => cases op <;> rfl
      | some g => rfl
  · rw [own?, find?_grant_of_ne t _ _ hplace, if_neg fun h => hplace ⟨h.1.symm, h.2.1.symm⟩, own?]

/-- A role holds the last of the grants that it is given. -/
theorem own?_ofAwards (awards : List Award) (entity role : String) (op : Operation) :
    (ofAwards awards).own? entity role op = lastAward? awards entity role op := by
  -- the grants of the table so far are those that count where no later one is given
  suffices h : ∀ t : PermissionTable,
      (awards.foldl (fun t a => t.grant a.entity a.role a.operation a.permission) t).own?
          entity role op = (lastAward? awards entity role op <|> t.own? entity role op) by
    rw [ofAwards, h]
    cases lastAward? awards entity role op <;> rfl
  induction awards with
  | nil => exact fun t => rfl
  | cons a rest ih =>
    intro t
    rw [List.foldl_cons, ih, own?_grant, lastAward?_cons]
    cases lastAward? rest entity role op with
    | some p => rfl
    | none => split <;> rfl

/-! ## Inheriting -/

/-- An entity knows the same roles as before, and each but the anonymous one has
its grants filled up. -/
theorem find?_resolve (t : PermissionTable) (entity role : String) :
    t.resolve.find? entity role = (t.find? entity role).map fun g =>
      match t.find? entity anonymousRole with
      | some anonymous => if role = anonymousRole then g else g.orElse anonymous
      | none => g := by
  -- filling up an entry keeps its entity and its role, so the same entry is found
  have hkeys : ∀ filled : RoleGrants → RoleGrants,
      (∀ e, (filled e).entity = e.entity ∧ (filled e).role = e.role) →
      ((t.entries.map filled).find? fun e => e.entity = entity ∧ e.role = role) =
        (t.entries.find? fun e => e.entity = entity ∧ e.role = role).map filled := by
    intro filled hfilled
    rw [List.find?_map]
    congr 2
    funext e
    simp only [Function.comp, hfilled]
  rw [find?.eq_1 t.resolve, resolve, hkeys, Option.map_map]
  · cases hfound : t.entries.find? fun e => e.entity = entity ∧ e.role = role with
    | none =>
      have hown : t.find? entity role = none := by rw [find?, hfound]; rfl
      rw [hown]
      rfl
    | some e =>
      obtain ⟨rfl, rfl⟩ : e.entity = entity ∧ e.role = role := by
        simpa using List.find?_some hfound
      have hown : t.find? e.entity e.role = some e.grants := by rw [find?, hfound]; rfl
      rw [hown, Option.map_some, Option.map_some, Function.comp]
      cases t.find? e.entity anonymousRole with
      | none => rfl
      | some anonymous => by_cases h : e.role = anonymousRole <;> simp [h]
  · intro e
    split
    · split <;> exact ⟨rfl, rfl⟩
    · exact ⟨rfl, rfl⟩

/-- A role that the entity knows holds the anonymous grants where it had none. -/
theorem own?_resolve (t : PermissionTable) (entity role : String) (op : Operation) :
    t.resolve.own? entity role op =
      (t.own? entity role op <|>
        if (t.find? entity role).isSome then t.own? entity anonymousRole op else none) := by
  rw [own?, find?_resolve, own?, own?]
  cases hrole : t.find? entity role with
  | none => rfl
  | some g =>
    cases hanonymous : t.find? entity anonymousRole with
    | none => cases hg : g.get op <;> simp [hg]
    | some anonymous =>
      by_cases h : role = anonymousRole
      · obtain rfl : g = anonymous := by
          rw [h, hanonymous] at hrole
          exact (Option.some.inj hrole).symm
        cases hg : g.get op <;> simp [h, hg]
      · simp [h, Grants.get_orElse]

/-- The anonymous role inherits nothing. -/
theorem own?_resolve_anonymous (t : PermissionTable) (entity : String) (op : Operation) :
    t.resolve.own? entity anonymousRole op = t.own? entity anonymousRole op := by
  rw [own?_resolve]
  cases t.own? entity anonymousRole op with
  | none => simp
  | some p => rfl

/-- What a role uses is what it holds, or what the anonymous role holds if the
entity does not know it. -/
theorem lookup_eq_own? (t : PermissionTable) (entity role : String) (op : Operation) :
    t.lookup entity role op =
      if (t.find? entity role).isSome then t.own? entity role op
      else t.own? entity anonymousRole op := by
  rw [lookup, own?, own?]
  cases t.find? entity role <;> rfl

/-- Of a resolved table a role uses its own grant, or the anonymous one where it has none. -/
theorem lookup_resolve (t : PermissionTable) (entity role : String) (op : Operation) :
    t.resolve.lookup entity role op =
      (t.own? entity role op <|> t.own? entity anonymousRole op) := by
  rw [lookup_eq_own?, find?_resolve, Option.isSome_map, own?_resolve, own?_resolve_anonymous]
  cases hrole : t.find? entity role with
  | none => simp [own?, hrole]
  | some g => simp

/-- The grant by which a catalog answers a role is its own one, or the anonymous
one where it has none. -/
theorem grant?_withPermissions (c : Catalog) (t : PermissionTable) (e : Entity) (role : String)
    (op : Operation) :
    (c.withPermissions t).grant? e role op =
      (t.own? e.name role op <|> t.own? e.name anonymousRole op) :=
  lookup_resolve t e.name role op

/-- In a resolved table nothing is left to inherit. -/
theorem lookup_resolve_resolve (t : PermissionTable) (entity role : String) (op : Operation) :
    t.resolve.resolve.lookup entity role op = t.resolve.lookup entity role op := by
  rw [lookup_resolve, own?_resolve_anonymous, own?_resolve, lookup_resolve]
  cases t.own? entity role op with
  | some p => rfl
  | none => cases t.own? entity anonymousRole op <;> cases t.find? entity role <;> rfl

/-- **A role uses the last grant that it is given for an operation on an entity, or else the
last one that the anonymous role is given, or else none**; and resolving the table again
changes nothing of it. -/
theorem lookup_resolve_ofAwards (awards : List Award) (entity role : String) (op : Operation) :
    (ofAwards awards).resolve.lookup entity role op =
        (lastAward? awards entity role op <|> lastAward? awards entity anonymousRole op) ∧
      (ofAwards awards).resolve.resolve.lookup entity role op =
        (ofAwards awards).resolve.lookup entity role op :=
  ⟨by rw [lookup_resolve, own?_ofAwards, own?_ofAwards], lookup_resolve_resolve _ entity role op⟩

/-- A role that is given a grant of its own for one operation inherits the others. -/
example (mine open_ : Permission) :
    let t := (ofAwards
      [⟨"Book", anonymousRole, .read, open_⟩, ⟨"Book", "author", .create, mine⟩]).resolve
    t.lookup "Book" "author" .read = some open_ ∧ t.lookup "Book" "author" .create = some mine ∧
      t.lookup "Book" anonymousRole .create = none ∧
      t.lookup "Book" "stranger" .read = some open_ := by
  exact ⟨rfl, rfl, rfl, rfl⟩

end RoleQuery.PermissionTable
