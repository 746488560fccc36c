import RoleQuery.Proofs.Access.Restriction
import RoleQuery.Proofs.Access.Unrestricted
import RoleQuery.Proofs.Statement.Faults

/-!
# What errors show of policies

The policy of a grant is merged into the filter of the client before the filter is compiled. A
claim that the caller does not carry denies the operation, and says nothing of the policy. But
a claim whose value does not fit its operator, and a policy that the backend cannot express,
are found where the faults of filters are found, and are reported as such: the answer names
fields, columns and targets of the policy, and the value of the claim.

Both runs of a request are compared: the one under the grant without its policy, which
succeeds, and the one under the policy. They do the same up to the merging of the policy. A
merged filter has the faults of its parts, those of the client are none, and so the second run
fails with a fault of the policy or not at all.
-/
namespace RoleQuery

/-- The faults that keep filters from having statements. -/
inductive RequestError.Inexpressible : RequestError → Prop
  /-- An operand that does not fit its operator. -/
  | operand (fault : OperandFault) (field : String) :
      Inexpressible (.input (.operandOn fault field))
  /-- A relationship to an entity that does not exist. -/
  | target (name : String) : Inexpressible (.unknownEntity name)
  /-- A nested value in a table. -/
  | column (path : List String) : Inexpressible (.input (.nestedColumn path))
  /-- A list in a table. -/
  | list : Inexpressible (.input .embeddedList)
  /-- A relationship of documents. -/
  | relationship (name : String) : Inexpressible (.input (.relationshipFiltered name))

/-- The faults that filters have with a backend: it does not have what they ask for. -/
inductive RequestError.Unsupported : RequestError → Prop
  /-- A nested value in a table. -/
  | column (path : List String) : Unsupported (.input (.nestedColumn path))
  /-- A list in a table. -/
  | list : Unsupported (.input .embeddedList)
  /-- A relationship of documents. -/
  | relationship (name : String) : Unsupported (.input (.relationshipFiltered name))

theorem RequestError.Unsupported.inexpressible {error : RequestError} (h : error.Unsupported) :
    error.Inexpressible := by
  cases h with
  | column path => exact .column path
  | list => exact .list
  | relationship name => exact .relationship name

namespace Filter

variable {catalog : Catalog} {error : RequestError}

theorem inexpressible_of_linkOf {r : Relationship} (h : Predicate.linkOf catalog r = .error error) :
    error.Inexpressible := by
  rw [Predicate.linkOf] at h
  cases htarget : catalog.entity? r.target with
  | none => rw [htarget] at h; cases h; exact .target r.target
  | some target => rw [htarget] at h; cases h

mutual

/-- Why a filter does not compile. -/
theorem inexpressible_of_expressible {entity : Option Entity} : (x : Filter) →
    x.expressible catalog entity = .error error → error.Inexpressible
  | .scalar field op operand, h => by
    rw [expressible] at h
    split at h
    · cases h
    · cases hcheck : op.check operand with
      | error fault => rw [hcheck] at h; cases h; exact .operand fault field
      | ok _ => rw [hcheck] at h; cases h
  | .object field children, h => by
    rw [expressible] at h
    cases hr : relationshipOf entity field with
    | none => rw [hr] at h; exact inexpressible_of_expressibleAll children h
    | some r =>
      rw [hr] at h
      rcases Except.bind_eq_error_iff.1 h with hlink | ⟨_, -, h⟩
      · exact inexpressible_of_linkOf (Except.map_eq_error_iff.1 hlink)
      · exact inexpressible_of_expressibleAll children h
  | .element field children, h => by
    rw [expressible] at h
    rcases Except.bind_eq_error_iff.1 h with hlink | ⟨_, -, h⟩
    · cases hr : relationshipOf entity field with
      | none => rw [hr] at hlink; cases hlink
      | some r =>
        rw [hr, Option.mapM_some, Except.map_eq_error_iff] at hlink
        exact inexpressible_of_linkOf (Except.map_eq_error_iff.1 hlink)
    · exact inexpressible_of_expressibleAll children h
  | .group fields allOf anyOf, h => by
    rw [expressible] at h
    rcases Except.bind_eq_error_iff.1 h with hfields | ⟨_, -, h⟩
    · exact inexpressible_of_expressibleAll fields hfields
    · rcases Except.bind_eq_error_iff.1 h with hall | ⟨_, -, hany⟩
      · exact inexpressible_of_expressibleList allOf hall
      · exact inexpressible_of_expressibleList anyOf hany
termination_by structural x => x

theorem inexpressible_of_expressibleAll {entity : Option Entity} : (xs : List Filter) →
    expressibleAll catalog entity xs = .error error → error.Inexpressible
  | [], h => nomatch h
  | x :: rest, h => by
    rw [expressibleAll] at h
    rcases Except.bind_eq_error_iff.1 h with hx | ⟨_, -, hrest⟩
    · exact inexpressible_of_expressible x hx
    · exact inexpressible_of_expressibleAll rest hrest
termination_by structural xs => xs

theorem inexpressible_of_expressibleList {entity : Option Entity} : (list : Option (List Filter)) →
    expressibleList catalog entity list = .error error → error.Inexpressible
  | none, h => nomatch h
  | some xs, h => inexpressible_of_expressibleAll xs h
termination_by structural list => list

end

end Filter

namespace Predicate

variable {Atom Head : Type} {d : Dialect Atom Head}

mutual

/-- What holds of the faults of comparisons and traversals holds of those of a predicate. -/
theorem forall_mem_faults {P : RequestError → Prop}
    (hleaf : ∀ path c operand, ∀ error ∈ causes (d.ofLeaf path c operand), P error)
    (htraversal : ∀ via, ∀ error ∈ causes (d.ofTraversal via), P error) : (p : Predicate) →
    ∀ error ∈ p.faults d, P error
  | .const _, _, h => nomatch h
  | .leaf path c operand, error, h => hleaf path c operand error h
  | .and terms, error, h | .or terms, error, h =>
    forall_mem_faultsAll hleaf htraversal terms error h
  | .not inner, error, h => forall_mem_faults hleaf htraversal inner error h
  | .traverse _ via inner, error, h => by
    rcases List.mem_append.1 h with h | h
    · exact htraversal via error h
    · exact forall_mem_faults hleaf htraversal inner error h
termination_by structural p => p

theorem forall_mem_faultsAll {P : RequestError → Prop}
    (hleaf : ∀ path c operand, ∀ error ∈ causes (d.ofLeaf path c operand), P error)
    (htraversal : ∀ via, ∀ error ∈ causes (d.ofTraversal via), P error) : (ps : List Predicate) →
    ∀ error ∈ faultsAll d ps, P error
  | [], _, h => nomatch h
  | p :: rest, error, h => by
    rcases List.mem_append.1 h with h | h
    · exact forall_mem_faults hleaf htraversal p error h
    · exact forall_mem_faultsAll hleaf htraversal rest error h
termination_by structural ps => ps

end

/-- Why a backend cannot express a predicate. -/
theorem unsupported_of_mem_faults {b : Backend} {p : Predicate} {error : RequestError}
    (h : error ∈ b.faults p) : error.Unsupported := by
  cases b with
  | relational =>
    refine forall_mem_faults ?_ ?_ p error h
    · intro path c operand error herror
      change error ∈ causes (Sql.ofLeaf path c operand) at herror
      rw [Sql.ofLeaf] at herror
      rcases hpath : path.segments with _ | ⟨name, _ | ⟨inner, rest⟩⟩
      · rw [hpath] at herror
        obtain rfl := List.mem_singleton.1 herror
        exact .column []
      · rw [hpath] at herror
        cases c <;> cases herror
      · rw [hpath] at herror
        obtain rfl := List.mem_singleton.1 herror
        exact .column _
    · intro via error herror
      change error ∈ causes ((Sql.requireLink via).map _) at herror
      rw [causes_map, Sql.requireLink] at herror
      cases hlink : via.link with
      | none => rw [hlink] at herror; obtain rfl := List.mem_singleton.1 herror; exact .list
      | some link => rw [hlink] at herror; cases herror
  | hierarchical =>
    refine forall_mem_faults ?_ ?_ p error h
    · intro path c operand error herror
      cases herror
    · intro via error herror
      change error ∈ causes (DocumentQuery.elementsOf via) at herror
      rw [DocumentQuery.elementsOf] at herror
      cases hlink : via.link with
      | none => rw [hlink] at herror; cases herror
      | some link =>
        rw [hlink] at herror
        obtain rfl := List.mem_singleton.1 herror
        exact .relationship link.target

end Predicate

namespace Filter

/-- What keeps a filter from having a statement on an entity. -/
def faults (catalog : Catalog) (e : Entity) (f : Filter) : List RequestError :=
  match (Predicate.ofFilter catalog e f 1).1 with
  | .error error => [error]
  | .ok p => e.backend.faults p

/-- Why a filter has no statement. -/
theorem inexpressible_of_mem_faults {catalog : Catalog} {e : Entity} {f : Filter}
    {error : RequestError} (h : error ∈ f.faults catalog e) : error.Inexpressible := by
  rw [faults] at h
  cases hp : (Predicate.ofFilter catalog e f 1).1 with
  | ok p => rw [hp] at h; exact (Predicate.unsupported_of_mem_faults h).inexpressible
  | error other =>
    rw [hp] at h
    obtain rfl := List.mem_singleton.1 h
    cases hfault : f.expressible catalog (some e) with
    | error fault =>
      have hrun := (Predicate.yields_compile catalog e true f).run_error hfault (firstAlias 1)
      obtain rfl := Except.error.inj (hrun.symm.trans hp)
      exact inexpressible_of_expressible f hfault
    | ok _ =>
      obtain ⟨p, hrun, -⟩ :=
        (Predicate.yields_compile catalog e true f).run_ok hfault (firstAlias 1)
      cases hrun.symm.trans hp

mutual

/-- Operands cannot be replaced only because one of them cannot. -/
theorem exists_of_mapOperands {ε : Type} {g : Value → Except ε Value} {error : ε} : (x : Filter) →
    x.mapOperands g = .error error → ∃ v, g v = .error error
  | .scalar field op operand, h => ⟨operand, Except.map_eq_error_iff.1 h⟩
  | .object field children, h | .element field children, h =>
    exists_of_mapOperandsAll children (Except.map_eq_error_iff.1 h)
  | .group fields allOf anyOf, h => by
    rw [mapOperands] at h
    rcases Except.bind_eq_error_iff.1 h with hfields | ⟨_, -, h⟩
    · exact exists_of_mapOperandsAll fields hfields
    · rcases Except.bind_eq_error_iff.1 h with hall | ⟨_, -, h⟩
      · exact exists_of_mapOperandsList allOf hall
      · rcases Except.bind_eq_error_iff.1 h with hany | ⟨_, -, h⟩
        · exact exists_of_mapOperandsList anyOf hany
        · cases h
termination_by structural x => x

theorem exists_of_mapOperandsAll {ε : Type} {g : Value → Except ε Value} {error : ε} :
    (xs : List Filter) → mapOperandsAll g xs = .error error → ∃ v, g v = .error error
  | [], h => nomatch h
  | x :: rest, h => by
    rw [mapOperandsAll] at h
    rcases Except.bind_eq_error_iff.1 h with hx | ⟨_, -, h⟩
    · exact exists_of_mapOperands x hx
    · rcases Except.bind_eq_error_iff.1 h with hrest | ⟨_, -, h⟩
      · exact exists_of_mapOperandsAll rest hrest
      · cases h
termination_by structural xs => xs

theorem exists_of_mapOperandsList {ε : Type} {g : Value → Except ε Value} {error : ε} :
    (list : Option (List Filter)) → mapOperandsList g list = .error error → ∃ v, g v = .error error
  | none, h => nomatch h
  | some xs, h => exists_of_mapOperandsAll xs (Except.map_eq_error_iff.1 h)
termination_by structural list => list

end

end Filter

/-- A policy that cannot be resolved denies the operation. -/
theorem Policy.eq_operationDenied_of_resolve {caller : Caller} {policy : Filter}
    {error : RequestError}
    (h : resolve caller policy = .error error) : error = .operationDenied := by
  obtain ⟨operand, hoperand⟩ := Filter.exists_of_mapOperands policy h
  rw [resolveOperand] at hoperand
  split at hoperand
  · cases hoperand
  · split at hoperand
    · cases hoperand
    · cases hoperand
      rfl

namespace Catalog

section Restricted

variable {catalog : Catalog} {e : Entity} {filter : Option Filter} {o : Option Predicate}
  {next : Alias} {f : Filter}

/-- A filter with a predicate that is restricted by a policy has no predicate if the policy
has none, and otherwise the backend cannot express what it cannot express of either. -/
theorem predicateOf_restrict (hfilter : catalog.predicateOf e filter = .ok (o, next)) :
    (∀ error, (Predicate.ofFilter catalog e f 1).1 = .error error →
      catalog.predicateOf e (Policy.restrict filter (some f)) = .error error) ∧
    ∀ q, (Predicate.ofFilter catalog e f 1).1 = .ok q →
      ∃ r next', catalog.predicateOf e (Policy.restrict filter (some f)) = .ok (some r, next') ∧
        ∀ b : Backend, b.faults r = (o.map b.faults).getD [] ++ b.faults q := by
  cases filter with
  | none =>
    cases hfilter
    constructor
    · intro error hf
      rw [Policy.restrict, predicateOf, hf]
      rfl
    · intro q hf
      refine ⟨q, (Predicate.ofFilter catalog e f 1).2, ?_, fun _ => rfl⟩
      rw [Policy.restrict, predicateOf, hf]
      rfl
  | some g =>
    obtain ⟨p, hg, hp⟩ := Except.map_eq_ok_iff.1 hfilter
    cases hp
    obtain ⟨hfails, hfaults⟩ :=
      Predicate.faults_ofFilter_conjunction hg f 1 1
    refine ⟨fun error hf => ?_, fun q hf => ?_⟩
    · rw [Policy.restrict, predicateOf, hfails error hf]
      rfl
    · obtain ⟨r, hr, hboth⟩ := hfaults q hf
      refine ⟨r, (Predicate.ofFilter catalog e (.conjunction [g, f]) 1).2, ?_, fun b => ?_⟩
      · rw [Policy.restrict, predicateOf, hr]
        rfl
      · cases b with
        | relational => exact hboth Sql.nameless_dialect
        | hierarchical => exact hboth DocumentQuery.nameless_dialect

end Restricted

section Unrestrict

variable {catalog : Catalog} {request : ReadRequest} {caller : Caller} {e : Entity} {p : Permission}
  {bare : CompiledRead}

/-- A read that is compiled without the policy is compiled with it as before, but for the
predicate of what is asked of the rows. -/
theorem compileRead_eq_of_unrestrict (hentity : catalog.entity? request.entity = some e)
    (hgrant : catalog.grant? e caller.role .read = some p)
    (hbare : (catalog.unrestrict e caller.role .read).compileRead request caller = .ok bare) :
    ∃ filter, catalog.predicateOf e filter = .ok (bare.plan.predicate, bare.plan.nextAlias) ∧
      bare.plan.backend = e.backend ∧
      catalog.planRead request caller = (do
        let policy ← Policy.ofPermission caller p
        let predicate ← catalog.predicateOf e (Policy.restrict filter policy)
        return { bare.plan with predicate := predicate.1, nextAlias := predicate.2 }) := by
  obtain ⟨hplan, -⟩ := compileRead_eq_ok_iff.1 hbare
  obtain ⟨other, filter, authorized, predicate, pagination, hother, hfilter, hauthorized,
    hpredicate, hpagination, heq⟩ := planRead_eq_ok_iff.1 hplan
  obtain rfl : e = other := Option.some.inj (hentity.symm.trans hother)
  have hclient : (catalog.unrestrict e caller.role .read).clientFilter e = catalog.clientFilter e :=
    funext fun input => clientFilter_withGrants catalog _ e input
  have hpredicateOf : ∀ filter, (catalog.unrestrict e caller.role .read).predicateOf e filter =
      catalog.predicateOf e filter := by
    intro filter
    cases filter with
    | none => rfl
    | some f => rw [predicateOf, predicateOf, unrestrict, ofFilter_withGrants]
  obtain ⟨hunrestricted, hrestricted⟩ := authorizeRead_unrestrict hgrant hauthorized
  rw [hclient] at hfilter
  rw [hunrestricted, hpredicateOf] at hpredicate
  have hsettled : Pagination.resolve catalog.settings e request.paging = .ok pagination :=
    hpagination
  refine ⟨filter, ?_, ?_, ?_⟩
  · rw [heq, hpredicate]
  · rw [heq]
  · rw [planRead_eq, requireEntity_eq_ok_iff.2 hentity, heq]
    change (do
      let filter ← request.filter.mapM (catalog.clientFilter e)
      _) = _
    rw [hfilter]
    change (authorizeRead catalog e filter _ _ caller >>= _) = _
    rw [hrestricted]
    cases Policy.ofPermission caller p with
    | error error => rfl
    | ok policy =>
      change (catalog.predicateOf e (Policy.restrict filter policy) >>= _) = _ >>= _
      simp only [hsettled]
      rfl

/-- A read that is compiled without the policy fails, under a policy with its claims in it,
with one of the faults of the policy, and fails only if there is one. -/
theorem causes_compileRead (hentity : catalog.entity? request.entity = some e)
    (hgrant : catalog.grant? e caller.role .read = some p)
    (hbare : (catalog.unrestrict e caller.role .read).compileRead request caller = .ok bare)
    {f : Filter} (hpolicy : Policy.ofPermission caller p = .ok (some f)) :
    causes (catalog.compileRead request caller) ⊆ f.faults catalog e ∧
      (causes (catalog.compileRead request caller) = [] ↔ f.faults catalog e = []) := by
  obtain ⟨filter, hfilter, hbackend, hplan⟩ := compileRead_eq_of_unrestrict hentity hgrant hbare
  obtain ⟨hplanned, hstatement⟩ := compileRead_eq_ok_iff.1 hbare
  obtain ⟨hfails, hfaults⟩ := predicateOf_restrict (f := f) hfilter
  rw [hpolicy] at hplan
  cases hf : (Predicate.ofFilter catalog e f 1).1 with
  | error error =>
    have hfailed : catalog.compileRead request caller = .error error := by
      rw [compileRead, hplan]
      change ((catalog.predicateOf e (Policy.restrict filter (some f)) >>= _) >>= _) = _
      rw [hfails error hf]
      rfl
    rw [hfailed, Filter.faults, hf]
    exact ⟨List.Subset.refl _, Iff.rfl⟩
  | ok q =>
    obtain ⟨r, next, hr, hboth⟩ := hfaults q hf
    let plan : QueryPlan := { bare.plan with predicate := some r, nextAlias := next }
    have hrestricted : catalog.planRead request caller = .ok plan := by
      rw [hplan]
      change (catalog.predicateOf e (Policy.restrict filter (some f)) >>= _) = _
      rw [hr]
      rfl
    have hbareShows : bare.plan.Shows := QueryPlan.shows_of_statement hstatement
    have hshows : plan.Shows := hbareShows
    obtain ⟨hsubset, hnone⟩ :=
      QueryPlan.causes_statement_spec (sound_of_planRead hrestricted) hshows
    -- The statement of the client's own filter is written, so its predicate has no faults.
    have hclient : bare.plan.faults = [] :=
      (QueryPlan.causes_statement_spec (sound_of_planRead hplanned) hbareShows).2.1
        (by rw [hstatement]; rfl)
    have hown : f.faults catalog e = plan.faults := by
      change _ = bare.plan.backend.faults r
      rw [hboth, ← QueryPlan.faults, hclient, hbackend, List.nil_append, Filter.faults, hf]
    have hcauses : causes (catalog.compileRead request caller) = causes plan.statement := by
      rw [compileRead, hrestricted]
      exact causes_map plan.statement (CompiledRead.mk plan)
    rw [hcauses, hown]
    exact ⟨hsubset, hnone⟩

/-- **A read that succeeds without the policy of its grant fails because of the policy in two
ways: the operation is denied if the caller lacks a claim that the policy needs; and if the
policy, with the claims in it, does not compile or cannot be expressed, then a fault of the
policy is reported as a fault of the request.** The policy is not shown exactly if it has no
such fault for the caller. -/
theorem compileRead_of_unrestrict (hentity : catalog.entity? request.entity = some e)
    (hgrant : catalog.grant? e caller.role .read = some p) {policy : Filter}
    (hpolicy : p.policy = some policy)
    (hbare : (catalog.unrestrict e caller.role .read).compileRead request caller = .ok bare) :
    (catalog.compileRead request caller = .error .operationDenied ↔
        ∃ error, Policy.resolve caller policy = .error error) ∧
      ((∃ q, catalog.compileRead request caller = .ok q) ↔
        ∃ f, Policy.resolve caller policy = .ok f ∧ f.faults catalog e = []) ∧
      ∀ error, catalog.compileRead request caller = .error error → error ≠ .operationDenied →
        error.Inexpressible ∧
          ∃ f, Policy.resolve caller policy = .ok f ∧ error ∈ f.faults catalog e := by
  have hresolve : Policy.ofPermission caller p = (Policy.resolve caller policy).map some := by
    rw [Policy.ofPermission, hpolicy]
  cases hf : Policy.resolve caller policy with
  | error error =>
    have hdenied : catalog.compileRead request caller = .error .operationDenied := by
      obtain ⟨filter, -, -, hplan⟩ := compileRead_eq_of_unrestrict hentity hgrant hbare
      rw [compileRead, hplan, hresolve, hf, Policy.eq_operationDenied_of_resolve hf]
      rfl
    refine ⟨by simp [hdenied], by simp [hdenied], fun other hother hne => ?_⟩
    exact (hne (Except.error.inj (hother.symm.trans hdenied))).elim
  | ok f =>
    rw [hf] at hresolve
    obtain ⟨hsubset, hnone⟩ := causes_compileRead hentity hgrant hbare hresolve
    have hfault : ∀ error, catalog.compileRead request caller = .error error →
        error ∈ f.faults catalog e := by
      intro error herror
      rw [herror] at hsubset
      exact hsubset List.mem_cons_self
    refine ⟨⟨fun hdenied => ?_, ?_⟩, ?_, fun error herror _ => ?_⟩
    · cases Filter.inexpressible_of_mem_faults (hfault _ hdenied)
    · rintro ⟨error, h⟩
      cases h
    · rw [← causes_eq_nil_iff, hnone]
      constructor
      · exact fun h => ⟨f, rfl, h⟩
      · rintro ⟨f', hf', h⟩
        cases hf'
        exact h
    · exact ⟨Filter.inexpressible_of_mem_faults (hfault error herror), f, rfl, hfault error herror⟩

end Unrestrict

/-! ## Numbers for regions -/

def invoice : Entity :=
  .ofFields "Invoice" "invoices" .relational
    [⟨"id", "id", true, .scalar⟩, ⟨"region", "region_code", false, .scalar⟩]

/-- Agents read the invoices of their regions: those whose code begins as they claim. -/
def invoiceConfig : Config where
  settings := .default
  entities :=
    [("Invoice", {
        object := "invoices"
        backend := .relational
        displayNames := none
        fields := [⟨"id", none, true, .scalar, none⟩,
          ⟨"region", some "region_code", false, .scalar, none⟩]
        relationships := []
        permissions := [⟨"agent", [⟨"read", none,
          some (.object [("region", .object [("startsWith", .str "@claims.region")])])⟩]⟩]
        cache := none })]

def ownRegion : Filter := .group [.scalar "region" .startsWith (.text "@claims.region")] none none

def invoices : Catalog :=
  ((Catalog.empty .default).addEntity invoice).withPermissions
    (PermissionTable.empty.grant "Invoice" "agent" .read ⟨.all, .empty, some ownRegion⟩)

def invoiceNumbers : ReadRequest where
  entity := "Invoice"
  selection := [.leaf "id"]

/-- An agent who claims a region. -/
def agent (region : Value) : Caller := ⟨"agent", [("region", region)]⟩

/-- An agent with a region reads its invoices; to one whose region is a number, an error names
the field of the policy. -/
theorem compileRead_of_unrestrict_invoices :
    (∃ q, invoices.compileRead invoiceNumbers (agent (.text "N")) = .ok q) ∧
      ∃ error, invoices.compileRead invoiceNumbers (agent (.integer 7)) = .error error ∧
        ∃ f, Policy.resolve (agent (.integer 7)) ownRegion = .ok f ∧
          error ∈ f.faults invoices invoice := by
  have hentity : invoices.entity? invoiceNumbers.entity = some invoice := rfl
  have hgrant : ∀ region, invoices.grant? invoice (agent region).role .read =
      some ⟨.all, .empty, some ownRegion⟩ := fun _ => rfl
  have hbare : ∀ region, ∃ bare, (invoices.unrestrict invoice (agent region).role .read).compileRead
      invoiceNumbers (agent region) = .ok bare := fun _ => ⟨_, rfl⟩
  constructor
  · obtain ⟨bare, hbare⟩ := hbare (.text "N")
    obtain ⟨-, hsucceeds, -⟩ := compileRead_of_unrestrict hentity (hgrant _) rfl hbare
    exact hsucceeds.2 ⟨_, rfl, rfl⟩
  · obtain ⟨bare, hbare⟩ := hbare (.integer 7)
    obtain ⟨-, -, hfails⟩ := compileRead_of_unrestrict hentity (hgrant _) rfl hbare
    refine ⟨_, rfl, ?_⟩
    exact (hfails _ rfl (by simp)).2

/-- The operation is not denied to an agent whose region is a number: the error tells what the
policy compares, and with which claim. -/
theorem region_shown_of_number :
    ofConfig invoiceConfig = .ok invoices ∧
      (∃ bare, (invoices.unrestrict invoice (agent (.integer 7)).role .read).compileRead
        invoiceNumbers (agent (.integer 7)) = .ok bare) ∧
      ∃ error, invoices.compileRead invoiceNumbers (agent (.integer 7)) = .error error ∧
        error ≠ .operationDenied ∧
        error.message =
        "Invalid filter input: operator 'startsWith' expects a string operand, got 7 on 'region'" :=
  ⟨rfl, ⟨_, rfl⟩, _, rfl, by simp, by decide +kernel⟩

end Catalog

end RoleQuery
