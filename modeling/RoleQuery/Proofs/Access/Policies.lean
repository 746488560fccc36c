import RoleQuery.Proofs.Access.Exposure
import RoleQuery.Proofs.Filter.Operands
import RoleQuery.Proofs.Predicate.Written
import RoleQuery.Proofs.Service.Writing

/-!
# The policies of a configured catalog

The policies of a configuration are read when the catalog is built, each for the entity that
its grant is on, and a policy that cannot be read stops the building. Reading is all that is
done: whether operands suit their operators is found out when a request is compiled. So every
policy of a catalog stands on members that exist, as comparisons or as filters on what they
lead to; but it may hold an operand that does not suit, and then every request under it fails
with the error of that operand, whoever makes it.
-/
namespace RoleQuery

/-! ## The policies of a table -/

/-- All policies of some grants have a property. -/
def Grants.EachPolicy (g : Grants) (P : Filter → Prop) : Prop :=
  ∀ op, ∀ p ∈ g.get op, ∀ f ∈ p.policy, P f

namespace Grants

variable {g others : Grants} {P : Filter → Prop}

theorem eachPolicy_empty : EachPolicy {} P := by
  intro op p hp
  cases op <;> cases hp

theorem EachPolicy.set (h : g.EachPolicy P) {p : Permission} (hp : ∀ f ∈ p.policy, P f)
    (op : Operation) : (g.set p op).EachPolicy P := by
  intro other q hq
  by_cases hop : other = op
  · subst hop
    rw [get_set_self] at hq
    cases hq
    exact hp
  · rw [get_set_of_ne g p hop] at hq
    exact h other q hq

theorem EachPolicy.orElse (h : g.EachPolicy P) (h' : others.EachPolicy P) :
    (g.orElse others).EachPolicy P := by
  intro op p hp
  rw [get_orElse] at hp
  cases hg : g.get op with
  | none =>
    rw [hg] at hp
    exact h' op p hp
  | some q =>
    rw [hg] at hp
    exact h op p (hg ▸ hp)

end Grants

namespace PermissionTable

variable {t : PermissionTable} {P : String → Filter → Prop} {entity role : String}

/-- All policies of a table have a property, each on the entity that its grant is on. -/
def EachPolicy (t : PermissionTable) (P : String → Filter → Prop) : Prop :=
  ∀ g ∈ t.entries, g.grants.EachPolicy (P g.entity)

theorem eachPolicy_empty : empty.EachPolicy P := fun _ hg => absurd hg List.not_mem_nil

theorem EachPolicy.grant (h : t.EachPolicy P) {p : Permission} (hp : ∀ f ∈ p.policy, P entity f)
    (op : Operation) : (t.grant entity role op p).EachPolicy P := by
  obtain ⟨entries⟩ := t
  simp only [EachPolicy, PermissionTable.grant] at h ⊢
  induction entries with
  | nil =>
    rw [grantIn, List.forall_mem_singleton]
    exact Grants.eachPolicy_empty.set hp op
  | cons g rest ih =>
    rw [List.forall_mem_cons] at h
    rw [grantIn]
    split
    · rename_i hname
      rw [List.forall_mem_cons]
      exact ⟨h.1.set (hname.1 ▸ hp) op, h.2⟩
    · rw [List.forall_mem_cons]
      exact ⟨h.1, ih h.2⟩

theorem EachPolicy.of_find? (h : t.EachPolicy P) {g : Grants} (hg : t.find? entity role = some g) :
    g.EachPolicy (P entity) := by
  obtain ⟨entry, hentry, rfl⟩ := Option.map_eq_some_iff.1 hg
  have hfound := List.find?_some hentry
  obtain ⟨rfl, -⟩ := of_decide_eq_true hfound
  exact h entry (List.mem_of_find?_eq_some hentry)

/-- What a role inherits are policies on the same entity. -/
theorem EachPolicy.resolve (h : t.EachPolicy P) : t.resolve.EachPolicy P := by
  intro g hg
  obtain ⟨entry, hentry, rfl⟩ := List.mem_map.1 hg
  cases hanonymous : t.find? entry.entity anonymousRole with
  | none => exact h entry hentry
  | some anonymous =>
    simp only
    split
    · exact h entry hentry
    · exact (h entry hentry).orElse (h.of_find? hanonymous)

end PermissionTable

namespace Catalog

/-! ## Reading policies -/

section Build

variable {catalog : Catalog} {e : Entity} {table table' : PermissionTable}

/-- A filter is read, for the entity of a name, from what a configuration writes. -/
def ReadsPolicy (catalog : Catalog) (name : String) (f : Filter) : Prop :=
  ∃ e input, catalog.entity? name = some e ∧ Filter.ofJson catalog e input = .ok f

theorem readsPolicy_of_policyOf (he : catalog.entity? e.name = some e) {input : Option Json}
    {policy : Option Filter} (h : policyOf catalog e input = .ok policy) :
    ∀ f ∈ policy, catalog.ReadsPolicy e.name f := by
  cases input with
  | none =>
    cases h
    exact nofun
  | some input =>
    obtain ⟨f, hf, rfl⟩ := Except.map_eq_ok_iff.1 h
    rintro _ ⟨⟩
    exact ⟨e, input, he, Except.mapError_eq_ok_iff.1 hf⟩

theorem eachPolicy_of_buildGrants (he : catalog.entity? e.name = some e) {role : String}
    {action : ActionConfig} (htable : table.EachPolicy catalog.ReadsPolicy)
    (h : buildGrants catalog e role action table = .ok table') :
    table'.EachPolicy catalog.ReadsPolicy := by
  obtain ⟨operations, -, h⟩ := Except.bind_eq_ok_iff.1 h
  obtain ⟨⟨included, excluded⟩, -, h⟩ := Except.bind_eq_ok_iff.1 h
  obtain ⟨policy, hpolicy, h⟩ := Except.bind_eq_ok_iff.1 h
  cases h
  refine List.foldlRecOn (motive := fun t : PermissionTable => t.EachPolicy catalog.ReadsPolicy)
    operations _ htable ?_
  intro granted hgranted op _
  exact hgranted.grant (readsPolicy_of_policyOf he hpolicy) op

theorem eachPolicy_of_buildEntityGrants (he : catalog.entity? e.name = some e)
    {permissions : List PermissionConfig} (htable : table.EachPolicy catalog.ReadsPolicy)
    (h : buildEntityGrants catalog e permissions table = .ok table') :
    table'.EachPolicy catalog.ReadsPolicy := by
  refine Except.of_foldlM (·.EachPolicy catalog.ReadsPolicy) ?_ htable h
  intro permission _ granted hgranted granted' hpermission
  refine Except.of_foldlM (·.EachPolicy catalog.ReadsPolicy) ?_ hgranted hpermission
  intro action _ granted hgranted granted' haction
  exact eachPolicy_of_buildGrants he hgranted (Except.mapError_eq_ok_iff.1 haction)

theorem eachPolicy_of_buildPermissions {entities : List (String × EntityConfig)}
    (h : buildPermissions catalog entities = .ok table) : table.EachPolicy catalog.ReadsPolicy := by
  refine Except.of_foldlM (·.EachPolicy catalog.ReadsPolicy) ?_ PermissionTable.eachPolicy_empty h
  rintro ⟨name, config⟩ _ granted hgranted granted' hentity
  cases he : catalog.entity? name with
  | none =>
    simp only [he] at hentity
    cases hentity
    exact hgranted
  | some e =>
    simp only [he] at hentity
    exact eachPolicy_of_buildEntityGrants (by rw [name_of_entity? he, he]) hgranted hentity

/-- All policies of a configured catalog, inherited ones among them, were read
from the configuration. -/
theorem eachPolicy_of_ofConfig {config : Config} (h : ofConfig config = .ok catalog) :
    catalog.permissions.EachPolicy catalog.ReadsPolicy := by
  obtain ⟨built, -, h⟩ := Except.bind_eq_ok_iff.1 h
  obtain ⟨-, h⟩ := Except.check_bind_eq_ok_iff.1 h
  obtain ⟨table, htable, h⟩ := Except.bind_eq_ok_iff.1 h
  cases h
  intro g hg op p hp f hf
  obtain ⟨e, input, he, hread⟩ :=
    (eachPolicy_of_buildPermissions htable).resolve g hg op p hp f hf
  exact ⟨e, input, he, (ofJson_withGrants built table.resolve e input).trans hread⟩

end Build

end Catalog

/-! ## Requests under a policy -/

namespace Policy

/-- A policy that compares with no claim. -/
def Plain (policy : Filter) : Prop :=
  ∀ field op operand, Filter.scalar field op operand ∈ policy.walk → claimName? operand = none

/-- A policy without claims is the same for every caller. -/
theorem ofPermission_of_plain {p : Permission} {f : Filter} (hpolicy : p.policy = some f)
    (hplain : Plain f) (caller : Caller) : ofPermission caller p = .ok (some f) := by
  have hresolve : resolve caller f = .ok f :=
    Filter.mapOperands_eq_self f fun field op operand hmem => by
      rw [resolveOperand, hplain field op operand hmem]
  rw [ofPermission, hpolicy]
  change (resolve caller f).map some = _
  rw [hresolve]
  rfl

end Policy

namespace Catalog

section Requests

variable {catalog : Catalog} {e : Entity} {p : Permission} {f : Filter} {caller : Caller}

theorem operation_ne_read_of_planWrite {request : WriteRequest} {plan : WritePlan}
    (h : catalog.planWrite e request caller = .ok plan) : request.operation ≠ .read := by
  obtain ⟨policy, hauthorized, -⟩ := Except.bind_eq_ok_iff.1 h
  exact (authorizeWrite_spec hauthorized).1

/-- A write that is planned without the policy is planned with it as
before, but for the policy. -/
theorem planWrite_eq_of_unrestrict {request : WriteRequest} {bare : WritePlan}
    (hgrant : catalog.grant? e caller.role request.operation = some p)
    (hbare : (catalog.unrestrict e caller.role request.operation).planWrite e request caller =
      .ok bare) :
    catalog.planWrite e request caller = (do
      let policy ← Policy.ofPermission caller p
      let policy ← policy.mapM (Predicate.ofWritePolicy catalog e)
      return { bare with policy }) := by
  rw [planWrite] at hbare ⊢
  obtain ⟨asked, hauthorized, hbare⟩ := Except.bind_eq_ok_iff.1 hbare
  obtain ⟨values, hvalues, hbare⟩ := Except.bind_eq_ok_iff.1 hbare
  obtain ⟨rfl, hrestricted⟩ := authorizeWrite_unrestrict hgrant hauthorized
  rw [hrestricted, hvalues]
  cases Policy.ofPermission caller p with
  | error error => rfl
  | ok policy =>
    by_cases hop : request.operation = .create
    · rw [if_pos hop] at hbare
      cases hbare
      simp only [bind, Except.bind, if_pos hop]
      rfl
    · rw [if_neg hop] at hbare
      obtain ⟨key, hkey, hbare⟩ := Except.bind_eq_ok_iff.1 hbare
      cases hbare
      simp only [bind, Except.bind, if_neg hop, hkey]

/-- A write with a policy does not lack a restriction. -/
theorem ofPolicy_of_restriction {plan : WritePlan} {q : Predicate} (hpolicy : plan.policy = some q)
    {error : RequestError} (h : Sql.Write.restriction plan = .error error) :
    Sql.ofPolicy q = .error error := by
  rw [Sql.Write.restriction, hpolicy, Option.mapM_some] at h
  rcases Except.bind_eq_error_iff.1 h with hq | ⟨condition, hcondition, h⟩
  · exact Except.map_eq_error_iff.1 hq
  · obtain ⟨c, -, rfl⟩ := Except.map_eq_ok_iff.1 hcondition
    simp only [Option.isNone_some, Bool.and_false, Bool.false_eq_true, ↓reduceIte] at h
    cases h

/-- The statement of a write under a policy that is not joined fails only where tables do not
have what the policy asks for. -/
theorem unsupported_of_statement? {plan : WritePlan} {q : Predicate}
    (hpolicy : plan.policy = some q)
    (hjoins : q.joins = []) (hoperation : plan.operation ≠ .read) {error : RequestError}
    (h : plan.statement? = .error error) : error.Unsupported := by
  rw [WritePlan.statement?] at h
  cases hbackend : plan.backend with
  | hierarchical =>
    rw [hbackend] at h
    cases h
  | relational =>
    rw [hbackend] at h
    have hplan := Except.map_eq_error_iff.1 h
    have hcondition : Sql.ofPolicy q = .error error := by
      rw [Sql.Write.ofPlan] at hplan
      cases hop : plan.operation with
      | create =>
        rw [hop, hpolicy] at hplan
        exact Except.map_eq_error_iff.1 hplan
      | read => exact absurd hop hoperation
      | update =>
        rw [hop] at hplan
        exact ofPolicy_of_restriction hpolicy (Except.map_eq_error_iff.1 hplan)
      | delete =>
        rw [hop] at hplan
        exact ofPolicy_of_restriction hpolicy (Except.map_eq_error_iff.1 hplan)
    rw [Sql.ofPolicy, hjoins, List.isEmpty_nil, if_pos rfl] at hcondition
    have hfault : error ∈ Backend.relational.faults q :=
      Predicate.mem_faults_of_ofPredicate q hcondition
    exact Predicate.unsupported_of_mem_faults hfault

/-- A read under a policy without claims fails because of it exactly if the policy has a
fault, whoever reads what. If its operands suit, the backend does not have what it asks for;
if one does not suit, the read fails with the error of an operand. -/
theorem compileRead_of_plain (hcat : catalog.TargetsExist) {request : ReadRequest}
    {bare : CompiledRead} (hentity : catalog.entity? request.entity = some e)
    (hgrant : catalog.grant? e caller.role .read = some p) (hpolicy : p.policy = some f)
    (hplain : Policy.Plain f)
    (hbare : (catalog.unrestrict e caller.role .read).compileRead request caller = .ok bare) :
    ((∃ compiled, catalog.compileRead request caller = .ok compiled) ↔ f.faults catalog e = []) ∧
      (Filter.Suits f.walk → ∀ error, catalog.compileRead request caller = .error error →
        error.Unsupported) ∧
      (¬ Filter.Suits f.walk → ∃ error, Filter.Misfit f.walk error ∧
        catalog.compileRead request caller = .error error) := by
  obtain ⟨hsubset, hnone⟩ :=
    causes_compileRead hentity hgrant hbare (Policy.ofPermission_of_plain hpolicy hplain caller)
  have he := mem_entities_of_entity? hentity
  refine ⟨causes_eq_nil_iff.symm.trans hnone, ?_, ?_⟩
  · intro hsuits error herror
    obtain ⟨q, hq⟩ : ∃ q, (Predicate.ofFilter catalog e f 1).1 = .ok q :=
      (Predicate.compiles_iff_suits hcat he true f _).2 hsuits
    rw [Filter.faults, hq, herror] at hsubset
    exact Predicate.unsupported_of_mem_faults (hsubset List.mem_cons_self)
  · intro hsuits
    cases hq : (Predicate.ofFilter catalog e f 1).1 with
    | ok q => exact absurd ((Predicate.compiles_iff_suits hcat he true f _).1 ⟨q, hq⟩) hsuits
    | error error =>
      refine ⟨error, Predicate.misfit_of_compile hcat he hq, ?_⟩
      rw [Filter.faults, hq] at hsubset hnone
      cases hread : catalog.compileRead request caller with
      | ok compiled => cases hnone.1 (by rw [hread]; rfl)
      | error other =>
        rw [hread] at hsubset
        rw [List.mem_singleton.1 (hsubset List.mem_cons_self)]

/-- A write under a policy without claims whose operands suit is planned, and its statement is
written unless tables do not have what the policy asks for; under one with an operand that
does not suit it always fails. -/
theorem planWrite_of_plain (hcat : catalog.TargetsExist) (he : e ∈ catalog.entities)
    {request : WriteRequest} {bare : WritePlan}
    (hgrant : catalog.grant? e caller.role request.operation = some p) (hpolicy : p.policy = some f)
    (hplain : Policy.Plain f)
    (hbare : (catalog.unrestrict e caller.role request.operation).planWrite e request caller =
      .ok bare) :
    (Filter.Suits f.walk → ∃ plan, catalog.planWrite e request caller = .ok plan ∧
        ∀ error, plan.statement? = .error error → error.Unsupported) ∧
      (¬ Filter.Suits f.walk → ∃ error, Filter.Misfit f.walk error ∧
        catalog.planWrite e request caller = .error error) := by
  rw [planWrite_eq_of_unrestrict hgrant hbare, Policy.ofPermission_of_plain hpolicy hplain]
  constructor
  · intro hsuits
    obtain ⟨q, hq⟩ : ∃ q, Predicate.ofWritePolicy catalog e f = .ok q :=
      (Predicate.compiles_iff_suits hcat he false f 1).2 hsuits
    have hjoins := Predicate.joins_eq_nil q (Predicate.scoped_ofWritePolicy hq)
    have hoperation : bare.operation ≠ .read := by
      rw [(planWrite_spec hbare).2.1]
      exact operation_ne_read_of_planWrite hbare
    refine ⟨{ bare with policy := some q }, ?_, fun error herror => ?_⟩
    · simp only [bind, Except.bind, Option.mapM_some, hq]
      rfl
    · refine unsupported_of_statement? ?_ hjoins ?_ herror
      · rfl
      · exact hoperation
  · intro hsuits
    cases hq : Predicate.ofWritePolicy catalog e f with
    | ok q => exact absurd ((Predicate.compiles_iff_suits hcat he false f 1).1 ⟨q, hq⟩) hsuits
    | error error =>
      exact ⟨error, Predicate.misfit_of_compile hcat he hq,
        by simp only [bind, Except.bind, Option.mapM_some, hq]; rfl⟩

end Requests

/-- **Every policy of a configured catalog is on an entity that exists. It passes the check of
filters if its operands suit their operators and no relationship is null, and compiles, for
reading and for writing, if its operands suit. If it compares with no claims, take a request
that succeeds without it. If the operands suit, the request fails because of it only where the
backend does not have what the policy asks for; if one does not suit, every such request fails
with the error of an operand.** -/
theorem policies_of_ofConfig {config : Config} {catalog : Catalog}
    (hconfig : ofConfig config = .ok catalog) {g : RoleGrants}
    (hg : g ∈ catalog.permissions.entries)
    {op : Operation} {p : Permission} (hp : g.grants.get op = some p) {f : Filter}
    (hpolicy : p.policy = some f) :
    ∃ e, catalog.entity? g.entity = some e ∧
      (f.validate catalog e = .ok () ↔ Filter.Suits f.walk ∧ f.NullsOnFields catalog e) ∧
      (∀ start, (∃ q, (Predicate.ofFilter catalog e f start).1 = .ok q) ↔ Filter.Suits f.walk) ∧
      ((∃ q, Predicate.ofWritePolicy catalog e f = .ok q) ↔ Filter.Suits f.walk) ∧
      (Policy.Plain f → ∀ caller : Caller,
        (∀ (request : ReadRequest) (bare : CompiledRead),
          catalog.entity? request.entity = some e →
          catalog.grant? e caller.role .read = some p →
          (catalog.unrestrict e caller.role .read).compileRead request caller = .ok bare →
            ((∃ compiled, catalog.compileRead request caller = .ok compiled) ↔
              f.faults catalog e = []) ∧
            (Filter.Suits f.walk → ∀ error, catalog.compileRead request caller = .error error →
              error.Unsupported) ∧
            (¬ Filter.Suits f.walk → ∃ error, Filter.Misfit f.walk error ∧
              catalog.compileRead request caller = .error error)) ∧
        ∀ (request : WriteRequest) (bare : WritePlan),
          catalog.grant? e caller.role request.operation = some p →
          (catalog.unrestrict e caller.role request.operation).planWrite e request caller =
            .ok bare →
            (Filter.Suits f.walk → ∃ plan, catalog.planWrite e request caller = .ok plan ∧
              ∀ error, plan.statement? = .error error → error.Unsupported) ∧
            (¬ Filter.Suits f.walk → ∃ error, Filter.Misfit f.walk error ∧
              catalog.planWrite e request caller = .error error)) := by
  obtain ⟨e, input, hentity, hread⟩ := eachPolicy_of_ofConfig hconfig g hg op p hp f hpolicy
  have hcat := targetsExist_of_ofConfig hconfig
  have he := mem_entities_of_entity? hentity
  refine ⟨e, hentity, Filter.validate_iff_of_ofJson hread,
    fun start => Predicate.compiles_iff_suits hcat he true f _,
    Predicate.compiles_iff_suits hcat he false f 1, fun hplain caller => ⟨?_, ?_⟩⟩
  · intro request bare hrequest hgrant hbare
    exact compileRead_of_plain hcat hrequest hgrant hpolicy hplain hbare
  · intro request bare hgrant hbare
    exact planWrite_of_plain hcat he hgrant hpolicy hplain hbare

/-! ## Clerks of an archive -/

def archiveBook : Entity :=
  .ofFields "Book" "books" .relational
    [⟨"id", "id", true, .scalar⟩, ⟨"title", "title", false, .scalar⟩]

/-- Clerks read the books whose title contains an operand. -/
def archiveConfig (operand : Json) : Config where
  settings := .default
  entities :=
    [("Book", {
        object := "books"
        backend := .relational
        displayNames := none
        fields := [⟨"id", none, true, .scalar, none⟩, ⟨"title", none, false, .scalar, none⟩]
        relationships := []
        permissions := [⟨"clerk", [⟨"read", none,
          some (.object [("title", .object [("contains", operand)])])⟩]⟩]
        cache := none })]

def titled (operand : Value) : Filter := .group [.scalar "title" .contains operand] none none

def clerkGrant (operand : Value) : Permission := ⟨.all, .empty, some (titled operand)⟩

def clerkGrants (operand : Value) : RoleGrants :=
  ⟨"Book", "clerk", { read := some (clerkGrant operand) }⟩

def archive (operand : Value) : Catalog :=
  ((Catalog.empty .default).addEntity archiveBook).withPermissions
    (PermissionTable.empty.grant "Book" "clerk" .read (clerkGrant operand))

def clerk : Caller := ⟨"clerk", []⟩

def bookNumbers : ReadRequest where
  entity := "Book"
  selection := [.leaf "id"]

theorem suits_titled {operand : Value} :
    Filter.Suits (titled operand).walk ↔ Operator.contains.check operand = .ok () := by
  rw [titled, Filter.walk, Filter.suits_cons (by simp)]
  exact Filter.suits_scalar

theorem plain_titled {operand : Value} (h : Policy.claimName? operand = none) :
    Policy.Plain (titled operand) := by
  intro field op operand' hmem
  simp only [titled, Filter.walk, Filter.walkAll, Filter.walkList, List.append_nil, List.mem_cons,
    reduceCtorEq, Filter.scalar.injEq, List.not_mem_nil, or_false, false_or] at hmem
  rw [hmem.2.2, h]

theorem mem_owned_titled {catalog : Catalog} {owner entity : Option Entity} {field : String}
    {op : Operator} {operand operand' : Value}
    (h : (owner, Filter.scalar field op operand') ∈ (titled operand).owned catalog entity) :
    owner = entity ∧ operand' = operand := by
  simp only [titled, Filter.owned, Filter.ownedAll, Filter.ownedList, List.append_nil,
    List.mem_singleton, Prod.mk.injEq, Filter.scalar.injEq] at h
  exact ⟨h.1, h.2.2.2⟩

/-- A policy for titles with a text serves the clerks; under one for titles with a
number they read nothing. -/
theorem policies_of_ofConfig_archive :
    ofConfig (archiveConfig (.str "Dune")) = .ok (archive (.text "Dune")) ∧
      (titled (.text "Dune")).validate (archive (.text "Dune")) archiveBook = .ok () ∧
      (∃ q, Predicate.ofWritePolicy (archive (.text "Dune")) archiveBook (titled (.text "Dune")) =
        .ok q) ∧
      (∃ compiled, (archive (.text "Dune")).compileRead bookNumbers clerk = .ok compiled) ∧
      ofConfig (archiveConfig (.int 5)) = .ok (archive (.integer 5)) ∧
      ∃ error, Filter.Misfit (titled (.integer 5)).walk error ∧
        (archive (.integer 5)).compileRead bookNumbers clerk = .error error := by
  have hconfig : ofConfig (archiveConfig (.str "Dune")) = .ok (archive (.text "Dune")) := rfl
  have hconfig' : ofConfig (archiveConfig (.int 5)) = .ok (archive (.integer 5)) := rfl
  have hg : ∀ v, clerkGrants v ∈ (archive v).permissions.entries :=
    fun v => List.mem_singleton.2 rfl
  have hp : ∀ v, (clerkGrants v).grants.get .read = some (clerkGrant v) := fun _ => rfl
  have hpolicy : ∀ v, (clerkGrant v).policy = some (titled v) := fun _ => rfl
  have hbook : ∀ v, (archive v).entity? "Book" = some archiveBook := fun _ => rfl
  have hbare : ∀ v, ∃ bare,
      ((archive v).unrestrict archiveBook clerk.role .read).compileRead bookNumbers
      clerk = .ok bare := fun _ => ⟨_, rfl⟩
  refine ⟨hconfig, ?_⟩
  obtain ⟨e, he, hvalidate, -, hwrite, hrequests⟩ :=
    policies_of_ofConfig hconfig (hg _) (hp _) (hpolicy _)
  obtain rfl := Option.some.inj ((hbook _).symm.trans he)
  have hsuits : Filter.Suits (titled (.text "Dune")).walk := suits_titled.2 rfl
  obtain ⟨bare, hbare'⟩ := hbare (.text "Dune")
  refine ⟨hvalidate.2 ⟨hsuits, ?_⟩, hwrite.2 hsuits, ?_, hconfig', ?_⟩
  · rintro owner field op operand hmem hnull
    obtain ⟨-, rfl⟩ := mem_owned_titled hmem
    cases hnull
  · exact ((hrequests (plain_titled rfl) clerk).1 bookNumbers bare (hbook _) rfl hbare').1.2 rfl
  · obtain ⟨e, he, -, -, -, hrequests⟩ := policies_of_ofConfig hconfig' (hg _) (hp _) (hpolicy _)
    obtain rfl := Option.some.inj ((hbook _).symm.trans he)
    obtain ⟨bare, hbare'⟩ := hbare (.integer 5)
    have hsuits' : ¬ Filter.Suits (titled (.integer 5)).walk := by
      rw [suits_titled]
      rintro ⟨⟩
    exact ((hrequests (plain_titled rfl) clerk).1 bookNumbers bare (hbook _) rfl hbare').2.2 hsuits'

/-- The catalog of an archive is built although its policy compares titles with a number. The
policy fails the check and does not compile, and a clerk who asks for the numbers of the books
is told of the fault, although without the policy there would be none. -/
theorem policies_not_checked_of_five :
    ofConfig (archiveConfig (.int 5)) = .ok (archive (.integer 5)) ∧
      clerkGrants (.integer 5) ∈ (archive (.integer 5)).permissions.entries ∧
      (clerkGrants (.integer 5)).grants.get .read = some (clerkGrant (.integer 5)) ∧
      (clerkGrant (.integer 5)).policy = some (titled (.integer 5)) ∧
      Policy.Plain (titled (.integer 5)) ∧
      (archive (.integer 5)).entity? "Book" = some archiveBook ∧
      (titled (.integer 5)).validate (archive (.integer 5)) archiveBook ≠ .ok () ∧
      (∀ q, (Predicate.ofFilter (archive (.integer 5)) archiveBook (titled (.integer 5)) 1).1 ≠
        .ok q) ∧
      (∀ q, Predicate.ofWritePolicy (archive (.integer 5)) archiveBook (titled (.integer 5)) ≠
        .ok q) ∧
      (∃ bare, ((archive (.integer 5)).unrestrict archiveBook clerk.role .read).compileRead
        bookNumbers clerk = .ok bare) ∧
      ∃ error, (archive (.integer 5)).compileRead bookNumbers clerk = .error error ∧
        error.status = 400 ∧ error.message =
        "Invalid filter input: operator 'contains' expects a string operand, got 5 on 'title'" := by
  refine ⟨rfl, List.mem_singleton.2 rfl, rfl, rfl, plain_titled rfl, rfl, ?_, ?_, ?_, ⟨_, rfl⟩,
    _, rfl, rfl, by decide +kernel⟩
  · rintro ⟨⟩
  · rintro q ⟨⟩
  · rintro q ⟨⟩

end Catalog

end RoleQuery
