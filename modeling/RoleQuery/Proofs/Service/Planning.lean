import RoleQuery.Proofs.Outcome
import RoleQuery.Service.Read

/-!
# Accepted reads

A read is accepted in steps: its entity is found, its filter is read and checked, the
request is authorized, what is asked of the rows becomes a predicate, the page is
resolved and the statement is written. What an accepted read is made of is known from
the success of these steps.
-/
namespace RoleQuery

/-- What is known of an authorized read: what it asks for and shows,
and that the caller may. -/
structure Authorizes (catalog : Catalog) (e : Entity) (filter : Option Filter)
    (selection : List Selection) (orderBy : List String) (caller : Caller)
    (authorized : AuthorizedRead) : Prop where
  restricted : ∃ p policy, catalog.requireGrant e .read caller = .ok p ∧
    Policy.ofPermission caller p = .ok policy ∧
    authorized.filter = Policy.restrict filter policy
  selection : authorized.selection =
    if selection.isEmpty then Selection.readable e (catalog.allows caller.role .read e)
    else selection
  mask : FieldMask.ofSelections catalog (some e) authorized.selection = .ok authorized.mask
  filtered : ∀ f ∈ filter, Access.checkFilter catalog caller.role .read e f = .ok ()
  selected : Access.checkSelections catalog caller.role .read (some e) authorized.selection = .ok ()
  ordered : Access.checkOrder catalog caller.role .read e orderBy = .ok ()

section Authorization

variable {catalog : Catalog} {e : Entity} {filter : Option Filter} {selection : List Selection}
  {orderBy : List String} {caller : Caller} {authorized : AuthorizedRead}

theorem authorizes_of_authorizeRead
    (h : authorizeRead catalog e filter selection orderBy caller = .ok authorized) :
    Authorizes catalog e filter selection orderBy caller authorized := by
  rw [authorizeRead] at h
  obtain ⟨p, hp, h⟩ := Except.bind_eq_ok_iff.1 h
  obtain ⟨mask, hmask, h⟩ := Except.bind_eq_ok_iff.1 h
  cases filter with
  | none =>
    obtain ⟨_, hselected, h⟩ := Except.bind_eq_ok_iff.1 h
    obtain ⟨_, hordered, h⟩ := Except.bind_eq_ok_iff.1 h
    obtain ⟨policy, hpolicy, h⟩ := Except.bind_eq_ok_iff.1 h
    cases h
    exact ⟨⟨p, policy, hp, hpolicy, rfl⟩, rfl, hmask, by simp, hselected, hordered⟩
  | some f =>
    obtain ⟨_, hfiltered, h⟩ := Except.bind_eq_ok_iff.1 h
    obtain ⟨_, hselected, h⟩ := Except.bind_eq_ok_iff.1 h
    obtain ⟨_, hordered, h⟩ := Except.bind_eq_ok_iff.1 h
    obtain ⟨policy, hpolicy, h⟩ := Except.bind_eq_ok_iff.1 h
    cases h
    exact ⟨⟨p, policy, hp, hpolicy, rfl⟩, rfl, hmask, by simpa using hfiltered, hselected, hordered⟩

/-- What an authorized read shows is selected, and checked together with its ordering. -/
theorem authorizeRead_spec
    (h : authorizeRead catalog e filter selection orderBy caller = .ok authorized) :
    FieldMask.fieldsOf catalog (some e) authorized.selection = .ok authorized.mask.fields ∧
      Access.checkSelections catalog caller.role .read (some e) authorized.selection = .ok () ∧
      Access.checkOrder catalog caller.role .read e orderBy = .ok () := by
  have hauthorizes := authorizes_of_authorizeRead h
  obtain ⟨fields, hfields, hmask⟩ := Except.map_eq_ok_iff.1 hauthorizes.mask
  rw [← hmask]
  exact ⟨hfields, hauthorizes.selected, hauthorizes.ordered⟩

end Authorization

namespace Catalog

variable {catalog : Catalog} {request : ReadRequest} {caller : Caller} {plan : QueryPlan}
  {e : Entity}

theorem requireEntity_eq_ok_iff {name : String} :
    catalog.requireEntity name = .ok e ↔ catalog.entity? name = some e := by
  rw [requireEntity]
  cases catalog.entity? name <;> simp

/-- The predicate of what is asked of the rows, if anything is, and the first alias
that it does not use. -/
def predicateOf (catalog : Catalog) (e : Entity) :
    Option Filter → Except RequestError (Option Predicate × Alias)
  | none => .ok (none, 1)
  | some f =>
    (Predicate.ofFilter catalog e f 1).1.map fun p => (some p, (Predicate.ofFilter catalog e f 1).2)

/-- The steps of planning a request. -/
theorem planRead_eq :
    catalog.planRead request caller = do
      let e ← catalog.requireEntity request.entity
      let filter ← request.filter.mapM (catalog.clientFilter e)
      let authorized ← authorizeRead catalog e filter request.selection
        (request.paging.orderBy.map (·.field)) caller
      let predicate ← catalog.predicateOf e authorized.filter
      let pagination ← Pagination.resolve catalog.settings e request.paging
      return ⟨e.name, e.object, e.backend, predicate.1, authorized.mask, pagination,
        predicate.2⟩ := by
  rw [planRead]
  congr 1
  funext e
  congr 1
  funext filter
  congr 1
  funext authorized
  cases authorized.filter <;> rfl

/-- A request is planned when each step of its planning succeeds. -/
theorem planRead_eq_ok_iff :
    catalog.planRead request caller = .ok plan ↔
      ∃ e filter authorized predicate pagination,
        catalog.entity? request.entity = some e ∧
        request.filter.mapM (catalog.clientFilter e) = .ok filter ∧
        authorizeRead catalog e filter request.selection (request.paging.orderBy.map (·.field))
          caller = .ok authorized ∧
        catalog.predicateOf e authorized.filter = .ok predicate ∧
        Pagination.resolve catalog.settings e request.paging = .ok pagination ∧
        plan = ⟨e.name, e.object, e.backend, predicate.1, authorized.mask, pagination,
          predicate.2⟩ := by
  rw [planRead_eq]
  simp only [Except.bind_eq_ok_iff, requireEntity_eq_ok_iff, pure, Except.pure, Except.ok.injEq,
    exists_and_left, eq_comm (a := plan)]

/-- What a plan takes over from its entity, and the page that it resolves. -/
theorem planRead_spec (hentity : catalog.entity? request.entity = some e)
    (h : catalog.planRead request caller = .ok plan) :
    plan.entity = e.name ∧ plan.object = e.object ∧ plan.backend = e.backend ∧
      Pagination.resolve catalog.settings e request.paging = .ok plan.pagination ∧
      ∃ selections, FieldMask.fieldsOf catalog (some e) selections = .ok plan.mask.fields := by
  obtain ⟨other, filter, authorized, predicate, pagination, hother, -, hauthorized, -, hpagination,
    rfl⟩ := planRead_eq_ok_iff.1 h
  obtain rfl : e = other := Option.some.inj (hentity.symm.trans hother)
  exact ⟨rfl, rfl, rfl, hpagination, authorized.selection, (authorizeRead_spec hauthorized).1⟩

/-- A read is compiled when it has a plan and the plan has a statement. -/
theorem compileRead_eq_ok_iff {q : CompiledRead} :
    catalog.compileRead request caller = .ok q ↔
      catalog.planRead request caller = .ok q.plan ∧ q.plan.statement = .ok q.statement := by
  rw [compileRead, Except.bind_eq_ok_iff]
  constructor
  · rintro ⟨plan, hplan, h⟩
    obtain ⟨statement, hstatement, h⟩ := Except.bind_eq_ok_iff.1 h
    cases h
    exact ⟨hplan, hstatement⟩
  · rintro ⟨hplan, hstatement⟩
    exact ⟨q.plan, hplan, Except.bind_eq_ok_iff.2 ⟨q.statement, hstatement, rfl⟩⟩

end Catalog

end RoleQuery
