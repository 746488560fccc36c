import RoleQuery.Proofs.Access.Masks
import RoleQuery.Proofs.Paging.Continuation
import RoleQuery.Proofs.Service.Planning

/-!
# Requests for the next page

A request that is sent again with another cursor is compiled to the same read, started
elsewhere: neither what is asked of the rows nor what is shown of them depends on the cursor,
and there is a statement for every start. What is fetched of a row holds the columns of the
ordering, unless related rows are shown under the name of one.
-/
namespace RoleQuery

/-- The same page, started elsewhere. -/
def Pagination.continueAt (p : Pagination) (c : Continuation) : Pagination :=
  { p with continuation := c }

/-- The same read, started elsewhere. -/
def QueryPlan.continueAt (plan : QueryPlan) (c : Continuation) : QueryPlan :=
  { plan with pagination := plan.pagination.continueAt c }

/-- The same request, with the cursor of a page. -/
def ReadRequest.after (request : ReadRequest) (cursor : Option String) : ReadRequest :=
  { request with paging := { request.paging with after := cursor } }

namespace Pagination

variable {settings : Settings} {e : Entity} {request : PageRequest} {p : Pagination}

/-- A page is resolved when its size, its order and its start are. -/
theorem resolve_eq_ok_iff :
    resolve settings e request = .ok p ↔ ∃ pageSize order continuation,
      resolvePageSize settings request.first = .ok pageSize ∧
      resolveOrder e request.orderBy = .ok order ∧
      resolveContinuation e order request.after = .ok continuation ∧
      p = ⟨e.backend, order, pageSize, continuation⟩ := by
  simp only [resolve, Except.bind_eq_ok_iff, pure, Except.pure, Except.ok.injEq, exists_and_left,
    eq_comm (a := p)]

theorem backend_of_resolve (h : resolve settings e request = .ok p) : p.backend = e.backend := by
  obtain ⟨pageSize, order, continuation, -, -, -, rfl⟩ := resolve_eq_ok_iff.1 h
  rfl

theorem order_of_resolve (h : resolve settings e request = .ok p) :
    resolveOrder e request.orderBy = .ok p.order := by
  obtain ⟨pageSize, order, continuation, -, horder, -, rfl⟩ := resolve_eq_ok_iff.1 h
  exact horder

theorem continuation_of_resolve (h : resolve settings e request = .ok p) :
    resolveContinuation e p.order request.after = .ok p.continuation := by
  obtain ⟨pageSize, order, continuation, -, -, hcontinuation, rfl⟩ := resolve_eq_ok_iff.1 h
  exact hcontinuation

/-- Another cursor changes nothing but the start of the page. -/
theorem resolve_after (h : resolve settings e request = .ok p) {cursor : Option String}
    {c : Continuation} (hc : resolveContinuation e p.order cursor = .ok c) :
    resolve settings e { request with after := cursor } = .ok (p.continueAt c) := by
  obtain ⟨pageSize, order, continuation, hpageSize, horder, -, rfl⟩ := resolve_eq_ok_iff.1 h
  exact resolve_eq_ok_iff.2 ⟨pageSize, order, c, hpageSize, horder, hc, rfl⟩

end Pagination

namespace Catalog

variable {catalog : Catalog} {request : ReadRequest} {caller : Caller} {plan : QueryPlan}
  {e : Entity}

/-- Another cursor changes nothing of a plan but the start of the page. -/
theorem planRead_after (hentity : catalog.entity? request.entity = some e)
    (h : catalog.planRead request caller = .ok plan) {cursor : Option String} {c : Continuation}
    (hc : Pagination.resolveContinuation e plan.pagination.order cursor = .ok c) :
    catalog.planRead (request.after cursor) caller = .ok (plan.continueAt c) := by
  obtain ⟨other, filter, authorized, predicate, pagination, hother, hfilter, hauthorized,
    hpredicate, hpagination, rfl⟩ := planRead_eq_ok_iff.1 h
  obtain rfl : e = other := Option.some.inj (hentity.symm.trans hother)
  exact planRead_eq_ok_iff.2 ⟨e, filter, authorized, predicate, pagination.continueAt c, hentity,
    hfilter, hauthorized, hpredicate, Pagination.resolve_after hpagination hc, rfl⟩

/-- Whether a plan has a statement does not depend on where its page starts. -/
theorem exists_statement_continueAt {statement : Statement} (h : plan.statement = .ok statement)
    (c : Continuation) : ∃ other, (plan.continueAt c).statement = .ok other := by
  rw [QueryPlan.statement] at h ⊢
  cases hbackend : plan.backend with
  | relational =>
    rw [hbackend] at h
    obtain ⟨select, hselect, -⟩ := Except.map_eq_ok_iff.1 h
    rw [Sql.Select.ofPlan] at hselect
    obtain ⟨⟨children, next⟩, hchildren, hselect⟩ := Except.bind_eq_ok_iff.1 hselect
    obtain ⟨joins, hjoins, hselect⟩ := Except.bind_eq_ok_iff.1 hselect
    obtain ⟨condition, hcondition, hselect⟩ := Except.bind_eq_ok_iff.1 hselect
    have hother : ∃ other, Sql.Select.ofPlan (plan.continueAt c) = .ok other :=
      ⟨_, Except.bind_eq_ok_iff.2 ⟨(children, next), hchildren,
        Except.bind_eq_ok_iff.2 ⟨joins, hjoins,
          Except.bind_eq_ok_iff.2 ⟨condition, hcondition, rfl⟩⟩⟩⟩
    obtain ⟨other, hother⟩ := hother
    rw [show (plan.continueAt c).backend = .relational from hbackend]
    exact ⟨_, Except.map_eq_ok_iff.2 ⟨other, hother, rfl⟩⟩
  | hierarchical =>
    rw [hbackend] at h
    obtain ⟨select, hselect, -⟩ := Except.map_eq_ok_iff.1 h
    rw [show (plan.continueAt c).backend = .hierarchical from hbackend]
    exact ⟨_, Except.map_eq_ok_iff.2 ⟨select, hselect, rfl⟩⟩

/-- A request that is accepted is accepted with every cursor that it can be resolved with, and
compiled to the same read, started elsewhere. -/
theorem compileRead_after (hentity : catalog.entity? request.entity = some e) {q : CompiledRead}
    (h : catalog.compileRead request caller = .ok q) {cursor : Option String} {c : Continuation}
    (hc : Pagination.resolveContinuation e q.plan.pagination.order cursor = .ok c) :
    ∃ statement, catalog.compileRead (request.after cursor) caller =
      .ok ⟨q.plan.continueAt c, statement⟩ := by
  obtain ⟨hplan, hstatement⟩ := compileRead_eq_ok_iff.1 h
  obtain ⟨other, hother⟩ := exists_statement_continueAt hstatement c
  exact ⟨other, compileRead_eq_ok_iff.2 ⟨planRead_after hentity hplan hc, hother⟩⟩

end Catalog

namespace Members

/-- Inserting pairs that all say the same of a name. -/
theorem get?_foldl_insert {pairs : List (String × Json)} {name : String} {value : Json}
    (h : ∀ pair ∈ pairs, pair.1 = name → pair.2 = value) {ms : Members}
    (hname : ms.get? name = some value ∨ name ∈ pairs.map (·.1)) :
    (pairs.foldl (fun ms pair => ms.insert pair.1 pair.2) ms).get? name = some value := by
  induction pairs generalizing ms with
  | nil => simpa using hname
  | cons pair rest ih =>
    rw [List.foldl_cons]
    refine ih (fun other ho => h other (List.mem_cons_of_mem pair ho)) ?_
    by_cases hp : pair.1 = name
    · left
      rw [hp, get?_insert_self, h pair List.mem_cons_self hp]
    · rw [get?_insert_of_ne ms pair.2 hp]
      rcases hname with hname | hname
      · exact .inl hname
      · rw [List.map_cons, List.mem_cons] at hname
        exact .inr (hname.resolve_left fun heq => hp heq.symm)

/-- What is found among pairs that were inserted one after another is one of them. -/
theorem mem_of_get?_ofList {pairs : List (String × Json)} {name : String} {value : Json}
    (h : (ofList pairs).get? name = some value) : (name, value) ∈ pairs := by
  suffices hall : ∀ ms : Members,
      (pairs.foldl (fun ms pair => ms.insert pair.1 pair.2) ms).get? name = some value →
        ms.get? name = some value ∨ (name, value) ∈ pairs from
    (hall [] h).resolve_left (by simp [get?])
  clear h
  induction pairs with
  | nil => exact fun ms h => .inl h
  | cons pair rest ih =>
    intro ms h
    rcases ih (ms.insert pair.1 pair.2) h with h | h
    · by_cases hp : pair.1 = name
      · rw [hp, get?_insert_self] at h
        exact .inr (List.mem_cons.2 (.inl (Prod.ext hp.symm (Option.some.inj h).symm)))
      · rw [get?_insert_of_ne ms pair.2 hp] at h
        exact .inl h
    · exact .inr (List.mem_cons_of_mem pair h)

/-- Inserting a member brings in its value and no other. -/
theorem mem_insert {ms : Members} {name : String} {value : Json} {m : String × Json}
    (h : m ∈ ms.insert name value) : m ∈ ms ∨ m.2 = value := by
  induction ms with
  | nil => exact .inr (by simp_all [insert])
  | cons first rest ih =>
    obtain ⟨key, old⟩ := first
    rw [insert] at h
    split_ifs at h
    · rcases List.mem_cons.1 h with rfl | h
      · exact .inr rfl
      · exact .inl (List.mem_cons_of_mem _ h)
    · rcases List.mem_cons.1 h with rfl | h
      · exact .inl List.mem_cons_self
      · exact (ih h).imp_left (List.mem_cons_of_mem _)

end Members

namespace Tables

variable (t : Tables)

/-- A projected column holds what the row does, or null. -/
theorem get?_project {columns : List String} (row : Json) {c : String} (h : c ∈ columns) :
    (project columns row).get? c = some ((row.get? c).getD .null) := by
  rw [project, Members.ofList]
  apply Members.get?_foldl_insert
  · intro pair hpair hc
    obtain ⟨other, -, rfl⟩ := List.mem_map.1 hpair
    simp only at hc
    rw [hc]
  · right
    rw [List.map_map]
    exact List.mem_map.2 ⟨c, h, rfl⟩

/-- Only relationships show related rows. -/
theorem relationship?_of_relatedValue? {row : Json} {field : MaskedField} {value : Json}
    (h : relatedValue? t row field = some value) : field.relationship?.isSome := by
  cases field with
  | plain name output column relationship => rw [relatedValue?] at h; cases h; simp_all
  | nested name output column relationship entity object fields =>
    cases relationship with
    | none => rw [relatedValue?] at h; cases h; simp_all
    | some r => rfl

/-- Related rows leave the columns alone that have other names. -/
theorem get?_addRelated {row : Json} {fields : List MaskedField} {c : String}
    (h : ∀ field ∈ fields, field.relationship?.isSome → field.column ≠ c) (columns : Members) :
    (addRelated t row columns fields).get? c = columns.get? c := by
  induction fields generalizing columns with
  | nil => rw [addRelated]
  | cons field rest ih =>
    rw [addRelated, ih fun other ho => h other (List.mem_cons_of_mem field ho)]
    cases hvalue : relatedValue? t row field with
    | none => rfl
    | some value =>
      exact Members.get?_insert_of_ne columns value
        (h field List.mem_cons_self (relationship?_of_relatedValue? t hvalue))

/-- A read fetches every column of the ordering, unless related rows are
shown under its name. -/
theorem get?_fetchRow {plan : QueryPlan} {key : OrderKey} (hkey : key ∈ plan.pagination.order)
    (h : ∀ field ∈ plan.mask.fields, field.relationship?.isSome → field.column ≠ key.column)
    (row : Json) :
    (t.fetchRow plan row).get? key.column = some ((row.get? key.column).getD .null) := by
  rw [fetchRow, Json.get?, get?_addRelated t h]
  apply get?_project
  exact List.mem_append_right _ (List.mem_map.2 ⟨key, hkey, rfl⟩)

end Tables

end RoleQuery
