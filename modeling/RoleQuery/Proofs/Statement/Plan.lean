import RoleQuery.Proofs.Predicate.Written
import RoleQuery.Proofs.Tables.Fetching

/-!
# Plans and their conditions

The plan of an accepted read has a predicate that was compiled from a filter, and a position
with a value for each key of its ordering. Two such plans whose statements have one condition
and the same joins ask for the same rows.
-/
namespace RoleQuery

/-- A plan with a predicate that was compiled from a filter, and with a position that fits its
ordering. -/
structure QueryPlan.Sound (plan : QueryPlan) : Prop where
  predicate : ∀ p ∈ plan.predicate, p.Scoped .root true
  position : ∀ values, plan.pagination.continuation = .after values →
    values.length = plan.pagination.order.length

namespace Pagination

theorem length_of_matchFields {fields : List CursorField} {order : List OrderKey}
    {values : List Value} (hlength : fields.length = order.length)
    (h : matchFields fields order = .ok values) : values.length = order.length := by
  induction fields generalizing order values with
  | nil =>
    cases order with
    | nil =>
      cases h
      rfl
    | cons key keys => cases hlength
  | cons f fields ih =>
    cases order with
    | nil => cases hlength
    | cons key keys =>
      rw [matchFields] at h
      split at h
      · obtain ⟨rest, hrest, rfl⟩ := Except.map_eq_ok_iff.1 h
        rw [List.length_cons, List.length_cons, ih (Nat.succ.inj hlength) hrest]
      · cases h

/-- A position that is resolved has a value for each key. -/
theorem length_of_resolveContinuation {e : Entity} {order : List OrderKey} {cursor : Option String}
    {values : List Value} (h : resolveContinuation e order cursor = .ok (.after values)) :
    values.length = order.length := by
  cases cursor with
  | none => cases h
  | some cursor =>
    obtain ⟨payload, -, h⟩ := Except.bind_eq_ok_iff.1 h
    split at h
    · obtain ⟨matched, hmatched, heq⟩ := Except.map_eq_ok_iff.1 h
      cases heq
      rw [matchKeyset] at hmatched
      split at hmatched
      · cases hmatched
      · rename_i hlength
        exact length_of_matchFields (not_not.1 hlength) hmatched
    · cases h
    · cases h

end Pagination

namespace Catalog

variable {catalog : Catalog} {request : ReadRequest} {caller : Caller} {plan : QueryPlan}

/-- A planned read is sound. -/
theorem sound_of_planRead (h : catalog.planRead request caller = .ok plan) : plan.Sound := by
  obtain ⟨e, filter, authorized, predicate, pagination, hentity, -, -, hpredicate, hpagination,
    rfl⟩ := planRead_eq_ok_iff.1 h
  refine ⟨fun p hp => ?_, fun values hvalues => ?_⟩
  · cases hfilter : authorized.filter with
    | none =>
      rw [hfilter] at hpredicate
      cases hpredicate
      cases hp
    | some f =>
      rw [hfilter] at hpredicate
      obtain ⟨compiled, hcompiled, rfl⟩ := Except.map_eq_ok_iff.1 hpredicate
      cases hp
      exact Predicate.scoped_ofFilter hcompiled
  · have hcontinuation := Pagination.continuation_of_resolve hpagination
    rw [hvalues] at hcontinuation
    exact Pagination.length_of_resolveContinuation hcontinuation

end Catalog

namespace QueryPlan

variable {Atom Head : Type} {d : Dialect Atom Head} {t : Tables} {apart : Alias → Prop}
  {plan plan' : QueryPlan}

/-- The traversals that a plan joins. -/
def joins (plan : QueryPlan) : List Traversal := (plan.predicate.map Predicate.joins).getD []

/-- No joined row has the alias that stands for the root. Aliases are given away from one on,
so that zero is given only after all others. -/
def JoinsApart (plan : QueryPlan) : Prop := ∀ via ∈ plan.joins, via.binder ≠ 0

/-- The condition of a sound plan is a regular one. -/
theorem regular_condition {okAtom : Atom → Prop} {okHead : Head → Prop}
    (hd : d.Writes okAtom okHead) (hplan : plan.Sound)
    {condition : Option (Condition Atom Head)}
    (h : plan.predicate.mapM (Condition.ofPredicate d) = .ok condition) :
    ∀ c ∈ condition, c.Regular okAtom okHead := by
  intro c hc
  cases hp : plan.predicate with
  | none =>
    rw [hp] at h
    cases h
    cases hc
  | some p =>
    rw [hp] at h
    obtain ⟨c', hc', rfl⟩ := Except.mapM_some_eq_ok h
    obtain rfl := Option.some.inj hc
    exact Predicate.regular_of_ofPredicate hd p (hplan.predicate p hp) hc'

/-- Sound plans with one condition and the same joins ask for the same rows. -/
theorem asks_eq (hd : d.Tells t.resolver apart) (hplan : plan.Sound) (hplan' : plan'.Sound)
    (hapart : ∀ via ∈ plan.joins, apart via.binder)
    (hapart' : ∀ via ∈ plan'.joins, apart via.binder) {condition : Option (Condition Atom Head)}
    {joins : List Head}
    (hcondition : plan.predicate.mapM (Condition.ofPredicate d) = .ok condition)
    (hcondition' : plan'.predicate.mapM (Condition.ofPredicate d) = .ok condition)
    (hjoins : plan.joins.mapM d.ofTraversal = .ok joins)
    (hjoins' : plan'.joins.mapM d.ofTraversal = .ok joins) (row : Json) :
    t.asks plan row = t.asks plan' row := by
  cases hp : plan.predicate with
  | none =>
    cases hp' : plan'.predicate with
    | none => rw [Tables.asks, Tables.asks, hp, hp']
    | some p' =>
      rw [hp] at hcondition
      rw [hp'] at hcondition'
      cases hcondition
      obtain ⟨c, -, hnone⟩ := Except.mapM_some_eq_ok hcondition'
      cases hnone
  | some p =>
    rw [hp] at hcondition
    obtain ⟨c, hc, rfl⟩ := Except.mapM_some_eq_ok hcondition
    cases hp' : plan'.predicate with
    | none =>
      rw [hp'] at hcondition'
      cases hcondition'
    | some p' =>
      rw [hp'] at hcondition'
      obtain ⟨c', hc', hsome⟩ := Except.mapM_some_eq_ok hcondition'
      obtain rfl := Option.some.inj hsome
      rw [QueryPlan.joins, hp] at hapart hjoins
      rw [QueryPlan.joins, hp'] at hapart' hjoins'
      have hsame : Predicate.SameJoins d apart p.joins p'.joins [] [] :=
        ⟨hapart, hapart', joins, joins, hjoins, hjoins', rfl⟩
      obtain ⟨heval, -⟩ := Predicate.eval_eq_of_ofPredicate hd (fun _ => rfl) p p'
        (hplan.predicate p hp) (hplan'.predicate p' hp') hc hc' hsame
      rw [Tables.asks, Tables.asks, hp, hp']
      simp only [Predicate.holds, heval]

end QueryPlan

end RoleQuery
