import RoleQuery.Proofs.Filter.Compilation
import RoleQuery.Proofs.Predicate.Terms

/-!
# The aliases of a compiled filter

Aliases are taken one after another from a counter, and a traversal takes its own before those
of what it asks of its rows. So the aliases of a predicate, read from the outside in and from
left to right, are part of the run of numbers that its compilation took: no alias occurs twice
as long as the counter has not come round to where it started.
-/
namespace RoleQuery

namespace Predicate

open Compilation

mutual

/-- The aliases of the traversals of a predicate, outer before inner. -/
def binders : Predicate → List Alias
  | .const _ => []
  | .leaf _ _ _ => []
  | .and terms => bindersAll terms
  | .or terms => bindersAll terms
  | .not inner => binders inner
  | .traverse _ via inner => via.binder :: binders inner
termination_by structural p => p

def bindersAll : List Predicate → List Alias
  | [] => []
  | p :: rest => binders p ++ bindersAll rest
termination_by structural ps => ps

end

theorem gathers_binders : Gathers binders bindersAll where
  nil := rfl
  cons _ _ := rfl
  const _ := rfl
  and _ := rfl
  or _ := rfl

@[simp] theorem bindersAll_append (ps qs : List Predicate) :
    bindersAll (ps ++ qs) = bindersAll ps ++ bindersAll qs :=
  gathers_binders.append ps qs

@[simp] theorem bindersAll_singleton (p : Predicate) : bindersAll [p] = binders p :=
  gathers_binders.singleton p

@[simp] theorem binders_all (ps : List Predicate) : binders (all ps) = bindersAll ps :=
  gathers_binders.all ps

@[simp] theorem binders_any (ps : List Predicate) : binders (any ps) = bindersAll ps :=
  gathers_binders.any ps

/-- A conjunction that is cut short has no aliases. -/
theorem binders_allTerms_sublist (ps : List Predicate) :
    (binders (allTerms ps)).Sublist (bindersAll ps) :=
  gathers_binders.allTerms_sublist ps

/-- A comparison takes no alias. -/
theorem bindersAll_ofScalar {frame : Frame} {field : String} {op : Operator} {operand : Value}
    {p : Option Predicate} (h : ofScalar frame field op operand = .ok p) :
    bindersAll p.toList = [] := by
  rcases ofScalar_cases h with ⟨-, rfl⟩ | ⟨-, c, taken, rfl | rfl⟩ <;> rfl

mutual

/-- The joins of a predicate are some of its traversals. -/
theorem joins_sublist_binders :
    (p : Predicate) → ((joins p).map (·.binder)).Sublist (binders p)
  | .const _ => List.nil_sublist _
  | .leaf _ _ _ => List.nil_sublist _
  | .and terms => joinsAll_sublist_bindersAll terms
  | .or terms => joinsAll_sublist_bindersAll terms
  | .not inner => joins_sublist_binders inner
  | .traverse .subquery _ _ => List.nil_sublist _
  | .traverse .join via inner => (joins_sublist_binders inner).cons_cons via.binder
termination_by structural p => p

/-- The joins of several predicates are some of their traversals. -/
theorem joinsAll_sublist_bindersAll :
    (ps : List Predicate) → ((joinsAll ps).map (·.binder)).Sublist (bindersAll ps)
  | [] => List.nil_sublist _
  | p :: rest => by
    rw [joinsAll, bindersAll, List.map_append]
    exact (joins_sublist_binders p).append (joinsAll_sublist_bindersAll rest)
termination_by structural ps => ps

end

/-- A traversal has its own alias before those of what it asks. -/
theorem binders_ofTraversal_sublist {frame : Frame} {navigations : List String} {field : String}
    {a : Alias} {link : Option Link} {terms : List Predicate} {as : List Alias}
    (h : (bindersAll terms).Sublist as) :
    (bindersAll (some (ofTraversal frame navigations field a link (allTerms terms))).toList).Sublist
      (a :: as) := by
  rw [Option.toList_some, bindersAll_singleton, ofTraversal, binders]
  exact ((binders_allTerms_sublist terms).trans h).cons_cons a

theorem bindersAll_of_listed {frame : Frame} {list : Option (List Filter)}
    {ps : Option (List Predicate)} {as : List Alias}
    (h : Listed (fun _ _ ps as => (bindersAll ps).Sublist as) frame list ps as) :
    (bindersAll (ps.getD [])).Sublist as := by
  rcases h.cases with ⟨-, rfl, rfl⟩ | ⟨_, qs, -, rfl, hqs⟩
  · exact List.nil_sublist _
  · exact hqs

/-- Compilation keeps the aliases in the order in which they were taken; those of a
conjunction that cannot hold are left out. -/
theorem composes_binders (catalog : Catalog) (navigations : List String) :
    Composes catalog navigations (fun _ _ p as => (bindersAll p.toList).Sublist as)
      (fun _ _ ps as => (bindersAll ps).Sublist as) where
  scalar hp := by rw [bindersAll_ofScalar hp]
  traversal _ _ hterms := binders_ofTraversal_sublist hterms
  document _ hterms := by
    rw [Option.toList_some, bindersAll_singleton]
    exact (binders_allTerms_sublist _).trans hterms
  group hps hqs hrs := by
    rw [Option.toList_some, bindersAll_singleton]
    refine (gathers_binders.group_sublist _ _ _).trans ?_
    exact hps.append ((bindersAll_of_listed hqs).append (bindersAll_of_listed hrs))
  nil := List.nil_sublist _
  cons hp hps := by
    rw [bindersAll_append]
    exact hp.append hps

/-- The aliases of a compiled filter are among those that its compilation
took, in their order. -/
theorem binders_ofFilter {catalog : Catalog} {e : Entity} {f : Filter} {start : Alias}
    {p : Predicate} (h : (ofFilter catalog e f start).1 = .ok p) :
    p.binders.Sublist (allotted (firstAlias start) (f.traversals catalog (some e))) ∧
      (ofFilter catalog e f start).2 =
        firstAlias start + UInt32.ofNat (f.traversals catalog (some e)) := by
  obtain ⟨hafter, q, rfl, hq⟩ := ((composes_binders catalog _).yields_compile e true).of_run h
  refine ⟨?_, hafter⟩
  cases q with
  | none => exact List.nil_sublist _
  | some q => simpa using hq

/-- The aliases of a compiled filter are distinct: the counter has not come round. -/
theorem nodup_binders {catalog : Catalog} {e : Entity} {f : Filter} {start : Alias} {p : Predicate}
    (h : (ofFilter catalog e f start).1 = .ok p)
    (hcount : f.traversals catalog (some e) ≤ UInt32.size) : p.binders.Nodup :=
  (binders_ofFilter h).1.nodup (nodup_allotted _ hcount)

end Predicate

end RoleQuery
