import RoleQuery.Proofs.Predicate.Core
import RoleQuery.Proofs.Sql.Fetch
import RoleQuery.Proofs.Statement.Plan

/-!
# What a backend cannot express

A predicate has no statement if a backend cannot express one of its comparisons or traversals:
tables hold no nested values, and documents have no relationships. These faults are read off
the predicate. They do not depend on the names of its rows or on the way its traversals are
carried out, so a filter that is restricted by another has the faults of both and no others.
-/
namespace RoleQuery

/-- Why a computation fails, if it does. -/
def causes {α : Type} : Except RequestError α → List RequestError
  | .error error => [error]
  | .ok _ => []

theorem causes_eq_nil_iff {α : Type} {x : Except RequestError α} :
    causes x = [] ↔ ∃ a, x = .ok a := by
  cases x <;> simp [causes]

@[simp] theorem causes_map {α β : Type} (x : Except RequestError α) (f : α → β) :
    causes (x.map f) = causes x := by
  cases x <;> rfl

/-- What is made of two results is no cause of a failure. -/
theorem causes_bind_bind {α β γ : Type} (x : Except RequestError α) (y : Except RequestError β)
    (g : α → β → γ) :
    causes (do return g (← x) (← y)) = causes (do return ((← x), (← y)) : Except _ (α × β)) := by
  cases x with
  | error error => rfl
  | ok a => cases y <;> rfl

variable {Atom Head : Type}

/-- Whether a comparison or a traversal can be expressed does not depend
on the names of rows. -/
structure Dialect.Nameless (d : Dialect Atom Head) : Prop where
  leaf : ∀ path c operand,
    causes (d.ofLeaf ⟨.root, path.segments⟩ c operand) = causes (d.ofLeaf path c operand)
  traversal : ∀ via,
    causes (d.ofTraversal ⟨0, .root, via.path, via.link⟩) = causes (d.ofTraversal via)

theorem Sql.nameless_dialect : Sql.dialect.Nameless where
  leaf path c operand := by
    change causes (Sql.ofLeaf _ c operand) = causes (Sql.ofLeaf path c operand)
    rw [Sql.ofLeaf, Sql.ofLeaf]
    rcases path.segments with _ | ⟨name, _ | ⟨inner, rest⟩⟩
    · rfl
    · cases c <;> rfl
    · rfl
  traversal via := by
    change causes ((Sql.requireLink _).map _) = causes ((Sql.requireLink via).map _)
    rw [causes_map, causes_map]
    rfl

theorem DocumentQuery.nameless_dialect : DocumentQuery.dialect.Nameless where
  leaf _ _ _ := rfl
  traversal via := by
    change causes (DocumentQuery.elementsOf _) = causes (DocumentQuery.elementsOf via)
    rw [DocumentQuery.elementsOf, DocumentQuery.elementsOf]
    cases via.link <;> rfl

namespace Predicate

open Condition (ofPredicate ofPredicates)

mutual

/-- What a dialect cannot express of a predicate, in the order of its parts. -/
def faults (d : Dialect Atom Head) : Predicate → List RequestError
  | .const _ => []
  | .leaf path c operand => causes (d.ofLeaf path c operand)
  | .and terms | .or terms => faultsAll d terms
  | .not inner => faults d inner
  | .traverse _ via inner => causes (d.ofTraversal via) ++ faults d inner
termination_by structural p => p

def faultsAll (d : Dialect Atom Head) : List Predicate → List RequestError
  | [] => []
  | p :: rest => faults d p ++ faultsAll d rest
termination_by structural ps => ps

end

variable {d : Dialect Atom Head}

theorem gathers_faults : Gathers (faults d) (faultsAll d) where
  nil := rfl
  cons _ _ := rfl
  const _ := rfl
  and _ := rfl
  or _ := rfl

/-- A conjunction of one term has its faults, also if it is cut short. -/
theorem faults_allTerms_singleton (p : Predicate) : faults d (allTerms [p]) = faults d p := by
  rw [allTerms]
  split
  · next h =>
    cases p with
    | const b => rfl
    | _ => cases h
  · rfl

mutual

/-- The faults of a predicate are those of its core. -/
theorem faults_core (hd : d.Nameless) : (p : Predicate) → faults d p.core = faults d p
  | .const _ => rfl
  | .leaf path c operand => hd.leaf path c operand
  | .and terms | .or terms => faultsAll_coreAll hd terms
  | .not inner => faults_core hd inner
  | .traverse _ via inner => by
    rw [core, faults, faults, hd.traversal via, faults_core hd inner]
termination_by structural p => p

theorem faultsAll_coreAll (hd : d.Nameless) :
    (ps : List Predicate) → faultsAll d (coreAll ps) = faultsAll d ps
  | [] => rfl
  | p :: rest => by rw [coreAll, faultsAll, faultsAll, faults_core hd p, faultsAll_coreAll hd rest]
termination_by structural ps => ps

end

/-! ## Faults and statements -/

mutual

/-- A predicate without a condition has the fault that it fails with. -/
theorem mem_faults_of_ofPredicate {error : RequestError} : (p : Predicate) →
    ofPredicate d p = .error error → error ∈ faults d p
  | .const _, h => nomatch h
  | .leaf path c operand, h => by
    rw [faults, Except.map_eq_error_iff.1 h]
    exact List.mem_singleton_self error
  | .and terms, h | .or terms, h =>
      mem_faultsAll_of_ofPredicates terms (Except.map_eq_error_iff.1 h)
  | .not inner, h => mem_faults_of_ofPredicate inner (Except.map_eq_error_iff.1 h)
  | .traverse .subquery via inner, h => by
    rw [faults]
    rcases Except.bind_eq_error_iff.1 h with hhead | ⟨head, -, h⟩
    · rw [hhead]
      exact List.mem_cons_self
    · rcases Except.bind_eq_error_iff.1 h with hinner | ⟨c, -, h⟩
      · exact List.mem_append_right _ (mem_faults_of_ofPredicate inner hinner)
      · cases h
  | .traverse .join via inner, h =>
    List.mem_append_right _ (mem_faults_of_ofPredicate inner h)
termination_by structural p => p

theorem mem_faultsAll_of_ofPredicates {error : RequestError} : (ps : List Predicate) →
    ofPredicates d ps = .error error → error ∈ faultsAll d ps
  | [], h => nomatch h
  | p :: rest, h => by
    rw [faultsAll]
    rcases Except.bind_eq_error_iff.1 h with hp | ⟨c, -, h⟩
    · exact List.mem_append_left _ (mem_faults_of_ofPredicate p hp)
    · rcases Except.bind_eq_error_iff.1 h with hrest | ⟨cs, -, h⟩
      · exact List.mem_append_right _ (mem_faultsAll_of_ofPredicates rest hrest)
      · cases h
termination_by structural ps => ps

end

mutual

/-- What keeps a traversal from being joined is a fault. -/
theorem causes_subset_of_joins : (p : Predicate) →
    ∀ via ∈ p.joins, causes (d.ofTraversal via) ⊆ faults d p
  | .const _, _, h | .leaf _ _ _, _, h | .traverse .subquery _ _, _, h => nomatch h
  | .and terms, via, h | .or terms, via, h => causes_subset_of_joinsAll terms via h
  | .not inner, via, h => causes_subset_of_joins inner via h
  | .traverse .join first inner, via, h => by
    rcases List.mem_cons.1 h with rfl | h
    · exact List.subset_append_left _ _
    · exact List.subset_append_of_subset_right _ (causes_subset_of_joins inner via h)
termination_by structural p => p

theorem causes_subset_of_joinsAll : (ps : List Predicate) →
    ∀ via ∈ joinsAll ps, causes (d.ofTraversal via) ⊆ faultsAll d ps
  | [], _, h => nomatch h
  | p :: rest, via, h => by
    rcases List.mem_append.1 h with h | h
    · exact List.subset_append_of_subset_left _ (causes_subset_of_joins p via h)
    · exact List.subset_append_of_subset_right _ (causes_subset_of_joinsAll rest via h)
termination_by structural ps => ps

end

/-- A join that cannot be carried out is a fault. -/
theorem mem_faults_of_joins {p : Predicate} {error : RequestError}
    (h : p.joins.mapM d.ofTraversal = .error error) : error ∈ faults d p := by
  obtain ⟨via, hvia, herror⟩ := Except.exists_of_mapM_eq_error h
  exact causes_subset_of_joins p via hvia (by rw [herror]; exact List.mem_singleton_self _)

mutual

/-- A predicate of which the condition and the joins can be written has no faults. -/
theorem faults_eq_nil {scope : Scope} {joined : Bool} (p : Predicate) (hp : Scoped scope joined p)
    (hjoins : ∀ via ∈ p.joins, causes (d.ofTraversal via) = [])
    {c : Condition Atom Head} (hc : ofPredicate d p = .ok c) : faults d p = [] := by
  match p, hp, hjoins, hc with
  | .const _, _, _, _ => rfl
  | .leaf path cmp operand, _, _, hc =>
    obtain ⟨a, ha, -⟩ := Except.map_eq_ok_iff.1 hc
    exact causes_eq_nil_iff.2 ⟨a, ha⟩
  | .and terms, hp, hjoins, hc | .or terms, hp, hjoins, hc =>
    obtain ⟨cs, hcs, -⟩ := Except.map_eq_ok_iff.1 hc
    exact faultsAll_eq_nil terms hp.2 hjoins hcs
  | .not inner, hp, hjoins, hc =>
    obtain ⟨c, hc, -⟩ := Except.map_eq_ok_iff.1 hc
    exact faults_eq_nil inner hp.2 hjoins hc
  | .traverse .subquery via inner, hp, _, hc =>
    obtain ⟨head, hhead, hc⟩ := Except.bind_eq_ok_iff.1 hc
    obtain ⟨c, hc, -⟩ := Except.bind_eq_ok_iff.1 hc
    have hinner := faults_eq_nil inner hp.2.2.2 (by rw [joins_eq_nil inner hp.2.2.2]; simp) hc
    rw [faults, hinner, causes_eq_nil_iff.2 ⟨head, hhead⟩, List.append_nil]
  | .traverse .join via inner, hp, hjoins, hc =>
    have hinner := faults_eq_nil inner hp.2.2.2 (by rw [joins_eq_nil inner hp.2.2.2]; simp) hc
    rw [faults, hinner, hjoins via List.mem_cons_self, List.append_nil]
termination_by structural p

theorem faultsAll_eq_nil {scope : Scope} {joined : Bool} (ps : List Predicate)
    (hps : ScopedAll scope joined ps)
    (hjoins : ∀ via ∈ joinsAll ps, causes (d.ofTraversal via) = [])
    {cs : List (Condition Atom Head)} (hcs : ofPredicates d ps = .ok cs) : faultsAll d ps = [] := by
  match ps, hps, hjoins, hcs with
  | [], _, _, _ => rfl
  | p :: rest, hps, hjoins, hcs =>
    obtain ⟨c, hc, hcs⟩ := Except.bind_eq_ok_iff.1 hcs
    obtain ⟨cs, hcs, -⟩ := Except.bind_eq_ok_iff.1 hcs
    rw [joinsAll, List.forall_mem_append] at hjoins
    rw [faultsAll, faults_eq_nil p hps.1 hjoins.1 hc, faultsAll_eq_nil rest hps.2 hjoins.2 hcs,
      List.append_nil]
termination_by structural ps

end

/-! ## Restricted filters -/

section Restricted

open Compilation (run_bind)

variable {catalog : Catalog} {e : Entity} {f : Filter} {start : Alias} {p : Predicate}

/-- What a whole filter is compiled to is, names apart, what it is compiled to as a part. -/
theorem map_core_ofFilter (catalog : Catalog) (e : Entity) (f : Filter) (start : Alias)
    (navigations : List String) (next : Alias) :
    (ofFilter catalog e f start).1.map core =
      ((ofNode catalog navigations (rootFrame e true) f).run next).1.map
        fun o => (o.map core).getD alwaysFalse := by
  have hmap : ∀ x : Except RequestError (Option Predicate),
      x.map (fun o => (o.map core).getD alwaysFalse) =
        (x.map (Option.map core)).map fun o => o.getD alwaysFalse := fun x => by cases x <;> rfl
  have hcore :
      ((ofNode catalog (f.navigations "") (rootFrame e true) f).run (firstAlias start)).1.map
          (Option.map core) =
        ((ofNode catalog navigations (rootFrame e true) f).run next).1.map (Option.map core) :=
    map_core_ofNode ⟨rfl, rfl⟩ f _ _
  rw [hmap, ← hcore, ← hmap, ofFilter, compile_eq, run_bind]
  rcases (ofNode catalog (f.navigations "") (rootFrame e true) f).run (firstAlias start)
    with ⟨error | o, n⟩
  · rfl
  · cases o <;> rfl

/-- A filter that does not compile alone does not compile as a part. -/
theorem run_ofNode_error {error : RequestError} (h : (ofFilter catalog e f start).1 = .error error)
    (navigations : List String) (next : Alias) :
    ∃ n, (ofNode catalog navigations (rootFrame e true) f).run next = (.error error, n) := by
  have hcore := map_core_ofFilter catalog e f start navigations next
  rw [h] at hcore
  rcases hrun : (ofNode catalog navigations (rootFrame e true) f).run next with ⟨other | o, n⟩
  · rw [hrun] at hcore
    cases hcore
    exact ⟨n, rfl⟩
  · rw [hrun] at hcore
    cases hcore

/-- A filter has the faults as a part that it has alone. -/
theorem run_ofNode_ok (h : (ofFilter catalog e f start).1 = .ok p) (navigations : List String)
    (next : Alias) :
    ∃ o n, (ofNode catalog navigations (rootFrame e true) f).run next = (.ok o, n) ∧
      ∀ {Atom Head : Type} {d : Dialect Atom Head}, d.Nameless →
        faultsAll d o.toList = faults d p := by
  have hcore := map_core_ofFilter catalog e f start navigations next
  rw [h] at hcore
  rcases hrun : (ofNode catalog navigations (rootFrame e true) f).run next with ⟨other | o, n⟩
  · rw [hrun] at hcore
    cases hcore
  · rw [hrun] at hcore
    refine ⟨o, n, rfl, fun hd => ?_⟩
    rw [← faults_core hd p, Except.ok.inj hcore]
    cases o with
    | none => rfl
    | some q =>
      rw [Option.toList_some, faultsAll, faultsAll, List.append_nil]
      exact (faults_core hd q).symm

/-- Two filters that must both hold: the cause of the first comes first, then that of the
second, and if both compile then together they have the faults of both. -/
theorem faults_ofFilter_conjunction (hf : (ofFilter catalog e f start).1 = .ok p) (g : Filter)
    (start' first : Alias) :
    (∀ error, (ofFilter catalog e g start').1 = .error error →
      (ofFilter catalog e (.conjunction [f, g]) first).1 = .error error) ∧
    ∀ q, (ofFilter catalog e g start').1 = .ok q →
      ∃ r, (ofFilter catalog e (.conjunction [f, g]) first).1 = .ok r ∧
        ∀ {Atom Head : Type} {d : Dialect Atom Head}, d.Nameless →
          faults d r = faults d p ++ faults d q := by
  obtain ⟨o, n, hrun, hfaults⟩ :=
    run_ofNode_ok hf ((Filter.conjunction [f, g]).navigations "") (firstAlias first)
  refine ⟨fun error hg => ?_, fun q hg => ?_⟩
  · obtain ⟨n', hrun'⟩ := run_ofNode_error hg ((Filter.conjunction [f, g]).navigations "") n
    rw [ofFilter, compile_conjunction, run_bind, hrun]
    simp only [run_bind, hrun']
  · obtain ⟨o', n', hrun', hfaults'⟩ :=
      run_ofNode_ok hg ((Filter.conjunction [f, g]).navigations "") n
    refine ⟨allTerms [all (o.toList ++ o'.toList)], ?_, fun hd => ?_⟩
    · rw [ofFilter, compile_conjunction, run_bind, hrun]
      simp only [run_bind, hrun']
      rfl
    · rw [faults_allTerms_singleton, gathers_faults.all, gathers_faults.append, hfaults hd,
        hfaults' hd]

end Restricted

end Predicate

/-! ## Plans -/

/-- What the statements of a backend cannot express of a predicate. -/
def Backend.faults (b : Backend) (p : Predicate) : List RequestError :=
  match b with
  | .relational => p.faults Sql.dialect
  | .hierarchical => p.faults DocumentQuery.dialect

namespace Sql

mutual

/-- Whether the related rows of a field can be fetched does not depend
on the names of tables. -/
theorem exists_relatedDocuments {parent : String} {next : Alias} (field : MaskedField)
    (parent' : String) (next' : Alias) (h : ∃ r, relatedDocuments parent field next = .ok r) :
    ∃ r, relatedDocuments parent' field next' = .ok r := by
  match field, h with
  | .plain name output column relationship, ⟨_, h⟩ => cases h
  | .nested name output column none entity object fields, ⟨_, h⟩ => cases h
  | .nested name output column (some r) entity none fields, ⟨_, h⟩ => cases h
  | .nested name output column (some r) entity (some object) fields, ⟨_, h⟩ =>
    rw [relatedDocuments] at h
    obtain ⟨table, between, -, h⟩ := naming_bind_eq_ok_iff.1 h
    obtain ⟨children, last, hchildren, -⟩ := naming_bind_eq_ok_iff.1 h
    obtain ⟨⟨children', last'⟩, hchildren'⟩ :=
      exists_relatedChildren fields (aliasName next') (next' + 1) ⟨_, hchildren⟩
    rw [relatedDocuments]
    exact ⟨_, naming_bind_eq_ok_iff.2 ⟨aliasName next', next' + 1, rfl,
      naming_bind_eq_ok_iff.2 ⟨children', last', hchildren', rfl⟩⟩⟩
termination_by structural field

theorem exists_relatedChildren {parent : String} {next : Alias} (fields : List MaskedField)
    (parent' : String) (next' : Alias) (h : ∃ r, relatedChildren parent fields next = .ok r) :
    ∃ r, relatedChildren parent' fields next' = .ok r := by
  match fields, h with
  | [], _ => exact ⟨_, rfl⟩
  | field :: rest, ⟨_, h⟩ =>
    rw [relatedChildren] at h ⊢
    split at h
    · next hr =>
      obtain ⟨child, between, hchild, h⟩ := naming_bind_eq_ok_iff.1 h
      obtain ⟨others, last, hothers, -⟩ := naming_bind_eq_ok_iff.1 h
      obtain ⟨⟨child', between'⟩, hchild'⟩ :=
        exists_relatedDocuments field parent' next' ⟨_, hchild⟩
      obtain ⟨⟨others', last'⟩, hothers'⟩ :=
        exists_relatedChildren rest parent' between' ⟨_, hothers⟩
      rw [if_pos hr]
      exact ⟨_, naming_bind_eq_ok_iff.2 ⟨child', between', hchild',
        naming_bind_eq_ok_iff.2 ⟨others', last', hothers', rfl⟩⟩⟩
    · next hr =>
      rw [if_neg hr]
      exact exists_relatedChildren rest parent' next' ⟨_, h⟩
termination_by structural fields

end

end Sql

namespace QueryPlan

variable {plan : QueryPlan} {d : Dialect Atom Head}

/-- The related rows that a plan shows can be fetched. -/
def Shows (plan : QueryPlan) : Prop :=
  match plan.backend with
  | .relational => ∃ r, Sql.relatedChildren Sql.rootName plan.mask.fields 1 = .ok r
  | .hierarchical => plan.mask.relationships.isEmpty

/-- The joins and the condition of a plan. -/
def conditionOf (d : Dialect Atom Head) (plan : QueryPlan) :
    Except RequestError (List Head × Option (Condition Atom Head)) := do
  let joins ← plan.joins.mapM d.ofTraversal
  let condition ← plan.predicate.mapM (Condition.ofPredicate d)
  return (joins, condition)

/-- What the backend of a plan cannot express of its predicate. -/
def faults (plan : QueryPlan) : List RequestError :=
  (plan.predicate.map plan.backend.faults).getD []

/-- The joins and the condition fail with a fault of the predicate. -/
theorem causes_conditionOf_subset (d : Dialect Atom Head) (plan : QueryPlan) :
    causes (plan.conditionOf d) ⊆ (plan.predicate.map (·.faults d)).getD [] := by
  rw [conditionOf, joins]
  cases plan.predicate with
  | none => exact List.nil_subset _
  | some p =>
    rw [Option.map_some, Option.getD_some, Option.map_some, Option.getD_some, Option.mapM_some]
    intro error herror
    cases hjoins : p.joins.mapM d.ofTraversal with
    | error other =>
      rw [hjoins] at herror
      obtain rfl := List.mem_singleton.1 herror
      exact Predicate.mem_faults_of_joins hjoins
    | ok joins =>
      cases hc : Condition.ofPredicate d p with
      | error other =>
        rw [hjoins, hc] at herror
        obtain rfl := List.mem_singleton.1 herror
        exact Predicate.mem_faults_of_ofPredicate p hc
      | ok c =>
        rw [hjoins, hc] at herror
        cases herror

/-- The joins and the condition of a sound plan do not fail if and only if its
predicate has no faults. -/
theorem causes_conditionOf_eq_nil_iff (hplan : plan.Sound) :
    causes (plan.conditionOf d) = [] ↔ (plan.predicate.map (·.faults d)).getD [] = [] := by
  refine ⟨fun h => ?_, fun h => List.subset_nil.1 (h ▸ causes_conditionOf_subset d plan)⟩
  obtain ⟨⟨heads, condition⟩, h⟩ := causes_eq_nil_iff.1 h
  obtain ⟨_, hjoins, h⟩ := Except.bind_eq_ok_iff.1 h
  obtain ⟨_, hcondition, -⟩ := Except.bind_eq_ok_iff.1 h
  cases hp : plan.predicate with
  | none => rfl
  | some p =>
    rw [joins, hp] at hjoins
    rw [hp] at hcondition
    obtain ⟨c, hc, -⟩ := Except.mapM_some_eq_ok hcondition
    refine p.faults_eq_nil (hplan.predicate p hp) (fun via hvia => ?_) hc
    obtain ⟨head, -, hhead⟩ := Except.exists_mem_of_mapM hjoins hvia
    exact causes_eq_nil_iff.2 ⟨head, hhead⟩

/-- A plan with a statement can fetch the related rows that it shows. -/
theorem shows_of_statement {s : Statement} (h : plan.statement = .ok s) : plan.Shows := by
  rw [statement] at h
  rw [Shows]
  cases hbackend : plan.backend with
  | relational =>
    rw [hbackend] at h
    obtain ⟨select, hselect, -⟩ := Except.map_eq_ok_iff.1 h
    obtain ⟨children, next, -, -, hchildren, -⟩ := Sql.Select.ofPlan_eq_ok hselect
    exact Sql.exists_relatedChildren _ _ _ ⟨_, hchildren⟩
  | hierarchical =>
    rw [hbackend] at h
    obtain ⟨select, hselect, -⟩ := Except.map_eq_ok_iff.1 h
    rw [DocumentQuery.Select.ofPlan] at hselect
    split at hselect
    · cases hselect
    · next hempty => simpa using hempty

/-- The statement of a plan that can fetch what it shows fails if its
joins or its condition do. -/
theorem causes_statement (hshows : plan.Shows) :
    causes plan.statement = match plan.backend with
      | .relational => causes (plan.conditionOf Sql.dialect)
      | .hierarchical => causes (plan.conditionOf DocumentQuery.dialect) := by
  rw [Shows] at hshows
  rw [statement]
  cases hbackend : plan.backend with
  | relational =>
    rw [hbackend] at hshows
    obtain ⟨r, hr⟩ := Sql.exists_relatedChildren _ Sql.rootName (firstAlias plan.nextAlias) hshows
    rw [causes_map, Sql.Select.ofPlan, conditionOf, joins]
    change causes
      (Sql.relatedChildren Sql.rootName plan.mask.fields (firstAlias plan.nextAlias) >>= _) = _
    rw [hr]
    exact causes_bind_bind _ _ _
  | hierarchical =>
    rw [hbackend] at hshows
    rw [causes_map, DocumentQuery.Select.ofPlan, conditionOf, joins, if_neg (by simpa using hshows)]
    exact causes_bind_bind _ _ _

/-- A sound plan that can fetch what it shows fails with a fault of its predicate, and fails
only if there is one. -/
theorem causes_statement_spec (hplan : plan.Sound) (hshows : plan.Shows) :
    causes plan.statement ⊆ plan.faults ∧ (causes plan.statement = [] ↔ plan.faults = []) := by
  rw [causes_statement hshows, faults]
  cases plan.backend with
  | relational =>
    exact ⟨causes_conditionOf_subset Sql.dialect plan, causes_conditionOf_eq_nil_iff hplan⟩
  | hierarchical =>
    exact ⟨causes_conditionOf_subset DocumentQuery.dialect plan,
      causes_conditionOf_eq_nil_iff hplan⟩

end QueryPlan

end RoleQuery
