import RoleQuery.Proofs.Access.Policies
import RoleQuery.Proofs.Filter.Parallel
import RoleQuery.Proofs.Service.Statements

/-!
# Policies on written rows

A policy on a written row is compiled like the filter of a read, but without joins. Forbidding
the joins of a frame changes nothing but how the traversals of its own members are carried
out: the aliases are taken in the same order, the faults are found in the same order, and
below a traversal joins are forbidden anyway. So the predicate of a policy is that of the
filter with every join replaced by a sub-query, it is true of the same documents, and no
statement that writes is refused because of joins.
-/
namespace RoleQuery

namespace Predicate

mutual

/-- A predicate with all its traversals as sub-queries. -/
def unjoin : Predicate → Predicate
  | .const b => .const b
  | .leaf path c operand => .leaf path c operand
  | .and terms => .and (unjoinAll terms)
  | .or terms => .or (unjoinAll terms)
  | .not inner => .not (unjoin inner)
  | .traverse _ via inner => .traverse .subquery via (unjoin inner)
termination_by structural p => p

def unjoinAll : List Predicate → List Predicate
  | [] => []
  | p :: rest => unjoin p :: unjoinAll rest
termination_by structural ps => ps

end

theorem unjoinAll_eq_map (ps : List Predicate) : unjoinAll ps = ps.map unjoin := by
  induction ps with
  | nil => rfl
  | cons p rest ih => rw [unjoinAll, List.map_cons, ih]

theorem termwise_unjoin : Termwise unjoin where
  const _ := rfl
  and ps := congrArg Predicate.and (unjoinAll_eq_map ps)
  or ps := congrArg Predicate.or (unjoinAll_eq_map ps)
  isAlwaysFalse p := by cases p <;> rfl

mutual

theorem joins_unjoin : (p : Predicate) → (unjoin p).joins = []
  | .const _ | .leaf _ _ _ | .traverse _ _ _ => rfl
  | .and terms | .or terms => joinsAll_unjoinAll terms
  | .not inner => joins_unjoin inner
termination_by structural p => p

theorem joinsAll_unjoinAll : (ps : List Predicate) → joinsAll (unjoinAll ps) = []
  | [] => rfl
  | p :: rest => by
      rw [unjoinAll, joinsAll, joins_unjoin p, joinsAll_unjoinAll rest, List.append_nil]
termination_by structural ps => ps

end

section Truth

variable {resolve : Resolver} {root : Json}

mutual

/-- How traversals are carried out does not matter to the truth of a predicate. -/
theorem eval_unjoin {bindings : Bindings} :
    (p : Predicate) → eval resolve root bindings (unjoin p) = eval resolve root bindings p
  | .const _ | .leaf _ _ _ => rfl
  | .and terms => congrArg Truth.all (evalAll_unjoinAll terms)
  | .or terms => congrArg Truth.any (evalAll_unjoinAll terms)
  | .not inner => congrArg Truth.not (eval_unjoin inner)
  | .traverse _ via inner => by
    have hinner : ∀ row, eval resolve root ((via.binder, row) :: bindings) (unjoin inner) =
        eval resolve root ((via.binder, row) :: bindings) inner := fun _ => eval_unjoin inner
    simp only [unjoin, eval, hinner]
termination_by structural p => p

theorem evalAll_unjoinAll {bindings : Bindings} :
    (ps : List Predicate) →
      evalAll resolve root bindings (unjoinAll ps) = evalAll resolve root bindings ps
  | [] => rfl
  | p :: rest => by rw [unjoinAll, evalAll, evalAll, eval_unjoin p, evalAll_unjoinAll rest]
termination_by structural ps => ps

end

end Truth

/-! ## Compilation without joins -/

theorem unjoin_ofScalar (frame : Frame) (field : String) (op : Operator) (operand : Value) :
    ofScalar { frame with conjunctive := false } field op operand =
      (ofScalar frame field op operand).map (Option.map unjoin) := by
  change ofScalar frame field op operand = _
  cases h : ofScalar frame field op operand with
  | error error => rfl
  | ok p =>
    rcases ofScalar_cases h with ⟨-, rfl⟩ | ⟨-, c, taken, rfl | rfl⟩ <;> rfl

/-- Where joins are forbidden a traversal is carried out as a sub-query. -/
theorem unjoin_ofTraversal (frame : Frame) (navigations : List String) (field : String) (a : Alias)
    (link : Option Link) (inner : Predicate) :
    ofTraversal { frame with conjunctive := false } navigations field a link (unjoin inner) =
      unjoin (ofTraversal frame navigations field a link inner) := by
  rw [ofTraversal, ofTraversal, unjoin, loweringOf, Bool.false_and, Bool.false_and, Bool.false_and,
    if_neg Bool.false_ne_true]
  rfl

variable {catalog : Catalog} {navigations : List String}

/-- Where joins are forbidden the same is compiled, from the same
aliases, but for the joins. -/
theorem parallel_unjoin : Parallel catalog navigations navigations (· = ·)
    (fun frame frame' => frame = { frame' with conjunctive := false }) (fun x => x) (fun _ => True)
    (fun p => p) unjoin where
  memberwise := Filter.memberwise_id
  termwise := termwise_id
  termwise' := termwise_unjoin
  fresh a a' h := by rw [h]
  relationship? h := by rw [h]; rfl
  row h ha := by rw [h, ha]; rfl
  document h := by rw [h]; rfl
  alternatives h := by rw [h]
  scalar {frame frame' field op operand} h _ := by
    rw [h, ofNode, ofNode, unjoin_ofScalar]
    apply Compilation.matches_liftExcept
    rw [Except.agree_iff_map_eq]
    cases ofScalar frame' field op operand with
    | error error => rfl
    | ok p => cases p <;> rfl
  traversal {frame frame' field a a' link p p'} h ha hp := by
    rw [h, ha, hp, unjoin_ofTraversal]

/-- A policy on a written row fails to compile as the filter of a read does, or is its
predicate without joins. -/
theorem ofWritePolicy_eq_map_unjoin (catalog : Catalog) (e : Entity) (f : Filter) :
    ofWritePolicy catalog e f = (ofFilter catalog e f 1).1.map unjoin := by
  have hmatches : Compilation.Matches (· = ·) (fun p q => p = unjoin q) (compile catalog e false f)
      (compile catalog e true f) := by
    rw [compile_eq, compile_eq]
    have hnear : rootFrame e false = { rootFrame e true with conjunctive := false } := rfl
    refine (parallel_unjoin.ofNode hnear f trivial).bind_pure fun p q hpq => ?_
    rw [Option.map_id'] at hpq
    cases q <;> rw [hpq] <;> rfl
  exact (id_map (f := Except RequestError) _).symm.trans
    (Except.agree_iff_map_eq.1 (hmatches 1 _ rfl).2)

/-- The same documents satisfy a predicate without its joins. -/
theorem holds_unjoin (resolve : Resolver) (p : Predicate) (document : Json) :
    (unjoin p).holds resolve document = p.holds resolve document := by
  rw [holds, holds, eval_unjoin]

/-- The policy of a written row has no joins. -/
theorem joins_of_ofWritePolicy {catalog : Catalog} {e : Entity} {f : Filter} {q : Predicate}
    (h : ofWritePolicy catalog e f = .ok q) : q.joins = [] := by
  rw [ofWritePolicy_eq_map_unjoin] at h
  obtain ⟨p, -, rfl⟩ := Except.map_eq_ok_iff.1 h
  exact joins_unjoin p

end Predicate

namespace Sql

/-- A predicate without joins is not refused for them. -/
theorem ofPolicy_ne_joinedWritePolicy {q : Predicate} (hjoins : q.joins = []) :
    ofPolicy q ≠ .error (.input .joinedWritePolicy) := by
  intro h
  rw [ofPolicy, hjoins, List.isEmpty_nil, if_pos rfl] at h
  have hfault : .input .joinedWritePolicy ∈ Backend.relational.faults q :=
    Predicate.mem_faults_of_ofPredicate q h
  cases Predicate.unsupported_of_mem_faults hfault

/-- A write under a policy without joins is not refused for them. -/
theorem Write.ofPlan_ne_joinedWritePolicy {plan : WritePlan}
    (hjoins : ∀ q ∈ plan.policy, q.joins = []) :
    Write.ofPlan plan ≠ .error (.input .joinedWritePolicy) := by
  have hrestriction : Write.restriction plan ≠ .error (.input .joinedWritePolicy) := by
    cases hpolicy : plan.policy with
    | some q =>
      exact fun h =>
        ofPolicy_ne_joinedWritePolicy (hjoins q hpolicy) (Catalog.ofPolicy_of_restriction hpolicy h)
    | none =>
      intro h
      rw [Write.restriction, hpolicy] at h
      by_cases hkey : plan.key.isEmpty
      · simp only [hkey] at h
        cases h
      · simp only [hkey] at h
        cases h
  intro h
  rw [Write.ofPlan] at h
  cases hop : plan.operation with
  | create =>
    rw [hop] at h
    cases hpolicy : plan.policy with
    | none => rw [hpolicy] at h; cases h
    | some q =>
      rw [hpolicy] at h
      exact ofPolicy_ne_joinedWritePolicy (hjoins q hpolicy) (Except.map_eq_error_iff.1 h)
  | read => rw [hop] at h; cases h
  | update => rw [hop] at h; exact hrestriction (Except.map_eq_error_iff.1 h)
  | delete => rw [hop] at h; exact hrestriction (Except.map_eq_error_iff.1 h)

end Sql

namespace Catalog

variable {catalog : Catalog} {e : Entity}

/-- The policy of a planned write has no joins. -/
theorem joins_of_planWrite {request : WriteRequest} {caller : Caller} {plan : WritePlan}
    (h : catalog.planWrite e request caller = .ok plan) : ∀ q ∈ plan.policy, q.joins = [] := by
  intro q hq
  obtain ⟨f, hf⟩ := exists_policy_of_planWrite h q hq
  exact Predicate.joins_of_ofWritePolicy hf

/-- **A filter fails to compile as a policy on a written row exactly if it fails as the filter
of a read that takes its aliases from the first one on, with the same error, and otherwise the
two differ in the joins of the read alone, which are sub-queries of the policy.** So the
policy has no joins, the same documents satisfy the two, and no statement of a planned write
is refused because of joins. -/
theorem unjoined_of_ofWritePolicy (catalog : Catalog) (e : Entity) (f : Filter) :
    (∀ error, Predicate.ofWritePolicy catalog e f = .error error ↔
      (Predicate.ofFilter catalog e f 1).1 = .error error) ∧
    (∀ q, Predicate.ofWritePolicy catalog e f = .ok q ↔
      ∃ p, (Predicate.ofFilter catalog e f 1).1 = .ok p ∧ q = p.unjoin) ∧
    (∀ p q, (Predicate.ofFilter catalog e f 1).1 = .ok p →
      Predicate.ofWritePolicy catalog e f = .ok q →
      q.joins = [] ∧ Sql.ofPolicy q ≠ .error (.input .joinedWritePolicy) ∧
      ∀ resolve document, q.holds resolve document = p.holds resolve document) ∧
    ∀ request caller plan, catalog.planWrite e request caller = .ok plan →
      plan.statement? ≠ .error (.input .joinedWritePolicy) := by
  have hcompile := Predicate.ofWritePolicy_eq_map_unjoin catalog e f
  refine ⟨fun error => by rw [hcompile, Except.map_eq_error_iff], fun q => ?_, fun p q hp hq => ?_,
    fun request caller plan hplan => ?_⟩
  · rw [hcompile, Except.map_eq_ok_iff]
    exact exists_congr fun p => and_congr_right fun _ => eq_comm
  · have hjoins := Predicate.joins_of_ofWritePolicy hq
    rw [hcompile, hp] at hq
    cases hq
    exact ⟨hjoins, Sql.ofPolicy_ne_joinedWritePolicy hjoins, fun resolve document =>
      Predicate.holds_unjoin resolve p document⟩
  · rw [WritePlan.statement?]
    cases plan.backend with
    | hierarchical =>
      intro h
      cases h
    | relational =>
      exact fun h => Sql.Write.ofPlan_ne_joinedWritePolicy (joins_of_planWrite hplan)
        (Except.map_eq_error_iff.1 h)

/-! ## Poems of one poet -/

def byAda : Filter := .group [.object "poet" [.scalar "name" .eq (.text "Ada")]] none none

/-- The filter is joined into a read, and asked of a written poem as a sub-query. -/
theorem unjoined_of_ofWritePolicy_byAda :
    ∃ catalog, ofConfig anthologyConfig = .ok catalog ∧
      ∃ p q, (Predicate.ofFilter catalog poem byAda 1).1 = .ok p ∧
        Predicate.ofWritePolicy catalog poem byAda = .ok q ∧
        p.display = "JOIN($1 IN poet: $1.name = \"Ada\")" ∧
        q.display = "EXISTS($1 IN poet: $1.name = \"Ada\")" ∧ q = p.unjoin ∧ q.joins = [] ∧
        ∃ plan, catalog.planWrite poem (newPoem [("title", .str "Dust")]) .anonymous = .ok plan ∧
          plan.statement? ≠ .error (.input .joinedWritePolicy) := by
  obtain ⟨catalog, hconfig⟩ : ∃ catalog, ofConfig anthologyConfig = .ok catalog := ⟨_, rfl⟩
  obtain ⟨-, hok, hsame, hplan⟩ := unjoined_of_ofWritePolicy catalog poem byAda
  cases hconfig
  refine ⟨_, rfl, _, _, rfl, rfl, by decide +kernel, by decide +kernel, ?_, ?_, _, rfl, ?_⟩
  · obtain ⟨p, hp, hq⟩ := (hok _).1 rfl
    cases hp
    exact hq
  · exact (hsame _ _ rfl rfl).1
  · exact hplan (newPoem [("title", .str "Dust")]) .anonymous _ rfl

end Catalog

end RoleQuery
