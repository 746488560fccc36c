import RoleQuery.Access.Policy
import RoleQuery.Proofs.Filter.Truth

/-!
# Claims in policies

A policy may compare a field with a claim of the caller. A claim that the caller does not
carry denies the operation, so a policy that is resolved compares with claims that are there.
The predicate of the resolved policy admits a document only if each comparison at the root of
the policy is true of it, unless the claim is null: a comparison with null is left out of the
predicate, and the rest of the policy decides alone.
-/
namespace RoleQuery

namespace Filter

/-- A filter without the comparisons with null at its root. -/
def withoutNulls : Filter → Filter
  | .group fields allOf anyOf => .group (fields.filter fun f => !f.isNullScalar) allOf anyOf
  | f => f

theorem exists_of_isNullScalar {f : Filter} (h : f.isNullScalar) :
    ∃ field op operand, f = .scalar field op operand ∧ operand.isNull := by
  cases f with
  | scalar field op operand => exact ⟨field, op, operand, rfl, h⟩
  | _ => cases h

theorem navigationsAll_filter (path : String) (fs : List Filter) :
    navigationsAll path (fs.filter fun f => !f.isNullScalar) = navigationsAll path fs := by
  induction fs with
  | nil => rfl
  | cons f rest ih =>
    cases hf : f.isNullScalar with
    | false => rw [List.filter_cons_of_pos (by simp [hf]), navigationsAll, navigationsAll, ih]
    | true =>
      obtain ⟨field, op, operand, rfl, -⟩ := exists_of_isNullScalar hf
      rw [List.filter_cons_of_neg (by simp [hf]), ih, navigationsAll, navigations, List.nil_append]

/-- Several filters are mapped one by one. -/
theorem mapOperandsAll_eq_mapM {ε : Type} (f : Value → Except ε Value) (xs : List Filter) :
    mapOperandsAll f xs = xs.mapM (mapOperands f) := by
  induction xs with
  | nil => rfl
  | cons x rest ih => rw [mapOperandsAll, List.mapM_cons, ih]

/-- What one of several filters says is among what they say. -/
theorem mem_truthsAt {catalog : Catalog} {resolve : Resolver} {entity : Option Entity} {row : Json}
    {document : Option Json} {xs : List Filter} {x : Filter} (hx : x ∈ xs) {t : Truth}
    (ht : x.truthAt catalog resolve entity row document = some t) :
    t ∈ truthsAt catalog resolve entity row document xs := by
  induction xs with
  | nil => cases hx
  | cons first rest ih =>
    rw [truthsAt]
    rcases List.mem_cons.1 hx with rfl | hx
    · exact List.mem_append_left _ (by simp [ht])
    · exact List.mem_append_right _ (ih hx)

end Filter

namespace Predicate

/-- Comparisons with null leave nothing behind when several filters are compiled. -/
theorem ofNodes_filter (catalog : Catalog) (navigations : List String) (frame : Frame)
    (fs : List Filter) :
    ofNodes catalog navigations frame (fs.filter fun f => !f.isNullScalar) =
      ofNodes catalog navigations frame fs := by
  induction fs with
  | nil => rfl
  | cons f rest ih =>
    cases hf : f.isNullScalar with
    | false => rw [List.filter_cons_of_pos (by simp [hf]), ofNodes, ofNodes, ih]
    | true =>
      obtain ⟨field, op, operand, rfl, hnull⟩ := Filter.exists_of_isNullScalar hf
      have hnone : ofNode catalog navigations frame (.scalar field op operand) = pure none := by
        rw [ofNode, ofScalar, if_pos hnull]
        rfl
      rw [List.filter_cons_of_neg (by simp [hf]), ih, ofNodes, hnone]
      simp

/-- A filter is compiled as if it did not compare with null. -/
theorem compile_withoutNulls (catalog : Catalog) (e : Entity) (allowJoins : Bool) (f : Filter) :
    compile catalog e allowJoins f.withoutNulls = compile catalog e allowJoins f := by
  cases f with
  | group fields allOf anyOf =>
    have hnavigations : (Filter.group fields allOf anyOf).withoutNulls.navigations "" =
        (Filter.group fields allOf anyOf).navigations "" := by
      simp only [Filter.withoutNulls, Filter.navigations, Filter.navigationsAll_filter]
    rw [compile, compile, hnavigations, Filter.withoutNulls]
    simp only [ofNode, ofNodes_filter]
  | _ => rfl

/-- The predicate of a filter says of a document what the filter says. -/
theorem eval_eq_of_compile {catalog : Catalog} {e : Entity} {allowJoins : Bool} {f : Filter}
    {start : Alias} {p : Predicate} (h : ((compile catalog e allowJoins f).run start).1 = .ok p)
    (resolve : Resolver) (document : Json) :
    p.eval resolve document [] =
      (f.truthAt catalog resolve (some e) document (some document)).getD (some false) :=
  ((yields_compile catalog e allowJoins f).of_run h).2 resolve document

end Predicate

namespace Policy

/-- The root of a policy compares a field with a claim. -/
def Compares (policy : Filter) (field : String) (op : Operator) (name : String) : Prop :=
  ∃ fields allOf anyOf operand, policy = .group fields allOf anyOf ∧
    Filter.scalar field op operand ∈ fields ∧ claimName? operand = some name

/-- A resolved policy compares the field with the claim of the caller. -/
theorem exists_claim_of_resolve {caller : Caller} {policy p : Filter}
    (hresolve : resolve caller policy = .ok p) {field : String} {op : Operator} {name : String}
    (hcompares : Compares policy field op name) :
    ∃ claim fields allOf anyOf, caller.claim? name = some claim ∧ p = .group fields allOf anyOf ∧
      Filter.scalar field op claim ∈ fields := by
  obtain ⟨fields, allOf, anyOf, operand, rfl, hmem, hname⟩ := hcompares
  rw [resolve, Filter.mapOperands] at hresolve
  obtain ⟨resolved, hfields, hresolve⟩ := Except.bind_eq_ok_iff.1 hresolve
  obtain ⟨allOf', -, hresolve⟩ := Except.bind_eq_ok_iff.1 hresolve
  obtain ⟨anyOf', -, hresolve⟩ := Except.bind_eq_ok_iff.1 hresolve
  cases hresolve
  rw [Filter.mapOperandsAll_eq_mapM] at hfields
  obtain ⟨y, hy, hmap⟩ := Except.exists_mem_of_mapM hfields hmem
  rw [Filter.mapOperands, Except.map_eq_ok_iff] at hmap
  obtain ⟨claim, hclaim, rfl⟩ := hmap
  simp only [resolveOperand, hname] at hclaim
  cases hfound : caller.claim? name with
  | none => simp [hfound] at hclaim
  | some found =>
    rw [hfound] at hclaim
    cases hclaim
    exact ⟨claim, resolved, allOf', anyOf', rfl, rfl, hy⟩

/-- Of a document that the predicate of a policy admits, whether it is one for reads or for
writes, each comparison with a claim at the root of the policy is true unless the claim is
null. The claims are there, and the resolved policy has the predicates that it has without its
comparisons with null. -/
theorem truth_of_holds {caller : Caller} {policy p : Filter}
    (hresolve : resolve caller policy = .ok p) {catalog : Catalog} {e : Entity} {q : Predicate}
    (hcompile : (∃ start, (Predicate.ofFilter catalog e p start).1 = .ok q) ∨
      Predicate.ofWritePolicy catalog e p = .ok q)
    {resolver : Resolver} {document : Json} (hholds : q.holds resolver document) :
    (∀ field op name, Compares policy field op name →
      ∃ claim, caller.claim? name = some claim ∧
        (¬ claim.isNull → op.truth (document.get? (e.column field)) claim = some true)) ∧
      Predicate.ofFilter catalog e p = Predicate.ofFilter catalog e p.withoutNulls ∧
      Predicate.ofWritePolicy catalog e p = Predicate.ofWritePolicy catalog e p.withoutNulls := by
  have hcompiled : ∃ allowJoins start,
      ((Predicate.compile catalog e allowJoins p).run start).1 = .ok q := by
    rcases hcompile with ⟨start, hread⟩ | hwrite
    · exact ⟨true, _, hread⟩
    · exact ⟨false, _, hwrite⟩
  refine ⟨?_, ?_, ?_⟩
  · intro field op name hcompares
    obtain ⟨claim, fields, allOf, anyOf, hclaim, rfl, hmem⟩ :=
      exists_claim_of_resolve hresolve hcompares
    refine ⟨claim, hclaim, fun hnull => ?_⟩
    obtain ⟨allowJoins, start, hrun⟩ := hcompiled
    have htruth := Predicate.eval_eq_of_compile hrun resolver document
    rw [Predicate.holds, beq_iff_eq] at hholds
    rw [hholds, Filter.truthAt, Option.getD_some] at htruth
    -- The comparison is one of the truths of the root, which are all true.
    have hsays : (Filter.scalar field op claim).truthAt catalog resolver (some e) document
        (some document) = some (op.truth (document.get? (e.column field)) claim) := by
      rw [Filter.truthAt, if_neg hnull]
      rfl
    have htrue := List.mem_append_left
      ((Filter.listTruthsAt catalog resolver (some e) document (some document) anyOf).map
        Truth.any).toList
      (List.mem_append_left
        ((Filter.listTruthsAt catalog resolver (some e) document (some document) allOf).map
          Truth.conjunction).toList (Filter.mem_truthsAt hmem hsays))
    rw [Truth.conjunction_of_ne_nil (List.ne_nil_of_mem htrue)] at htruth
    exact Truth.all_eq_true_iff.1 htruth.symm _ htrue
  · funext start
    rw [Predicate.ofFilter, Predicate.ofFilter, Predicate.compile_withoutNulls]
  · rw [Predicate.ofWritePolicy, Predicate.ofWritePolicy, Predicate.compile_withoutNulls]

/-- Memos with an owner and an urgency. -/
def memo : Entity :=
  .ofFields "Memo" "memos" .relational
    [⟨"id", "id", true, .scalar⟩, ⟨"owner", "owner_id", false, .scalar⟩,
      ⟨"urgency", "urgency", false, .scalar⟩]

/-- The urgent memos of the caller. -/
def ownUrgent : Filter :=
  .group [.scalar "owner" .eq (.text "@claims.sub"), .scalar "urgency" .gt (.integer 3)] none none

theorem compares_ownUrgent : Compares ownUrgent "owner" .eq "sub" :=
  ⟨_, _, _, _, rfl, List.mem_cons_self, rfl⟩

/-- A caller who is someone is shown urgent memos that are its own. -/
theorem truth_of_holds_ownUrgent :
    ∃ p q, resolve ⟨"clerk", [("sub", .integer 7)]⟩ ownUrgent = .ok p ∧
      (Predicate.ofFilter ((Catalog.empty .default).addEntity memo) memo p 0).1 = .ok q ∧
      q.holds noRelations (.object [("owner_id", .int 7), ("urgency", .int 5)]) = true ∧
      Operator.eq.truth (some (.int 7)) (.integer 7) = some true := by
  obtain ⟨p, hp⟩ : ∃ p, resolve ⟨"clerk", [("sub", .integer 7)]⟩ ownUrgent = .ok p := ⟨_, rfl⟩
  obtain ⟨q, hq, hholds⟩ : ∃ q,
      (Predicate.ofFilter ((Catalog.empty .default).addEntity memo) memo p 0).1 = .ok q ∧
        q.holds noRelations (.object [("owner_id", .int 7), ("urgency", .int 5)]) = true := by
    cases hp
    exact ⟨_, rfl, rfl⟩
  obtain ⟨htrue, -⟩ := truth_of_holds hp (.inl ⟨0, hq⟩) hholds
  obtain ⟨claim, hclaim, htruth⟩ := htrue "owner" .eq "sub" compares_ownUrgent
  cases hclaim
  exact ⟨p, q, hp, hq, hholds, htruth (by decide)⟩

/-- A caller who is null is shown urgent memos of anybody. -/
theorem holds_ownUrgent_of_null :
    ∃ p q, resolve ⟨"clerk", [("sub", .null)]⟩ ownUrgent = .ok p ∧
      (Predicate.ofFilter ((Catalog.empty .default).addEntity memo) memo p 0).1 = .ok q ∧
      q.holds noRelations (.object [("owner_id", .int 8), ("urgency", .int 5)]) = true ∧
      ¬ ∀ field op name, Compares ownUrgent field op name → op ≠ .isNull →
        ∃ claim, Caller.claim? ⟨"clerk", [("sub", .null)]⟩ name = some claim ∧
          op.truth (Json.get? (.object [("owner_id", .int 8), ("urgency", .int 5)])
            (memo.column field)) claim = some true := by
  refine ⟨_, _, rfl, rfl, rfl, fun hclosed => ?_⟩
  obtain ⟨claim, hclaim, htruth⟩ := hclosed "owner" .eq "sub" compares_ownUrgent (by decide)
  cases hclaim
  exact absurd htruth (by decide)

end Policy

end RoleQuery
