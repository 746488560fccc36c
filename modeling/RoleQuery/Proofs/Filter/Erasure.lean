import RoleQuery.Proofs.Filter.Correctness
import RoleQuery.Proofs.Filter.Parallel
import RoleQuery.Proofs.Statement.Outline

/-!
# Filters without their operands

The compilation of a filter looks at an operand in three places: a null drops the comparison,
the operand of a test for null decides its sense, and an operand that does not suit its
operator is an error. In a valid filter the last does not occur. So a valid filter compiles to
the predicate of its erasure, up to the operands of the comparisons: under the same aliases,
to the same traversals, each carried out in the same way.
-/
namespace RoleQuery

namespace Filter

mutual

/-- A filter without its operands. Whether an operand is null is left, and what
a test for null asks. -/
def erase : Filter → Filter
  | .scalar field op operand => .scalar field op (if op = .isNull then operand else operand.erase)
  | .object field children => .object field (eraseAll children)
  | .element field children => .element field (eraseAll children)
  | .group fields allOf anyOf => .group (eraseAll fields) (eraseList allOf) (eraseList anyOf)
termination_by structural x => x

def eraseAll : List Filter → List Filter
  | [] => []
  | x :: rest => erase x :: eraseAll rest
termination_by structural xs => xs

def eraseList : Option (List Filter) → Option (List Filter)
  | none => none
  | some xs => some (eraseAll xs)
termination_by structural xs => xs

end

mutual

/-- The paths that a filter navigates do not depend on its operands. -/
theorem navigations_erase (path : String) :
    (x : Filter) → x.erase.navigations path = x.navigations path
  | .scalar _ _ _ => rfl
  | .object field children | .element field children =>
    congrArg (extendPath path field :: ·) (navigationsAll_eraseAll _ children)
  | .group fields allOf anyOf => by
    rw [erase, navigations, navigations, navigationsAll_eraseAll path fields,
      navigationsList_eraseList path allOf, navigationsList_eraseList path anyOf]
termination_by structural x => x

theorem navigationsAll_eraseAll (path : String) :
    (xs : List Filter) → navigationsAll path (eraseAll xs) = navigationsAll path xs
  | [] => rfl
  | x :: rest => by
    rw [eraseAll, navigationsAll, navigationsAll, navigations_erase path x,
      navigationsAll_eraseAll path rest]
termination_by structural xs => xs

theorem navigationsList_eraseList (path : String) :
    (xs : Option (List Filter)) → navigationsList path (eraseList xs) = navigationsList path xs
  | none => rfl
  | some xs => navigationsAll_eraseAll path xs
termination_by structural xs => xs

end

theorem eraseAll_eq_map (xs : List Filter) : eraseAll xs = xs.map erase := by
  induction xs with
  | nil => rfl
  | cons x rest ih => rw [eraseAll, List.map_cons, ih]

theorem eraseList_eq_map (list : Option (List Filter)) :
    eraseList list = list.map (List.map erase) := by
  cases list with
  | none => rfl
  | some xs => exact congrArg some (eraseAll_eq_map xs)

/-- A filter that is valid for some owner of its members. -/
def ValidSomewhere (catalog : Catalog) (x : Filter) : Prop :=
  ∃ entity path, x.validateNode catalog entity path = .ok ()

theorem validSomewhere_of_validateAll {catalog : Catalog} {entity : Option Entity} {path : String}
    {xs : List Filter} (h : validateAll catalog entity path xs = .ok ()) :
    ∀ x ∈ xs, ValidSomewhere catalog x := by
  induction xs with
  | nil => exact List.forall_mem_nil _
  | cons x rest ih =>
    rw [validateAll, Except.check_bind_eq_ok_iff] at h
    exact List.forall_mem_cons.2 ⟨⟨_, _, h.1⟩, ih h.2⟩

theorem validSomewhere_of_validateList {catalog : Catalog} {entity : Option Entity} {path : String}
    {list : Option (List Filter)} (h : validateList catalog entity path list = .ok ()) :
    ∀ xs ∈ list, ∀ x ∈ xs, ValidSomewhere catalog x := by
  rintro xs ⟨⟩
  exact validSomewhere_of_validateAll h

/-- Erasure is applied to the members, which are valid if the whole is. -/
theorem memberwise_erase (catalog : Catalog) : Memberwise erase (ValidSomewhere catalog) where
  object _ children := by rw [erase, eraseAll_eq_map]
  element _ children := by rw [erase, eraseAll_eq_map]
  group _ _ _ := by rw [erase, eraseAll_eq_map, eraseList_eq_map, eraseList_eq_map]
  ofObject := by
    rintro _ _ ⟨_, _, h⟩
    rw [validateNode, Except.check_bind_eq_ok_iff] at h
    exact validSomewhere_of_validateAll h.2
  ofElement := by
    rintro _ _ ⟨_, _, h⟩
    rw [validateNode, Except.check_bind_eq_ok_iff] at h
    exact validSomewhere_of_validateAll h.2
  ofGroup := by
    rintro _ _ _ ⟨_, _, h⟩
    rw [validateNode, Except.check_bind_eq_ok_iff, Except.check_bind_eq_ok_iff] at h
    exact ⟨validSomewhere_of_validateAll h.1, validSomewhere_of_validateList h.2.1,
      validSomewhere_of_validateList h.2.2⟩

end Filter

namespace Predicate

@[simp] theorem isLeaf_erase (p : Predicate) : p.erase.isLeaf = p.isLeaf := by
  cases p <;> rfl

@[simp] theorem isSingleLeaf_erase (p : Predicate) : p.erase.isSingleLeaf = p.isSingleLeaf := by
  cases p with
  | not inner => exact isLeaf_erase inner
  | _ => rfl

theorem termwise_erase : Termwise erase where
  const _ := rfl
  and ps := congrArg Predicate.and (eraseAll_eq_map ps)
  or ps := congrArg Predicate.or (eraseAll_eq_map ps)
  isAlwaysFalse p := by cases p <;> rfl

/-- How a traversal is carried out does not depend on the operands below it. -/
theorem erase_ofTraversal (frame : Frame) (navigations : List String) (field : String) (a : Alias)
    (link : Option Link) (inner : Predicate) :
    (ofTraversal frame navigations field a link inner).erase =
      ofTraversal frame navigations field a link inner.erase := by
  rw [ofTraversal, ofTraversal, erase, loweringOf, loweringOf, isSingleLeaf_erase]

/-- An operand that is not null suits every operator but the test for
null when it is erased. -/
theorem check_text {op : Operator} (hop : op ≠ .isNull) : op.check (.text "") = .ok () := by
  cases op with
  | isNull => exact absurd rfl hop
  | _ => rfl

/-- The predicate of a comparison does not depend on an operand that suits its operator. -/
theorem erase_ofScalar (frame : Frame) (field : String) {op : Operator} {operand : Value}
    (hcheck : op.check operand = .ok ()) :
    (ofScalar frame field op (if op = .isNull then operand else operand.erase)).map
        (Option.map erase) = (ofScalar frame field op operand).map (Option.map erase) := by
  by_cases hop : op = .isNull
  · rw [if_pos hop]
  · rw [if_neg hop, ofScalar, ofScalar, Value.isNull_erase]
    by_cases hnull : operand.isNull
    · rw [if_pos hnull, if_pos hnull]
    · rw [if_neg hnull, if_neg hnull, Value.erase, if_neg hnull, check_text hop, hcheck]
      cases op with
      | isNull => exact absurd rfl hop
      | _ => rfl

variable {catalog : Catalog} {navigations : List String}

/-- Without its operands a valid filter is compiled alike, under the same aliases. -/
theorem parallel_erase : Parallel catalog navigations navigations (· = ·) (· = ·) Filter.erase
    (Filter.ValidSomewhere catalog) erase erase where
  memberwise := Filter.memberwise_erase catalog
  termwise := termwise_erase
  termwise' := termwise_erase
  fresh a a' h := by rw [h]
  relationship? h := by rw [h]
  row h ha := by rw [h, ha]
  document h := by rw [h]
  alternatives h := by rw [h]
  scalar {frame frame' field op operand} h hvalid := by
    obtain ⟨entity, path, hvalid⟩ := hvalid
    rw [Filter.validateNode] at hvalid
    obtain rfl : frame = frame' := h
    rw [Filter.erase, ofNode, ofNode]
    exact Compilation.matches_liftExcept (Except.agree_iff_map_eq.2
      (erase_ofScalar frame field (Filter.check_of_validateScalar hvalid)))
  traversal {frame frame' field a a' link p p'} h ha hp := by
    rw [h, ha, erase_ofTraversal, erase_ofTraversal, hp]

variable {e : Entity} {f : Filter}

/-- A valid filter is compiled alike without its operands. -/
theorem matches_erase (allowJoins : Bool) (h : f.validate catalog e = .ok ()) :
    Compilation.Matches (· = ·) (fun p p' => erase p = erase p')
      (compile catalog e allowJoins f.erase) (compile catalog e allowJoins f) := by
  rw [compile_eq, compile_eq, Filter.navigations_erase]
  refine (parallel_erase.ofNode rfl f ⟨_, _, h⟩).bind_pure fun p p' hp => ?_
  cases p <;> cases p' <;> simp_all

/-- The predicate of a valid filter is that of its erasure, up to the operands. -/
theorem erase_ofFilter (h : f.validate catalog e = .ok ()) (start : Alias) :
    (ofFilter catalog e f.erase start).2 = (ofFilter catalog e f start).2 ∧
      (ofFilter catalog e f.erase start).1.map erase = (ofFilter catalog e f start).1.map erase :=
  have hmatches := matches_erase true h (firstAlias start) _ rfl
  ⟨hmatches.1, Except.agree_iff_map_eq.1 hmatches.2⟩

end Predicate

end RoleQuery
