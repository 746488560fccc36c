import RoleQuery.Proofs.Filter.Placement

/-!
# Operands that do not suit

A filter that the parser makes may hold operands that do not suit their operators: the parser
looks at the names of operators and at the kinds of members, not at operands. Over a catalog
whose relationships lead somewhere, such an operand is the only thing that keeps the filter
from having a predicate, for reading or for writing, and the error names it. The check of a
filter finds it too, and rejects besides a relationship that is null.
-/
namespace RoleQuery

namespace Filter

/-- The error of an operand, among the comparisons of some nodes, that does
not suit its operator. -/
def Misfit (nodes : List Filter) (error : RequestError) : Prop :=
  ∃ field op operand fault, scalar field op operand ∈ nodes ∧ op.check operand = .error fault ∧
    error = .input (.operandOn fault field)

theorem Misfit.mono {xs ys : List Filter} {error : RequestError} (h : Misfit xs error)
    (hsub : xs ⊆ ys) : Misfit ys error := by
  obtain ⟨field, op, operand, fault, hmem, hcheck, rfl⟩ := h
  exact ⟨field, op, operand, fault, hsub hmem, hcheck, rfl⟩

/-- An operand that does not suit has an error only if not all suit. -/
theorem Misfit.not_suits {nodes : List Filter} {error : RequestError} (h : Misfit nodes error) :
    ¬ Suits nodes := by
  obtain ⟨field, op, operand, fault, hmem, hcheck, -⟩ := h
  intro hsuits
  cases hcheck.symm.trans (hsuits field op operand hmem)

/-- An outcome that tells whether the operands of some nodes suit. -/
def Judges (nodes : List Filter) : Except RequestError Unit → Prop
  | .ok _ => Suits nodes
  | .error error => Misfit nodes error

section Judges

variable {xs ys : List Filter} {fault rest : Except RequestError Unit}

theorem judges_nil : Judges [] (.ok ()) := suits_nil.2 trivial

/-- What is judged first counts first. -/
theorem Judges.append (h : Judges xs fault) (h' : Judges ys rest) :
    Judges (xs ++ ys) (do fault; rest) := by
  cases fault with
  | error error => exact Misfit.mono h (List.subset_append_left xs ys)
  | ok _ =>
    cases rest with
    | error error => exact Misfit.mono h' (List.subset_append_right xs ys)
    | ok _ => exact suits_append.2 ⟨h, h'⟩

/-- A node that is no comparison has no operand. -/
theorem Judges.cons {x : Filter} (hx : ∀ field op operand, scalar field op operand ≠ x)
    (h : Judges xs fault) : Judges (x :: xs) fault := by
  cases fault with
  | error error => exact Misfit.mono h (List.subset_cons_self x xs)
  | ok _ => exact (suits_cons hx).2 h

theorem judges_scalar (field : String) (op : Operator) (operand : Value) :
    Judges [scalar field op operand] (if operand.isNull then .ok ()
      else (op.check operand).mapError fun fault => .input (.operandOn fault field)) := by
  split
  · rename_i hnull
    -- Every operator takes null.
    cases operand with
    | null => exact suits_scalar.2 rfl
    | _ => cases hnull
  · cases hcheck : op.check operand with
    | error fault => exact ⟨field, op, operand, fault, List.mem_singleton_self _, hcheck, rfl⟩
    | ok _ => exact suits_scalar.2 hcheck

end Judges

section Expressible

variable {catalog : Catalog}

mutual

/-- Whether a filter has a predicate depends on its operands only, if
relationships lead somewhere. -/
theorem judges_expressible (hcat : catalog.TargetsExist) (entity : Option Entity)
    (hentity : ∀ e ∈ entity, e ∈ catalog.entities) :
    (x : Filter) → Judges x.walk (x.expressible catalog entity)
  | .scalar field op operand => by
    rw [walk, expressible]
    exact judges_scalar field op operand
  | .object field children => by
    have hchildren := judges_expressibleAll hcat (nested catalog entity field)
      (fun _ => mem_entities_of_nested) children
    rw [walk, expressible]
    refine Judges.cons (by simp) ?_
    cases hr : relationshipOf entity field with
    | none => exact hchildren
    | some r =>
      simp only [(orDangling_linkOf hentity hr).eq_ok hcat]
      exact hchildren
  | .element field children => by
    have hchildren := judges_expressibleAll hcat (nested catalog entity field)
      (fun _ => mem_entities_of_nested) children
    rw [walk, expressible, (orDangling_linkOf_mapM hentity field).eq_ok hcat]
    exact Judges.cons (by simp) hchildren
  | .group fields allOf anyOf => by
    rw [walk, expressible, List.append_assoc]
    refine Judges.cons (by simp) ?_
    exact (judges_expressibleAll hcat entity hentity fields).append
      ((judges_expressibleList hcat entity hentity allOf).append
        (judges_expressibleList hcat entity hentity anyOf))
termination_by structural x => x

theorem judges_expressibleAll (hcat : catalog.TargetsExist) (entity : Option Entity)
    (hentity : ∀ e ∈ entity, e ∈ catalog.entities) :
    (xs : List Filter) → Judges (walkAll xs) (expressibleAll catalog entity xs)
  | [] => judges_nil
  | x :: rest => by
    rw [walkAll, expressibleAll]
    exact (judges_expressible hcat entity hentity x).append
      (judges_expressibleAll hcat entity hentity rest)
termination_by structural xs => xs

theorem judges_expressibleList (hcat : catalog.TargetsExist) (entity : Option Entity)
    (hentity : ∀ e ∈ entity, e ∈ catalog.entities) :
    (list : Option (List Filter)) → Judges (walkList list) (expressibleList catalog entity list)
  | none => judges_nil
  | some xs => judges_expressibleAll hcat entity hentity xs
termination_by structural list => list

end

end Expressible

/-- A filter that the parser makes passes the check if its operands suit and no
relationship is null. -/
theorem validate_iff_of_ofJson {catalog : Catalog} {e : Entity} {input : Json} {f : Filter}
    (h : ofJson catalog e input = .ok f) :
    f.validate catalog e = .ok () ↔ Suits f.walk ∧ f.NullsOnFields catalog e := by
  rw [validate, validateNode_eq_ok_iff, placed_iff_of_ofJson h, and_comm]

mutual

/-- A replacement that keeps every operand keeps the filter. -/
theorem mapOperands_eq_self {ε : Type} {g : Value → Except ε Value} : (x : Filter) →
    (∀ field op operand, scalar field op operand ∈ x.walk → g operand = .ok operand) →
      x.mapOperands g = .ok x
  | .scalar field op operand, h => by
    rw [mapOperands, h field op operand List.mem_cons_self]
    rfl
  | .object field children, h | .element field children, h => by
    rw [mapOperands, mapOperandsAll_eq_self children fun field op operand hmem =>
      h field op operand (List.mem_cons_of_mem _ hmem)]
    rfl
  | .group fields allOf anyOf, h => by
    have hkeeps {xs : List Filter}
        (hsub : xs ⊆ walkAll fields ++ walkList allOf ++ walkList anyOf) :
        ∀ field op operand, scalar field op operand ∈ xs → g operand = .ok operand :=
      fun field op operand hmem => h field op operand (List.mem_cons_of_mem _ (hsub hmem))
    rw [mapOperands, mapOperandsAll_eq_self fields (hkeeps (by grind)),
      mapOperandsList_eq_self allOf (hkeeps (by grind)),
      mapOperandsList_eq_self anyOf (hkeeps (by grind))]
    rfl
termination_by structural x => x

theorem mapOperandsAll_eq_self {ε : Type} {g : Value → Except ε Value} : (xs : List Filter) →
    (∀ field op operand, scalar field op operand ∈ walkAll xs → g operand = .ok operand) →
      mapOperandsAll g xs = .ok xs
  | [], _ => rfl
  | x :: rest, h => by
    rw [mapOperandsAll,
      mapOperands_eq_self x fun field op operand hmem =>
        h field op operand (List.mem_append_left _ hmem),
      mapOperandsAll_eq_self rest fun field op operand hmem =>
        h field op operand (List.mem_append_right _ hmem)]
    rfl
termination_by structural xs => xs

theorem mapOperandsList_eq_self {ε : Type} {g : Value → Except ε Value} :
    (list : Option (List Filter)) →
    (∀ field op operand, scalar field op operand ∈ walkList list → g operand = .ok operand) →
      mapOperandsList g list = .ok list
  | none, _ => rfl
  | some xs, h => by
    rw [mapOperandsList, mapOperandsAll_eq_self xs h]
    rfl
termination_by structural list => list

end

end Filter

namespace Predicate

variable {catalog : Catalog} {e : Entity}

/-- What becomes of a filter depends on its operands. -/
theorem compiles_or_misfit (hcat : catalog.TargetsExist) (he : e ∈ catalog.entities)
    (allowJoins : Bool) (f : Filter) (start : Alias) :
    (Filter.Suits f.walk ∧ ∃ q, ((compile catalog e allowJoins f).run start).1 = .ok q) ∨
      ∃ error, Filter.Misfit f.walk error ∧
        ((compile catalog e allowJoins f).run start).1 = .error error := by
  have hjudges := Filter.judges_expressible hcat (some e) (by rintro _ ⟨⟩; exact he) f
  have hyields := yields_compile catalog e allowJoins f
  cases hfault : f.expressible catalog (some e) with
  | error error =>
    rw [hfault] at hjudges
    exact .inr ⟨error, hjudges, hyields.run_error hfault start⟩
  | ok _ =>
    rw [hfault] at hjudges
    obtain ⟨q, hq, -⟩ := hyields.run_ok hfault start
    exact .inl ⟨hjudges, q, hq⟩

/-- A filter compiles, from whichever alias and with joins or without, exactly
if its operands suit. -/
theorem compiles_iff_suits (hcat : catalog.TargetsExist) (he : e ∈ catalog.entities)
    (allowJoins : Bool) (f : Filter) (start : Alias) :
    (∃ q, ((compile catalog e allowJoins f).run start).1 = .ok q) ↔ Filter.Suits f.walk := by
  rcases compiles_or_misfit hcat he allowJoins f start with ⟨hsuits, hq⟩ | ⟨error, hmisfit, herror⟩
  · exact iff_of_true hq hsuits
  · refine iff_of_false ?_ hmisfit.not_suits
    rintro ⟨q, hq⟩
    cases hq.symm.trans herror

/-- The error of a filter that does not compile is that of an operand. -/
theorem misfit_of_compile (hcat : catalog.TargetsExist) (he : e ∈ catalog.entities)
    {allowJoins : Bool} {f : Filter} {start : Alias} {error : RequestError}
    (h : ((compile catalog e allowJoins f).run start).1 = .error error) :
    Filter.Misfit f.walk error := by
  rcases compiles_or_misfit hcat he allowJoins f start with ⟨-, q, hq⟩ | ⟨other, hmisfit, hother⟩
  · cases h.symm.trans hq
  · cases h.symm.trans hother
    exact hmisfit

end Predicate

end RoleQuery
