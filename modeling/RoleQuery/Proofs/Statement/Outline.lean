import RoleQuery.Proofs.Outcome
import RoleQuery.Statement.Condition
import RoleQuery.Statement.Plan

/-!
# Statements without their values

A statement is text with holes, so its text and the names of its parameters do not
depend on what fills the holes: they are those of the erased pieces. A dialect that
writes each comparison with one text, whatever its operand, writes the condition of a
predicate with the text of the erased predicate. Plans that differ only in their values
are those with one erasure.
-/
namespace RoleQuery

namespace Piece

/-- A piece without its operand. -/
def erase : Piece → Piece
  | .text s => .text s
  | .operand _ => .operand .null
  | .hidden _ => .hidden .null

theorem render_map_erase (n : Nat) (ps : List Piece) : render n (ps.map erase) = render n ps := by
  induction ps generalizing n with
  | nil => rfl
  | cons p rest ih => cases p <;> simp [erase, render, ih]

theorem names_map_erase (n : Nat) (ps : List Piece) :
    (parameters n (ps.map erase)).map (·.1) = (parameters n ps).map (·.1) := by
  induction ps generalizing n with
  | nil => rfl
  | cons p rest ih => cases p <;> simp [erase, parameters, ih]

/-- Parameters are numbered from the first one on. -/
theorem names_parameters (n : Nat) (ps : List Piece) :
    (parameters n ps).map (·.1) =
      (List.range' n (parameters n ps).length).map parameterName := by
  induction ps generalizing n with
  | nil => rfl
  | cons p rest ih => cases p <;> simp [parameters, List.range'_succ, ih]

theorem map_erase_intercalate (separator : String) (parts : List (List Piece)) :
    (intercalate separator parts).map erase =
      intercalate separator (parts.map (List.map erase)) := by
  induction parts with
  | nil => rfl
  | cons ps rest ih =>
    cases rest with
    | nil => rfl
    | cons next others =>
      simp only [intercalate, List.map_append, List.map_cons, erase] at ih ⊢
      rw [ih]

end Piece

namespace Statement

/-- The text of a statement and the names of its parameters. -/
def outline (s : Statement) : String × List String := (s.text, s.parameters.map (·.1))

/-- Pieces that are alike but for their operands have one outline. -/
theorem outline_ofPieces_congr {ps qs : List Piece} (h : ps.map Piece.erase = qs.map Piece.erase) :
    (ofPieces ps).outline = (ofPieces qs).outline := by
  simp only [outline, ofPieces, Prod.mk.injEq]
  rw [← Piece.render_map_erase 0 ps, ← Piece.names_map_erase 0 ps, h, Piece.render_map_erase,
    Piece.names_map_erase]
  exact ⟨rfl, rfl⟩

/-- The parameters of a statement are named by their numbers. -/
theorem names_ofPieces (ps : List Piece) :
    (ofPieces ps).parameters.map (·.1) =
      (List.range (ofPieces ps).parameters.length).map Piece.parameterName := by
  rw [List.range_eq_range']
  exact Piece.names_parameters 0 ps

end Statement

namespace Predicate

mutual

/-- A predicate without its operands. -/
def erase : Predicate → Predicate
  | .const b => .const b
  | .leaf path c _ => .leaf path c none
  | .and terms => .and (eraseAll terms)
  | .or terms => .or (eraseAll terms)
  | .not inner => .not (erase inner)
  | .traverse how via inner => .traverse how via (erase inner)
termination_by structural p => p

def eraseAll : List Predicate → List Predicate
  | [] => []
  | p :: rest => erase p :: eraseAll rest
termination_by structural ps => ps

end

theorem eraseAll_eq_map (ps : List Predicate) : eraseAll ps = ps.map erase := by
  induction ps with
  | nil => rfl
  | cons p rest ih => rw [eraseAll, ih, List.map_cons]

mutual

/-- The joins of a predicate do not depend on its operands. -/
@[simp] theorem joins_erase : (p : Predicate) → p.erase.joins = p.joins
  | .const _ | .leaf _ _ _ => rfl
  | .and terms | .or terms => joinsAll_eraseAll terms
  | .not inner => joins_erase inner
  | .traverse .subquery _ _ => rfl
  | .traverse .join via inner => congrArg (via :: ·) (joins_erase inner)
termination_by structural p => p

@[simp] theorem joinsAll_eraseAll : (ps : List Predicate) → joinsAll (eraseAll ps) = joinsAll ps
  | [] => rfl
  | p :: rest => by rw [eraseAll, joinsAll, joinsAll, joins_erase p, joinsAll_eraseAll rest]
termination_by structural ps => ps

end

mutual

/-- The columns that a predicate reads do not depend on its operands. -/
theorem collectRootColumns_erase (names : List String) :
    (p : Predicate) → collectRootColumns names p.erase = collectRootColumns names p
  | .const _ | .leaf _ _ _ => rfl
  | .and terms | .or terms => collectRootColumnsAll_eraseAll names terms
  | .not inner => collectRootColumns_erase names inner
  | .traverse _ _ inner => collectRootColumns_erase _ inner
termination_by structural p => p

theorem collectRootColumnsAll_eraseAll (names : List String) :
    (ps : List Predicate) → collectRootColumnsAll names (eraseAll ps) =
      collectRootColumnsAll names ps
  | [] => rfl
  | p :: rest => by
    rw [eraseAll, collectRootColumnsAll, collectRootColumnsAll, collectRootColumns_erase names p,
      collectRootColumnsAll_eraseAll _ rest]
termination_by structural ps => ps

end

@[simp] theorem rootColumns_erase (p : Predicate) : p.erase.rootColumns = p.rootColumns :=
  collectRootColumns_erase [] p

@[simp] theorem hasParentheses_erase (p : Predicate) :
    Condition.hasParentheses p.erase = Condition.hasParentheses p := by
  cases p <;> rfl

end Predicate

/-! ## Plans without values -/

/-- A value of which only is left whether it is null. -/
def Value.erase (v : Value) : Value := if v.isNull then .null else .text ""

@[simp] theorem Value.isNull_erase (v : Value) : v.erase.isNull = v.isNull := by
  cases v <;> rfl

/-- The start of a page without the values of a position. -/
def Continuation.erase : Continuation → Continuation
  | .after values => .after (values.map Value.erase)
  | other => other

/-- A read without its values. -/
def QueryPlan.erase (plan : QueryPlan) : QueryPlan :=
  { plan with
    predicate := plan.predicate.map Predicate.erase
    pagination := { plan.pagination with continuation := plan.pagination.continuation.erase } }

/-- Columns and values without the values. -/
def eraseAssigned (assigned : List (String × Value)) : List (String × Value) :=
  assigned.map fun (column, _) => (column, .null)

def WritePlan.erase (plan : WritePlan) : WritePlan :=
  { plan with
    key := eraseAssigned plan.key
    values := eraseAssigned plan.values
    policy := plan.policy.map Predicate.erase }

/-! ## Conditions without values -/

/-- A dialect accepts a comparison or not, and writes it with one text,
whatever the operand is. -/
def Dialect.Separates {Atom Head : Type} (d : Dialect Atom Head) : Prop :=
  ∀ path c v w, (d.ofLeaf path c v).map (fun a => (d.atom a).map Piece.erase) =
    (d.ofLeaf path c w).map fun a => (d.atom a).map Piece.erase

namespace Condition

variable {Atom Head : Type} (d : Dialect Atom Head)

/-- The pieces of a condition without its operands. -/
def outline (c : Condition Atom Head) : List Piece := (c.pieces d).map Piece.erase

theorem map_erase_piecesAll (cs : List (Condition Atom Head)) :
    (piecesAll d cs).map (List.map Piece.erase) = cs.map (outline d) := by
  induction cs with
  | nil => rfl
  | cons c rest ih => rw [piecesAll, List.map_cons, List.map_cons, ih, outline]

theorem outline_chain (c : Connective) (terms : List (Condition Atom Head)) :
    outline d (.chain c terms) =
      .text "(" :: Piece.intercalate c.separator (terms.map (outline d)) ++ [.text ")"] := by
  simp only [outline, pieces, List.map_append, List.map_cons, Piece.map_erase_intercalate,
    map_erase_piecesAll, Piece.erase, List.map_nil]

theorem outline_not (inner : Condition Atom Head) :
    outline d (.not inner) = .text "NOT " :: outline d inner := rfl

theorem outline_notParen (inner : Condition Atom Head) :
    outline d (.notParen inner) = .text "NOT (" :: outline d inner ++ [.text ")"] := by
  simp only [outline, pieces, List.map_append, List.map_cons, Piece.erase, List.map_nil]

theorem outline_subquery (head : Head) (inner : Condition Atom Head) :
    outline d (.subquery head inner) = .text (d.head head) :: outline d inner ++ [.text ")"] := by
  simp only [outline, pieces, List.map_append, List.map_cons, Piece.erase, List.map_nil]

variable {d}

mutual

/-- The condition of a predicate is written alike without its operands. -/
theorem map_outline_ofPredicate (hd : d.Separates) :
    (p : Predicate) → (ofPredicate d p.erase).map (outline d) = (ofPredicate d p).map (outline d)
  | .const _ => rfl
  | .leaf path c operand =>
    Except.map_map_congr (hd path c none operand) fun _ _ h => h
  | .and terms | .or terms =>
    Except.map_map_congr (map_outline_ofPredicates hd terms) fun _ _ h => by
      rw [outline_chain, outline_chain, h]
  | .not inner =>
    Except.map_map_congr (map_outline_ofPredicate hd inner) fun _ _ h => by
      rw [Predicate.hasParentheses_erase]
      by_cases hp : hasParentheses inner
      · rw [if_pos hp, outline_not, outline_not, h]
      · rw [if_neg hp, outline_notParen, outline_notParen, h]
  | .traverse .subquery _ inner =>
    Except.map_bind_congr (f := id) rfl fun head other hhead => by
      obtain rfl : head = other := hhead
      exact Except.map_bind_congr (map_outline_ofPredicate hd inner) fun _ _ h =>
        congrArg Except.ok (by rw [outline_subquery, outline_subquery, h])
  | .traverse .join _ inner => map_outline_ofPredicate hd inner
termination_by structural p => p

/-- So are the conditions of several predicates. -/
theorem map_outline_ofPredicates (hd : d.Separates) :
    (ps : List Predicate) →
      (ofPredicates d (Predicate.eraseAll ps)).map (List.map (outline d)) =
        (ofPredicates d ps).map (List.map (outline d))
  | [] => rfl
  | p :: rest =>
    Except.map_bind_congr (map_outline_ofPredicate hd p) fun _ _ hfirst =>
      Except.map_bind_congr (map_outline_ofPredicates hd rest) fun _ _ hrest =>
        congrArg Except.ok (by rw [List.map_cons, List.map_cons, hfirst, hrest])
termination_by structural ps => ps

end

end Condition

end RoleQuery
