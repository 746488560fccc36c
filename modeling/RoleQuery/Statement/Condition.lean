import RoleQuery.Error
import RoleQuery.Predicate.Basic
import RoleQuery.Statement.Basic

/-!
# Conditions

The condition of a statement is a boolean expression whose atoms are comparisons of a dialect.
A list of terms always stands in parentheses, and so does what is negated, so that the text
reads back as the expression whatever binds more tightly.

## Main definitions

* `Condition`: the expressions.
* `Dialect`: what a backend makes of comparisons and traversals, and how it writes them.
* `Condition.ofPredicate`: the condition of a predicate; a joined traversal is left to the
  outer statement, and only what it asks of its rows remains.
* `Condition.pieces`: the text of a condition.
-/
namespace RoleQuery

/-- What joins the terms of a list. -/
inductive Connective where
  | and
  | or
  deriving DecidableEq, Repr

/-- The word between two terms. -/
def Connective.separator : Connective → String
  | .and => " AND "
  | .or => " OR "

/-- A boolean expression over atoms, with sub-queries that begin with a head. -/
inductive Condition (Atom Head : Type) where
  | const (b : Bool)
  | atom (a : Atom)
  /-- Terms in parentheses. -/
  | chain (c : Connective) (terms : List (Condition Atom Head))
  /-- The negation of what has parentheses of its own. -/
  | not (inner : Condition Atom Head)
  /-- The negation of what has none. -/
  | notParen (inner : Condition Atom Head)
  /-- Some row of the sub-query satisfies the inner condition. -/
  | subquery (head : Head) (inner : Condition Atom Head)
  deriving Repr

/-- What a backend makes of predicates, and how it writes conditions. -/
structure Dialect (Atom Head : Type) where
  /-- The comparison of a column. -/
  ofLeaf : ColumnPath → Comparison → Option Value → Except RequestError Atom
  /-- The sub-query of a traversal. -/
  ofTraversal : Traversal → Except RequestError Head
  truth : Bool → String
  atom : Atom → List Piece
  /-- A sub-query up to its condition; it ends with a closing parenthesis. -/
  head : Head → String

namespace Condition

variable {Atom Head : Type}

/-- Whether the text of a predicate has parentheses of its own. -/
def hasParentheses : Predicate → Bool
  | .and _ | .or _ => true
  | _ => false

mutual

def ofPredicate (d : Dialect Atom Head) : Predicate → Except RequestError (Condition Atom Head)
  | .const b => .ok (.const b)
  | .leaf path c operand => (d.ofLeaf path c operand).map .atom
  | .and terms => (ofPredicates d terms).map (.chain .and)
  | .or terms => (ofPredicates d terms).map (.chain .or)
  | .not inner =>
    (ofPredicate d inner).map (if hasParentheses inner then .not else .notParen)
  | .traverse .subquery via inner => do
    let head ← d.ofTraversal via
    let condition ← ofPredicate d inner
    return .subquery head condition
  | .traverse .join _ inner => ofPredicate d inner
termination_by structural p => p

def ofPredicates (d : Dialect Atom Head) :
    List Predicate → Except RequestError (List (Condition Atom Head))
  | [] => .ok []
  | p :: rest => do
    let condition ← ofPredicate d p
    let conditions ← ofPredicates d rest
    return condition :: conditions
termination_by structural ps => ps

end

mutual

def pieces (d : Dialect Atom Head) : Condition Atom Head → List Piece
  | .const b => [.text (d.truth b)]
  | .atom a => d.atom a
  | .chain c terms =>
    .text "(" :: Piece.intercalate c.separator (piecesAll d terms) ++ [.text ")"]
  | .not inner => .text "NOT " :: pieces d inner
  | .notParen inner => .text "NOT (" :: pieces d inner ++ [.text ")"]
  | .subquery head inner => .text (d.head head) :: pieces d inner ++ [.text ")"]
termination_by structural c => c

def piecesAll (d : Dialect Atom Head) : List (Condition Atom Head) → List (List Piece)
  | [] => []
  | c :: rest => pieces d c :: piecesAll d rest
termination_by structural cs => cs

end

end Condition

end RoleQuery
