import RoleQuery.Catalog.Entity
import RoleQuery.Value

/-!
# Predicates

A predicate is a boolean expression over the columns of a row, the same for every backend. A
traversal leads from a row to the elements of one of its lists, or to its related rows, and
binds each of them to an alias under which the columns below it are found.

## Main definitions

* `Predicate`: the expressions.
* `Predicate.all`, `Predicate.any`, `Predicate.conjoin`: combining them.
* `Predicate.joins`, `Predicate.rootColumns`: what a statement must provide.
* `Predicate.display`: the form of a predicate in messages.

## Main statements

* `Predicate.mem_addNew`, `Predicate.nodup_addNew`: names are collected each once.
-/
namespace RoleQuery

/-- The name that a traversal binds its rows to; zero is kept for the root. -/
abbrev Alias := UInt32

/-- The first alias that is given away when aliases start at a given
one; zero is never given. -/
def firstAlias (start : Alias) : Alias := if start = 0 then 1 else start

/-- The row that a column is read from. -/
inductive Scope where
  /-- The row that is filtered. -/
  | root
  /-- The row bound to an alias. -/
  | bound (a : Alias)
  deriving DecidableEq, Repr

/-- The column of a row, or a value inside it: the segments lead into nested documents. -/
structure ColumnPath where
  scope : Scope
  segments : List String
  deriving DecidableEq, Repr

/-- The comparisons of a predicate. -/
inductive Comparison where
  | eq
  | neq
  | gt
  | gte
  | lt
  | lte
  | contains
  | startsWith
  | endsWith
  | isNull
  deriving DecidableEq, Repr

def Comparison.sign : Comparison → String
  | .eq => "="
  | .neq => "!="
  | .gt => ">"
  | .gte => ">="
  | .lt => "<"
  | .lte => "<="
  | .contains => "CONTAINS"
  | .startsWith => "STARTSWITH"
  | .endsWith => "ENDSWITH"
  | .isNull => "IS NULL"

/-- The rows of another entity that are related to a row. -/
structure Link where
  target : String
  /-- The table or container of the target. -/
  object : String
  cardinality : Cardinality
  sourceColumns : List String
  targetColumns : List String
  deriving DecidableEq, Repr

/-- The way from a row to the rows that an inner predicate speaks of. -/
structure Traversal where
  /-- The alias that each of those rows is bound to. -/
  binder : Alias
  parent : Scope
  /-- Where the list is found, from the parent. -/
  path : List String
  /-- Present when the rows are those of another entity. -/
  link : Option Link
  deriving DecidableEq, Repr

/-- How a statement carries out a traversal. -/
inductive Lowering where
  /-- As a sub-query of its own. -/
  | subquery
  /-- As a join of the outer statement. -/
  | join
  deriving DecidableEq, Repr

/-- A boolean expression over the columns of a row. -/
inductive Predicate where
  | const (b : Bool)
  /-- Compare a column with an operand; only the test for null has none. -/
  | leaf (path : ColumnPath) (comparison : Comparison) (operand : Option Value)
  | and (terms : List Predicate)
  | or (terms : List Predicate)
  | not (inner : Predicate)
  /-- Some row reached by the traversal satisfies the inner predicate. -/
  | traverse (how : Lowering) (via : Traversal) (inner : Predicate)
  deriving Repr, Inhabited

namespace Predicate

/-- The predicate that no row satisfies. -/
def alwaysFalse : Predicate := .const false

def isAlwaysFalse : Predicate → Bool
  | .const false => true
  | _ => false

/-- The conjunction of terms; a single one is itself, and no term at all cannot hold. -/
def all : List Predicate → Predicate
  | [] => alwaysFalse
  | [p] => p
  | ps => .and ps

/-- The disjunction of terms; a single one is itself, and no term at all cannot hold. -/
def any : List Predicate → Predicate
  | [] => alwaysFalse
  | [p] => p
  | ps => .or ps

/-- Add a requirement to those there are. -/
def conjoin : Option Predicate → Predicate → Predicate
  | none, extra => extra
  | some (.and terms), extra => .and (terms ++ [extra])
  | some p, extra => .and [p, extra]

def isLeaf : Predicate → Bool
  | .leaf _ _ _ => true
  | _ => false

/-- A single comparison, possibly negated. -/
def isSingleLeaf : Predicate → Bool
  | .leaf _ _ _ => true
  | .not inner => inner.isLeaf
  | _ => false

mutual

/-- The traversals that a statement carries out as joins, outer before inner. No join
lies below a sub-query. -/
def joins : Predicate → List Traversal
  | .const _ | .leaf _ _ _ => []
  | .and terms | .or terms => joinsAll terms
  | .not inner => joins inner
  | .traverse .subquery _ _ => []
  | .traverse .join via inner => via :: joins inner
termination_by structural p => p

def joinsAll : List Predicate → List Traversal
  | [] => []
  | p :: rest => joins p ++ joinsAll rest
termination_by structural ps => ps

end

/-- Add names that are not there yet. -/
def addNew (names : List String) : List String → List String
  | [] => names
  | name :: rest => addNew (if names.contains name then names else names ++ [name]) rest

@[simp] theorem mem_addNew {name : String} {names added : List String} :
    name ∈ addNew names added ↔ name ∈ names ∨ name ∈ added := by
  induction added generalizing names with
  | nil => simp [addNew]
  | cons first rest ih =>
    rw [addNew, ih]
    by_cases h : first ∈ names
    · simp only [List.contains_iff_mem, h, ↓reduceIte, List.mem_cons]
      constructor
      · rintro (hn | hr)
        · exact .inl hn
        · exact .inr (.inr hr)
      · rintro (hn | rfl | hr)
        · exact .inl hn
        · exact .inl h
        · exact .inr hr
    · simp [h, or_assoc]

theorem nodup_addNew {names : List String} (h : names.Nodup) (added : List String) :
    (addNew names added).Nodup := by
  induction added generalizing names with
  | nil => exact h
  | cons first rest ih =>
    rw [addNew]
    apply ih
    by_cases hf : first ∈ names
    · simpa [hf] using h
    · simp only [List.contains_iff_mem, hf, ↓reduceIte]
      refine List.nodup_append.2 ⟨h, by simp, ?_⟩
      intro a ha b hb
      rintro rfl
      simp only [List.mem_singleton] at hb
      exact hf (hb ▸ ha)

/-- The columns of the parent that a traversal reads. -/
def traversedColumns (via : Traversal) : List String :=
  match via.link with
  | some link => link.sourceColumns
  | none => via.path.take 1

mutual

/-- Add the columns of the root row that a predicate reads, in the
order of their first use. -/
def collectRootColumns (names : List String) : Predicate → List String
  | .const _ => names
  | .leaf path _ _ => if path.scope = .root then addNew names (path.segments.take 1) else names
  | .and terms | .or terms => collectRootColumnsAll names terms
  | .not inner => collectRootColumns names inner
  | .traverse _ via inner =>
    collectRootColumns
      (if via.parent = .root then addNew names (traversedColumns via) else names) inner
termination_by structural p => p

def collectRootColumnsAll (names : List String) : List Predicate → List String
  | [] => names
  | p :: rest => collectRootColumnsAll (collectRootColumns names p) rest
termination_by structural ps => ps

end

/-- The columns of the root row that a predicate reads, in the order of their first use. -/
def rootColumns (p : Predicate) : List String := collectRootColumns [] p

end Predicate

/-- The form of a column in messages. -/
def ColumnPath.display (path : ColumnPath) : String :=
  let segments := ".".intercalate path.segments
  match path.scope with
  | .root => segments
  | .bound a => s!"${a.toNat}." ++ segments

namespace Predicate

mutual

/-- The form of a predicate in messages. -/
def display : Predicate → String
  | .const b => if b then "TRUE" else "FALSE"
  | .leaf path comparison operand =>
    if comparison = .isNull then path.display ++ " IS NULL"
    else path.display ++ " " ++ comparison.sign ++ " " ++ (operand.getD .null).display
  | .and terms => "(" ++ " AND ".intercalate (displayAll terms) ++ ")"
  | .or terms => "(" ++ " OR ".intercalate (displayAll terms) ++ ")"
  | .not inner => "NOT " ++ display inner
  | .traverse how via inner =>
    (match how with | .subquery => "EXISTS" | .join => "JOIN") ++
      s!"(${via.binder.toNat} IN " ++ ".".intercalate via.path ++ ": " ++ display inner ++ ")"
termination_by structural p => p

def displayAll : List Predicate → List String
  | [] => []
  | p :: rest => display p :: displayAll rest
termination_by structural ps => ps

end

end Predicate

end RoleQuery
