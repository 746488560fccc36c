import RoleQuery.Error
import RoleQuery.Statement.Condition
import RoleQuery.Statement.Plan

/-!
# Queries of documents

A read of a document source walks the documents of a container. A value inside a document is
named by the path to it, and a traversal of a list binds its elements. Documents have no
relationships, and writes need no statement.
-/
namespace RoleQuery.DocumentQuery

/-- A letter of the Latin alphabet or an underscore. -/
def startsIdentifier (c : Char) : Bool := c.isAlpha || c == '_'

/-- Whether a name can stand in a path without quotes. -/
def isIdentifier : List Char → Bool
  | [] => false
  | c :: rest => startsIdentifier c && rest.all fun d => startsIdentifier d || d.isDigit

/-- A character inside a quoted name. -/
def escapeNameChar (c : Char) : List Char := if c = '"' ∨ c = '\\' then ['\\', c] else [c]

/-- One step of a path: `.name`, or the name in brackets and quotes. -/
def segmentText (name : String) : String :=
  if isIdentifier name.toList then "." ++ name
  else "[" ++ String.ofList ('"' :: name.toList.flatMap escapeNameChar ++ ['"']) ++ "]"

/-- The path from a document to a value inside it. -/
def propertyPath (base : String) (segments : List String) : String :=
  base ++ String.join (segments.map segmentText)

/-- The documents of the container. -/
def rootName : String := "c"

/-- The elements bound to an alias. -/
def aliasName (a : Alias) : String := "table" ++ toString a.toNat

def scopeName : Scope → String
  | .root => rootName
  | .bound a => aliasName a

/-- A comparison of the value at a path. -/
inductive Atom where
  | compare (path sign : String) (operand : Value)
  /-- A function of the value and an operand. -/
  | call (function path : String) (operand : Value)
  | isNull (path : String)
  deriving DecidableEq, Repr

/-- The elements of a list that is traversed. -/
structure Elements where
  name : String
  list : String
  deriving DecidableEq, Repr

abbrev Condition := RoleQuery.Condition Atom Elements

def Atom.pieces : Atom → List Piece
  | .compare path sign operand => [.text (path ++ " " ++ sign ++ " "), .operand operand]
  | .call function path operand =>
    [.text (function ++ "(" ++ path ++ ", "), .operand operand, .text ")"]
  | .isNull path => [.text ("IS_NULL(" ++ path ++ ")")]

/-- The elements that a traversal reaches; documents have no relationships. -/
def elementsOf (via : Traversal) : Except RequestError Elements :=
  match via.link with
  | some link => .error (.input (.relationshipFiltered link.target))
  | none => .ok ⟨aliasName via.binder, propertyPath (scopeName via.parent) via.path⟩

def ofLeaf (path : ColumnPath) (c : Comparison) (operand : Option Value) : Atom :=
  let target := propertyPath (scopeName path.scope) path.segments
  match c with
  | .isNull => .isNull target
  | .contains | .startsWith | .endsWith => .call c.sign target (operand.getD .null)
  | _ => .compare target c.sign (operand.getD .null)

/-- How predicates on documents are read and conditions written. -/
def dialect : Dialect Atom Elements where
  ofLeaf path c operand := .ok (ofLeaf path c operand)
  ofTraversal := elementsOf
  truth b := if b then "true" else "false"
  atom := Atom.pieces
  head e := "EXISTS (SELECT VALUE 1 FROM " ++ e.name ++ " IN " ++ e.list ++ " WHERE "

/-- The condition of a predicate. -/
def ofPredicate (p : Predicate) : Except RequestError Condition :=
  RoleQuery.Condition.ofPredicate dialect p

/-- A read. -/
structure Select where
  columns : List String
  joins : List Elements
  condition : Option Condition
  order : List OrderKey
  deriving Repr

namespace Select

def ofPlan (plan : QueryPlan) : Except RequestError Select := do
  if !plan.mask.relationships.isEmpty then throw (.input (.relationshipSelected plan.entity))
  let joins ← ((plan.predicate.map Predicate.joins).getD []).mapM dialect.ofTraversal
  let condition ← plan.predicate.mapM ofPredicate
  return {
    columns := plan.columns
    joins, condition
    order := plan.pagination.order }

def columnPath (column : String) : String := propertyPath rootName [column]

/-- The text of a read. A join gives a row for each element, so its rows are made distinct. -/
def pieces (s : Select) : List Piece :=
  .text ("SELECT " ++ (if s.joins.isEmpty then "" else "DISTINCT ") ++
      ", ".intercalate (s.columns.map columnPath) ++ " FROM " ++ rootName ++
      String.join (s.joins.map fun e => " JOIN " ++ e.name ++ " IN " ++ e.list)) ::
    (match s.condition with
      | none => []
      | some c => .text " WHERE " :: c.pieces dialect) ++
    [.text (" ORDER BY " ++
      ", ".intercalate (s.order.map fun k => columnPath k.column ++ " " ++ k.direction.keyword))]

end Select

end RoleQuery.DocumentQuery
