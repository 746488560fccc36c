import RoleQuery.Error
import RoleQuery.Paging.Basic
import RoleQuery.Sql.Names
import RoleQuery.Statement.Condition

/-!
# Conditions in SQL

A predicate becomes a condition over the columns of tables. A traversal that is a sub-query
becomes one, a joined one is left to the outer statement, and text comparisons become
patterns. The rows after a position in an ordering are selected by a condition of their own.
-/
namespace RoleQuery.Sql

/-- A comparison in SQL. -/
inductive Atom where
  | compare (column : Column) (sign : String) (operand : Value)
  | like (column : Column) (pattern : String)
  | isNull (column : Column)
  | isNotNull (column : Column)
  /-- Compare columns with operands as one row, from left to right. A single column is
  compared with the first operand. -/
  | compareRow (columns : List Column) (sign : String) (operands : List Value)
  deriving DecidableEq, Repr

/-- The head of a sub-query: the rows of a table that are related to a row outside. -/
structure Related where
  object : String
  table : String
  on : List (Column × Column)
  deriving DecidableEq, Repr

abbrev Condition := RoleQuery.Condition Atom Related

def Atom.pieces : Atom → List Piece
  | .compare column sign operand => [.text (column.text ++ " " ++ sign ++ " "), .operand operand]
  | .like column pattern =>
    [.text (column.text ++ " LIKE "), .operand (.text pattern), .text " ESCAPE '\\'"]
  | .isNull column => [.text (column.text ++ " IS NULL")]
  | .isNotNull column => [.text (column.text ++ " IS NOT NULL")]
  | .compareRow [column] sign (v :: rest) =>
    .text (column.text ++ " " ++ sign ++ " ") :: .operand v :: rest.map .hidden
  | .compareRow columns sign operands =>
    .text ("(" ++ ", ".intercalate (columns.map Column.text) ++ ") " ++ sign ++ " (") ::
      Piece.intercalate ", " (operands.map fun v => [.operand v]) ++ [.text ")"]

/-- The text of a sub-query up to its condition. -/
def Related.text (r : Related) : String :=
  "EXISTS (SELECT 1 FROM " ++ quoteObject r.object ++ " AS " ++ r.table ++ " WHERE " ++
    correlationText r.on ++ " AND "

/-- The link of a traversal; tables hold no lists to traverse. -/
def requireLink (via : Traversal) : Except RequestError Link :=
  match via.link with
  | some link => .ok link
  | none => .error (.input .embeddedList)

/-- The related rows that a traversal reaches. -/
def related (via : Traversal) (link : Link) : Related where
  object := link.object
  table := aliasName via.binder
  on := correlation link.sourceColumns link.targetColumns (tableName via.parent)
    (aliasName via.binder)

/-- The pattern of a text comparison. -/
def pattern (c : Comparison) (operand : Value) : String :=
  let text := escapePattern (operand.text?.getD "")
  match c with
  | .contains => "%" ++ text ++ "%"
  | .startsWith => text ++ "%"
  | _ => "%" ++ text

def ofLeaf (path : ColumnPath) (c : Comparison) (operand : Option Value) :
    Except RequestError Atom :=
  match path.segments with
  | [name] =>
    let column : Column := ⟨tableName path.scope, name⟩
    let operand := operand.getD .null
    match c with
    | .isNull => .ok (.isNull column)
    | .contains | .startsWith | .endsWith => .ok (.like column (pattern c operand))
    | _ => .ok (.compare column c.sign operand)
  | segments => .error (.input (.nestedColumn segments))

/-- How SQL reads predicates and writes conditions. -/
def dialect : Dialect Atom Related where
  ofLeaf := ofLeaf
  ofTraversal via := (requireLink via).map (related via)
  truth b := if b then "1 = 1" else "1 = 0"
  atom := Atom.pieces
  head := Related.text

/-- The condition of a predicate. -/
def ofPredicate (p : Predicate) : Except RequestError Condition :=
  RoleQuery.Condition.ofPredicate dialect p

/-- The sign between a column and a position when the row comes after it. -/
def afterSign : SortDirection → String
  | .asc => ">"
  | .desc => "<"

/-- The rows whose value of one key comes after a value. Nulls come first ascending and last
descending. -/
def afterKey (column : Column) (key : OrderKey) (value : Value) : Condition :=
  if value.isNull then .atom (.isNotNull column)
  else
    let comparison : Condition := .atom (.compare column (afterSign key.direction) value)
    if key.direction = .desc ∧ key.nullable then .chain .or [comparison, .atom (.isNull column)]
    else comparison

/-- The rows whose value of one key is a value. -/
def atKey (column : Column) (value : Value) : Condition :=
  if value.isNull then .atom (.isNull column) else .atom (.compare column "=" value)

/-- A single term as it is, or several that all hold. -/
def allTerms : List Condition → Condition
  | [term] => term
  | terms => .chain .and terms

/-- The column of a key. -/
def keyColumn (key : OrderKey) : Column := ⟨rootName, key.column⟩

/-- For each key, the rows that are level with the position on the keys before it and
come after it there; nothing comes after a null that is last. `level` holds the
conditions of the keys before. -/
def alternatives (level : List Condition) : List OrderKey → List Value → List Condition
  | [], _ => []
  | key :: keys, values =>
    let value := values.headD .null
    let rest := alternatives (level ++ [atKey (keyColumn key) value]) keys values.tail
    if key.direction = .desc ∧ value.isNull then rest
    else allTerms (level ++ [afterKey (keyColumn key) key value]) :: rest

/-- The direction in which a position can be compared as one row: that of all keys, unless a
null is in the position or may come after it. -/
def rowDirection? (p : Pagination) (values : List Value) : Option SortDirection :=
  match p.uniformDirection? with
  | none => none
  | some direction =>
    if (direction = .desc ∧ p.order.any (·.nullable)) ∨ values.any Value.isNull then none
    else some direction

/-- The condition of the rows after a position. -/
def keysetAfter (p : Pagination) (values : List Value) : Condition :=
  match rowDirection? p values with
  | some direction => .atom (.compareRow (p.order.map keyColumn) (afterSign direction) values)
  | none =>
    match alternatives [] p.order values with
    | [] => .const false
    | conditions => .chain .or conditions

/-- The condition of the rows of a page that does not start at the first row. -/
def keyset (p : Pagination) : Option Condition :=
  match p.continuation with
  | .after values => some (keysetAfter p values)
  | _ => none

end RoleQuery.Sql
