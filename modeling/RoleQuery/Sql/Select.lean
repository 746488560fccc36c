import RoleQuery.Sql.Condition
import RoleQuery.Statement.Plan

/-!
# Reads in SQL

A read selects the columns of the queried table, and for every relationship that is shown a
document built from the related rows by a sub-select of its own. Each sub-select takes an
alias that the predicate does not use.
-/
namespace RoleQuery.Sql

/-- A sub-select that builds documents from related rows. -/
structure RelatedDocuments where
  cardinality : Cardinality
  object : String
  table : String
  columns : List String
  /-- The documents inside, by the name they are shown under. -/
  children : List (String × RelatedDocuments)
  on : List (Column × Column)
  deriving Repr

/-- The names and values that a document is built from. -/
def documentText (members : List String) : String :=
  "jsonb_build_object(" ++ ", ".intercalate members ++ ")"

mutual

/-- The text of a sub-select. One document is taken for a relationship to one item, and a list
of all of them otherwise. -/
def RelatedDocuments.text : RelatedDocuments → String
  | ⟨cardinality, object, table, columns, children, on⟩ =>
    let members :=
      columns.map (fun c => "'" ++ escapeLiteral c ++ "', " ++ (Column.mk table c).text) ++
        childTexts children
    let source :=
      " FROM " ++ quoteObject object ++ " AS " ++ table ++ " WHERE " ++ correlationText on
    match cardinality with
    | .many =>
      "(SELECT COALESCE(jsonb_agg(" ++ documentText members ++ "), '[]'::jsonb)" ++ source ++ ")"
    | .one => "(SELECT " ++ documentText members ++ source ++ " LIMIT 1)"
termination_by structural r => r

/-- The names and texts of the documents inside. -/
def childTexts : List (String × RelatedDocuments) → List String
  | [] => []
  | (name, r) :: rest =>
    ("'" ++ escapeLiteral name ++ "', " ++ r.text) :: childTexts rest
termination_by structural rs => rs

end

/-- A part of a read that takes aliases from the next free one on. -/
abbrev Naming := StateT Alias (Except RequestError)

def freshTable : Naming String := fun next => .ok (aliasName next, next + 1)

mutual

/-- The sub-select of a field that shows related rows of the table `parent`. -/
def relatedDocuments (parent : String) : MaskedField → Naming RelatedDocuments
  | .nested _ _ _ (some r) _ (some object) fields => do
    let table ← freshTable
    let children ← relatedChildren table fields
    return ⟨r.cardinality, object, table, FieldMask.columnsOf fields, children,
      correlation r.sourceColumns r.targetColumns parent table⟩
  | .nested _ _ _ (some r) _ none _ => throw (.unknownEntity r.target)
  | field => throw (.input (.bareRelationship field.name))
termination_by structural field => field

/-- The sub-selects of the fields that show related rows. -/
def relatedChildren (parent : String) :
    List MaskedField → Naming (List (String × RelatedDocuments))
  | [] => return []
  | field :: rest => do
    if field.relationship?.isSome then
      let child ← relatedDocuments parent field
      let children ← relatedChildren parent rest
      return (field.column, child) :: children
    else relatedChildren parent rest
termination_by structural fields => fields

end

/-- A read. -/
structure Select where
  columns : List String
  /-- The documents of related rows, by the name they are fetched under. -/
  related : List (String × RelatedDocuments)
  object : String
  joins : List Related
  conditions : List Condition
  order : List OrderKey
  limit : UInt32
  deriving Repr

namespace Select

def ofPlan (plan : QueryPlan) : Except RequestError Select := do
  let (children, _) ← (relatedChildren rootName plan.mask.fields).run (firstAlias plan.nextAlias)
  let joins ← ((plan.predicate.map Predicate.joins).getD []).mapM dialect.ofTraversal
  let condition ← plan.predicate.mapM ofPredicate
  return {
    columns := plan.columns
    related := children
    object := plan.object
    joins
    conditions := condition.toList ++ (keyset plan.pagination).toList
    order := plan.pagination.order
    limit := plan.pagination.fetchLimit }

/-- The text of an ordering key; nulls come first ascending and last descending. -/
def orderText (key : OrderKey) : String :=
  (keyColumn key).text ++ " " ++ key.direction.keyword ++
    (if key.nullable then
      match key.direction with
      | .asc => " NULLS FIRST"
      | .desc => " NULLS LAST"
    else "")

def joinText (r : Related) : String :=
  " INNER JOIN " ++ quoteObject r.object ++ " AS " ++ r.table ++ " ON " ++ correlationText r.on

/-- The text of a read. -/
def pieces (s : Select) : List Piece :=
  let shown :=
    s.columns.map (fun c => (Column.mk rootName c).text) ++
      s.related.map fun (name, r) => r.text ++ " AS " ++ quote name
  let source := quoteObject s.object ++ " AS " ++ rootName ++ String.join (s.joins.map joinText)
  .text ("SELECT " ++ ", ".intercalate shown ++ " FROM " ++ source) ::
    (if s.conditions.isEmpty then []
    else .text " WHERE " ::
      Piece.intercalate " AND " (s.conditions.map fun c => c.pieces dialect)) ++
    [.text (" ORDER BY " ++ ", ".intercalate (s.order.map orderText) ++
      " LIMIT " ++ toString s.limit.toNat)]

end Select

end RoleQuery.Sql
