import RoleQuery.Paging.Basic
import RoleQuery.Predicate.Basic
import RoleQuery.Selection

/-!
# Plans

A plan says what a statement is to do, in terms of columns and before the dialect of a
backend: which rows of which table or container, in which order, and what of them; or what
is written to which row.
-/
namespace RoleQuery

/-- What a read is to fetch. -/
structure QueryPlan where
  entity : String
  /-- The table or container. -/
  object : String
  backend : Backend
  /-- What is asked of the rows; absent when nothing is. -/
  predicate : Option Predicate
  mask : FieldMask
  pagination : Pagination
  /-- The first alias that the predicate does not use. -/
  nextAlias : Alias
  deriving Repr

/-- What a write is to do. -/
structure WritePlan where
  entity : String
  object : String
  backend : Backend
  operation : Operation
  /-- The columns of the primary key that identify the item; none when it is created. -/
  key : List (String × Value)
  /-- The columns that are written. -/
  values : List (String × Value)
  /-- What the written row must satisfy. -/
  policy : Option Predicate
  deriving Repr

/-- The columns that a read fetches: those of the mask, then those of
the ordering, each once. -/
def QueryPlan.columns (plan : QueryPlan) : List String :=
  Predicate.addNew [] (plan.mask.columns ++ plan.pagination.order.map (·.column))

end RoleQuery
