import RoleQuery.Catalog.Basic
import RoleQuery.Error
import RoleQuery.Predicate.Basic

/-!
# Filters as predicates

A filter is compiled into a predicate over the columns behind the fields. Comparisons with
null are dropped, a nested document becomes a longer path in the same row, and a list or a
relationship becomes a traversal with an alias of its own.

A traversal may be carried out as a join only where that means the same as a sub-query: no
list of alternatives and no other traversal lies around it, nothing else in the filter
navigates the same path, it does not multiply the rows, and it asks for a single comparison.
-/
namespace RoleQuery

/-- A compilation: it takes the next free alias and gives a result, or a cause, and the
next free alias after it. -/
abbrev Compilation := ExceptT RequestError (StateM Alias)

namespace Compilation

def fresh : Compilation Alias := modifyGet fun next => (next, next + 1)

end Compilation

/-- Where a part of a filter stands. -/
structure Frame where
  /-- The owner of the members; absent inside a type that the catalog does not know. -/
  entity : Option Entity
  scope : Scope
  /-- The columns of the nested documents around the members, in the row of the scope. -/
  path : List String
  /-- The path from the root, by names of fields. -/
  key : String
  /-- Joins are allowed, and no list of alternatives and no traversal lies between the
  root and the members. -/
  conjunctive : Bool

namespace Frame

/-- The column behind a member. -/
def column (frame : Frame) (field : String) : String :=
  match frame.entity with
  | some e => e.column field
  | none => field

/-- The relationship that a member carries. -/
def relationship? (frame : Frame) (field : String) : Option Relationship :=
  frame.entity.bind (·.relationship? field)

/-- The owner of the members below a member. -/
def nested (frame : Frame) (catalog : Catalog) (field : String) : Option Entity :=
  frame.entity.bind fun e => catalog.nestedEntity? e field

/-- The frame of the members of a nested document. -/
def document (frame : Frame) (catalog : Catalog) (field : String) : Frame :=
  { frame with
    entity := frame.nested catalog field
    path := frame.path ++ [frame.column field]
    key := Filter.extendPath frame.key field }

/-- The frame of the members of a row that a traversal reaches. -/
def row (frame : Frame) (catalog : Catalog) (field : String) (a : Alias) : Frame where
  entity := frame.nested catalog field
  scope := .bound a
  path := []
  key := Filter.extendPath frame.key field
  conjunctive := false

end Frame

namespace Predicate

/-- The comparison of an operator; the negated operators share it with their opposites. -/
def comparisonOf : Operator → Comparison
  | .eq => .eq
  | .neq => .neq
  | .gt => .gt
  | .gte => .gte
  | .lt => .lt
  | .lte => .lte
  | .contains | .notContains => .contains
  | .startsWith => .startsWith
  | .endsWith => .endsWith
  | .isNull => .isNull

/-- The predicate of a comparison; a comparison with null is none. -/
def ofScalar (frame : Frame) (field : String) (op : Operator) (operand : Value) :
    Except RequestError (Option Predicate) :=
  if operand.isNull then .ok none
  else match op.check operand with
    | .error fault => .error (.input (.operandOn fault field))
    | .ok () =>
      let path : ColumnPath := ⟨frame.scope, frame.path ++ [frame.column field]⟩
      match op with
      | .isNull =>
        let isNull : Predicate := .leaf path .isNull none
        .ok (some (if operand.boolean? = some true then isNull else .not isNull))
      | .notContains => .ok (some (.not (.leaf path .contains (some operand))))
      | op => .ok (some (.leaf path (comparisonOf op) (some operand)))

/-- All of several terms; one that cannot hold makes the whole one that cannot hold. -/
def allTerms (terms : List Predicate) : Predicate :=
  if terms.any isAlwaysFalse then alwaysFalse else all terms

/-- The rows of the target of a relationship. -/
def linkOf (catalog : Catalog) (r : Relationship) : Except RequestError Link :=
  match catalog.entity? r.target with
  | some target =>
    .ok ⟨target.name, target.object, r.cardinality, r.sourceColumns, r.targetColumns⟩
  | none => .error (.unknownEntity r.target)

/-- Whether a traversal to several related rows multiplies the rows of its parent. -/
def fansOut (link : Option Link) : Bool :=
  match link with
  | some link => link.cardinality == .many
  | none => false

/-- How a traversal is carried out that satisfies `inner` with some row. -/
def loweringOf (frame : Frame) (navigations : List String) (field : String) (link : Option Link)
    (inner : Predicate) : Lowering :=
  if frame.conjunctive && decide (navigations.count (Filter.extendPath frame.key field) ≤ 1) &&
      !fansOut link && inner.isSingleLeaf then .join
  else .subquery

/-- The predicate of a member that leads to other rows, bound to `a`: some of them satisfies
`inner`. A relationship is found by its name, and an embedded list by its column. -/
def ofTraversal (frame : Frame) (navigations : List String) (field : String) (a : Alias)
    (link : Option Link) (inner : Predicate) : Predicate :=
  .traverse (loweringOf frame navigations field link inner)
    { binder := a
      parent := frame.scope
      path := frame.path ++ [if link.isSome then field else frame.column field]
      link := link }
    inner

mutual

/-- The predicate of a part of a filter; `navigations` holds the paths
that the whole navigates. -/
def ofNode (catalog : Catalog) (navigations : List String) (frame : Frame) :
    Filter → Compilation (Option Predicate)
  | .scalar field op operand => liftExcept (ofScalar frame field op operand)
  | .object field children =>
    match frame.relationship? field with
    | some r => do
      let link ← liftExcept (linkOf catalog r)
      let a ← Compilation.fresh
      let terms ← ofNodes catalog navigations (frame.row catalog field a) children
      return some (ofTraversal frame navigations field a (some link) (allTerms terms))
    | none => do
      let terms ← ofNodes catalog navigations (frame.document catalog field) children
      return some (allTerms terms)
  | .element field children => do
    let link ← liftExcept ((frame.relationship? field).mapM (linkOf catalog))
    let a ← Compilation.fresh
    let terms ← ofNodes catalog navigations (frame.row catalog field a) children
    return some (ofTraversal frame navigations field a link (allTerms terms))
  | .group fields allOf anyOf => do
    let fields ← ofNodes catalog navigations frame fields
    let allOf ← ofList catalog navigations frame allOf
    let anyOf ← ofList catalog navigations { frame with conjunctive := false } anyOf
    return some (allTerms (fields ++ (allOf.map all).toList ++ (anyOf.map any).toList))
termination_by structural x => x

/-- The predicates of several parts; comparisons with null leave none. -/
def ofNodes (catalog : Catalog) (navigations : List String) (frame : Frame) :
    List Filter → Compilation (List Predicate)
  | [] => return []
  | x :: rest => do
    let p ← ofNode catalog navigations frame x
    let ps ← ofNodes catalog navigations frame rest
    return p.toList ++ ps
termination_by structural xs => xs

def ofList (catalog : Catalog) (navigations : List String) (frame : Frame) :
    Option (List Filter) → Compilation (Option (List Predicate))
  | none => return none
  | some xs => do return some (← ofNodes catalog navigations frame xs)
termination_by structural xs => xs

end

/-- The predicate of a filter on an entity whose joins are allowed or not. A filter of which
nothing is left cannot hold. -/
def compile (catalog : Catalog) (entity : Entity) (allowJoins : Bool) (f : Filter) :
    Compilation Predicate := do
  let frame : Frame := ⟨some entity, .root, [], "", allowJoins⟩
  return (← ofNode catalog (f.navigations "") frame f).getD alwaysFalse

/-- The predicate of a read filter on an entity, with aliases from `start` on,
and the next free alias. -/
def ofFilter (catalog : Catalog) (entity : Entity) (f : Filter) (start : Alias) :
    Except RequestError Predicate × Alias :=
  (compile catalog entity true f).run (firstAlias start)

/-- The predicate of a policy on a written row. A statement that writes has
nowhere to put joins. -/
def ofWritePolicy (catalog : Catalog) (entity : Entity) (f : Filter) :
    Except RequestError Predicate :=
  ((compile catalog entity false f).run 1).1

end Predicate

end RoleQuery
