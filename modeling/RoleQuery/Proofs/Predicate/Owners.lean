import RoleQuery.Proofs.Catalog.Columns
import RoleQuery.Proofs.Catalog.Entities
import RoleQuery.Proofs.Filter.Meaning
import RoleQuery.Proofs.Predicate.Terms

/-!
# Whose columns predicates read

A comparison names a row by its scope, and a column inside that row. To which entity the
column belongs follows from these and from the traversals around the comparison alone. The
row is of the entity that is filtered, of the target of a link, or an element found at a
path of another row, and all segments of the column but the last one lead into nested
documents. In a configured catalog no two fields of an entity are stored in one column, and
the owner is the only one.
-/
namespace RoleQuery

namespace Catalog

/-- Columns lead from the documents of one owner to documents inside them: each one holds a
field of the owner that is reached so far, and leads to the entity of the type of the field.
Inside a type that the catalog does not know they lead to nothing that it knows. -/
inductive Leads (catalog : Catalog) : Option Entity → List String → Option Entity → Prop
  | here (owner : Option Entity) : Leads catalog owner [] owner
  | inside {e : Entity} {f : Field} {column : String} {columns : List String}
      {owner : Option Entity} (hf : f ∈ e.fields) (hcolumn : f.column = column)
      (h : Leads catalog (f.kind.type?.bind catalog.entityForType?) columns owner) :
      Leads catalog (some e) (column :: columns) owner
  | unknown {column : String} {columns : List String} {owner : Option Entity}
      (h : Leads catalog none columns owner) : Leads catalog none (column :: columns) owner

namespace Leads

variable {catalog : Catalog} {row middle owner other : Option Entity} {columns more : List String}

theorem append (h : catalog.Leads row columns middle) (h' : catalog.Leads middle more owner) :
    catalog.Leads row (columns ++ more) owner := by
  induction h with
  | here _ => exact h'
  | inside hf hcolumn _ ih => exact .inside hf hcolumn (ih h')
  | unknown _ ih => exact .unknown (ih h')

/-- The column behind a member that carries no relationship leads to what is nested in it. -/
theorem nested {field : String} (h : catalog.Leads row columns owner)
    (hr : Filter.relationshipOf owner field = none)
    (hfield : ∀ e ∈ owner, (e.field? field).isSome) :
    catalog.Leads row (columns ++ [Filter.columnOf owner field])
      (Filter.nested catalog owner field) := by
  apply h.append
  cases owner with
  | none => exact .unknown (.here none)
  | some e =>
    obtain ⟨f, hf⟩ := Option.isSome_iff_exists.1 (hfield e rfl)
    have hnested : Filter.nested catalog (some e) field =
        f.kind.type?.bind catalog.entityForType? := nestedEntity?_field hr hf
    rw [hnested, show Filter.columnOf (some e) field = e.column field from rfl, Entity.column, hf]
    exact .inside (Entity.mem_fields_of_field? hf) rfl (.here _)

theorem mem_entities (h : catalog.Leads row columns owner)
    (hrow : ∀ e ∈ row, e ∈ catalog.entities) :
    ∀ e ∈ owner, e ∈ catalog.entities := by
  induction h with
  | here _ => exact hrow
  | inside _ _ _ ih => exact ih fun _ he => mem_entities_of_type he
  | unknown _ ih => exact ih hrow

/-- Where columns are apart they lead to one owner. -/
theorem unique (hcolumns : catalog.ColumnsApart) (h : catalog.Leads row columns owner)
    (hrow : ∀ e ∈ row, e ∈ catalog.entities) (h' : catalog.Leads row columns other) :
    owner = other := by
  induction h with
  | here _ =>
    cases h'
    rfl
  | inside hf hcolumn _ ih =>
    cases h' with
    | inside hf' hcolumn' h' =>
      obtain rfl := List.inj_on_of_nodup_map (hcolumns _ (hrow _ rfl)) hf hf'
        (hcolumn.trans hcolumn'.symm)
      exact ih (fun _ he => mem_entities_of_type he) h'
  | unknown _ ih =>
    cases h' with
    | unknown h' => exact ih hrow h'

end Leads

end Catalog

/-- The owner of the row that a scope stands for, below some traversals, the innermost first:
an alias is the one of the innermost traversal that binds it. -/
inductive Scope.Over (catalog : Catalog) (e : Entity) :
    List Traversal → Scope → Option Entity → Prop
  | root {around : List Traversal} : Over catalog e around .root (some e)
  | linked {via : Traversal} {around : List Traversal} {link : Link}
      (hlink : via.link = some link) :
      Over catalog e (via :: around) (.bound via.binder) (catalog.entity? link.target)
  | element {via : Traversal} {around : List Traversal} {parent owner : Option Entity}
      (hlink : via.link = none) (hparent : Over catalog e around via.parent parent)
      (hpath : catalog.Leads parent via.path owner) :
      Over catalog e (via :: around) (.bound via.binder) owner
  | outer {via : Traversal} {around : List Traversal} {a : Alias} {owner : Option Entity}
      (hbinder : via.binder ≠ a) (h : Over catalog e around (.bound a) owner) :
      Over catalog e (via :: around) (.bound a) owner

namespace Scope.Over

variable {catalog : Catalog} {e : Entity} {around : List Traversal} {scope : Scope}
  {owner other : Option Entity}

theorem mem_entities (he : e ∈ catalog.entities) (h : scope.Over catalog e around owner) :
    ∀ i ∈ owner, i ∈ catalog.entities := by
  induction h with
  | root =>
    rintro _ ⟨⟩
    exact he
  | linked _ => exact fun _ hi => Catalog.mem_entities_of_entity? hi
  | element _ _ hpath ih => exact hpath.mem_entities ih
  | outer _ _ ih => exact ih

/-- Where columns are apart a scope has one owner. -/
theorem unique (hcolumns : catalog.ColumnsApart) (he : e ∈ catalog.entities)
    (h : scope.Over catalog e around owner) (h' : scope.Over catalog e around other) :
    owner = other := by
  induction h generalizing other with
  | root =>
    cases h'
    rfl
  | linked hlink =>
    cases h' with
    | linked hlink' => rw [Option.some.inj (hlink.symm.trans hlink')]
    | element hlink' => cases hlink.symm.trans hlink'
    | outer hbinder => exact absurd rfl hbinder
  | element hlink hparent hpath ih =>
    cases h' with
    | linked hlink' => cases hlink.symm.trans hlink'
    | element _ hparent' hpath' =>
      obtain rfl := ih hparent'
      exact hpath.unique hcolumns (hparent.mem_entities he) hpath'
    | outer hbinder => exact absurd rfl hbinder
  | outer hbinder _ ih =>
    cases h' with
    | linked => exact absurd rfl hbinder
    | element => exact absurd rfl hbinder
    | outer _ h' => exact ih h'

end Scope.Over

namespace Predicate

/-- A comparison of a predicate. -/
structure Leaf where
  /-- The traversals around the comparison, the innermost first. -/
  around : List Traversal
  column : ColumnPath
  deriving DecidableEq, Repr

/-- The entity to which the column of a comparison belongs; none inside a type that the
catalog does not know. -/
def Leaf.Owned (catalog : Catalog) (e : Entity) (leaf : Leaf) (owner : Option Entity) : Prop :=
  ∃ row, leaf.column.scope.Over catalog e leaf.around row ∧
    catalog.Leads row leaf.column.segments.dropLast owner

/-- Where columns are apart the column of a comparison belongs to one entity. -/
theorem Leaf.Owned.unique {catalog : Catalog} {e : Entity} {leaf : Leaf}
    {owner other : Option Entity}
    (hcolumns : catalog.ColumnsApart) (he : e ∈ catalog.entities)
    (h : leaf.Owned catalog e owner) (h' : leaf.Owned catalog e other) : owner = other := by
  obtain ⟨row, hrow, hleads⟩ := h
  obtain ⟨_, hrow', hleads'⟩ := h'
  obtain rfl := hrow.unique hcolumns he hrow'
  exact hleads.unique hcolumns (hrow.mem_entities he) hleads'

mutual

/-- The comparisons of a predicate from left to right, below some traversals. -/
def leaves (around : List Traversal) : Predicate → List Leaf
  | .const _ => []
  | .leaf path _ _ => [⟨around, path⟩]
  | .and terms => leavesAll around terms
  | .or terms => leavesAll around terms
  | .not inner => leaves around inner
  | .traverse _ via inner => leaves (via :: around) inner
termination_by structural p => p

def leavesAll (around : List Traversal) : List Predicate → List Leaf
  | [] => []
  | p :: rest => leaves around p ++ leavesAll around rest
termination_by structural ps => ps

end

theorem gathers_leaves (around : List Traversal) : Gathers (leaves around) (leavesAll around) where
  nil := rfl
  cons _ _ := rfl
  const _ := rfl
  and _ := rfl
  or _ := rfl

end Predicate

end RoleQuery
