import RoleQuery.Access.Fields
import RoleQuery.Proofs.Catalog.Examples
import RoleQuery.Proofs.Filter.Compilation
import RoleQuery.Proofs.Predicate.Owners
import Mathlib.Data.List.Forall2

/-!
# Every column that a filter reads has been checked

A filter is walked twice before it is carried out: its fields are checked against the grants
of the role, and it is compiled into comparisons of columns. Both walks have to find the
same owner for every member, by following the catalog along the fields that are navigated
around it. The check visits every field that the filter refers to, and every comparison of
the compiled predicate reads the column of one of them: the entity that owns the column,
found from the scope, the traversals and the segments of the comparison, is the one for
which the field was checked.
-/
namespace RoleQuery

/-! ## What a filter refers to -/

/-- A field that a filter refers to. -/
structure Occurrence where
  /-- The fields that are navigated around it, from the root. -/
  path : List String
  field : String
  /-- Whether the field is compared, and with something else than null. -/
  compared : Bool
  deriving DecidableEq, Repr

/-- The entity that is reached along the fields around an occurrence; none inside a type that
the catalog does not know. -/
def Occurrence.owner (catalog : Catalog) (e : Entity) (o : Occurrence) : Option Entity :=
  o.path.foldl (Filter.nested catalog) (some e)

namespace Filter

mutual

/-- The fields that a filter refers to at any depth, below some navigated fields. -/
def occurrences (path : List String) : Filter → List Occurrence
  | .scalar field _ operand => [⟨path, field, !operand.isNull⟩]
  | .object field children => ⟨path, field, false⟩ :: occurrencesAll (path ++ [field]) children
  | .element field children => ⟨path, field, false⟩ :: occurrencesAll (path ++ [field]) children
  | .group fields allOf anyOf =>
    occurrencesAll path fields ++ (occurrencesList path allOf ++ occurrencesList path anyOf)
termination_by structural x => x

def occurrencesAll (path : List String) : List Filter → List Occurrence
  | [] => []
  | x :: rest => occurrences path x ++ occurrencesAll path rest
termination_by structural xs => xs

def occurrencesList (path : List String) : Option (List Filter) → List Occurrence
  | none => []
  | some xs => occurrencesAll path xs
termination_by structural xs => xs

end

end Filter

/-- The owner below a navigated field. -/
theorem foldl_nested_append (catalog : Catalog) (e : Entity) (path : List String) (field : String) :
    (path ++ [field]).foldl (Filter.nested catalog) (some e) =
      Filter.nested catalog (path.foldl (Filter.nested catalog) (some e)) field := by
  rw [List.foldl_append, List.foldl_cons, List.foldl_nil]

/-! ## What is checked -/

namespace Access

variable (catalog : Catalog) (role : String) (op : Operation) (e : Entity)

/-- An occurrence is allowed if its owner is not known, or allows the field. -/
def Allowed (o : Occurrence) : Prop :=
  ∀ owner ∈ o.owner catalog e, catalog.allows role op owner o.field = true

theorem checkMember_eq_ok_iff (path : List String) (field : String) (compared : Bool) :
    checkMember catalog role op .filter (path.foldl (Filter.nested catalog) (some e)) field =
      .ok () ↔
      Allowed catalog role op e ⟨path, field, compared⟩ := by
  unfold checkMember Allowed Occurrence.owner
  cases path.foldl (Filter.nested catalog) (some e) with
  | none => simp
  | some owner => by_cases h : catalog.allows role op owner field <;> simp [checkField, h]

mutual

/-- The check of a part of a filter succeeds if every field that it refers to is allowed. -/
theorem checkNode_eq_ok_iff (path : List String) : (x : Filter) →
    (checkNode catalog role op (path.foldl (Filter.nested catalog) (some e)) x = .ok () ↔
      ∀ o ∈ x.occurrences path, Allowed catalog role op e o)
  | .scalar field _ operand => by
    rw [checkNode, checkMember_eq_ok_iff, Filter.occurrences, List.forall_mem_singleton]
  | .object field children => by
    rw [checkNode, Except.check_bind_eq_ok_iff, checkMember_eq_ok_iff, Filter.occurrences,
      List.forall_mem_cons, ← checkNodes_eq_ok_iff (path ++ [field]) children, foldl_nested_append]
    rfl
  | .element field children => by
    rw [checkNode, Except.check_bind_eq_ok_iff, checkMember_eq_ok_iff, Filter.occurrences,
      List.forall_mem_cons, ← checkNodes_eq_ok_iff (path ++ [field]) children, foldl_nested_append]
    rfl
  | .group fields allOf anyOf => by
    rw [checkNode, Except.check_bind_eq_ok_iff, Except.check_bind_eq_ok_iff, Filter.occurrences,
      List.forall_mem_append, List.forall_mem_append, checkNodes_eq_ok_iff path fields,
      checkList_eq_ok_iff path allOf, checkList_eq_ok_iff path anyOf]
termination_by structural x => x

/-- The same of several filters. -/
theorem checkNodes_eq_ok_iff (path : List String) : (xs : List Filter) →
    (checkNodes catalog role op (path.foldl (Filter.nested catalog) (some e)) xs = .ok () ↔
      ∀ o ∈ Filter.occurrencesAll path xs, Allowed catalog role op e o)
  | [] => by simp [checkNodes, Filter.occurrencesAll]
  | x :: rest => by
    rw [checkNodes, Except.check_bind_eq_ok_iff, Filter.occurrencesAll, List.forall_mem_append,
      checkNode_eq_ok_iff path x, checkNodes_eq_ok_iff path rest]
termination_by structural xs => xs

/-- The same of a list that may be absent. -/
theorem checkList_eq_ok_iff (path : List String) : (list : Option (List Filter)) →
    (checkList catalog role op (path.foldl (Filter.nested catalog) (some e)) list = .ok () ↔
      ∀ o ∈ Filter.occurrencesList path list, Allowed catalog role op e o)
  | none => by simp [checkList, Filter.occurrencesList]
  | some xs => checkNodes_eq_ok_iff path xs
termination_by structural list => list

end

end Access

/-! ## What is valid -/

namespace Filter

section

variable (catalog : Catalog) (e : Entity)

/-- The owner of a field that is compared has the field, if the owner is known. -/
def Known (o : Occurrence) : Prop :=
  o.compared = true → ∀ owner ∈ o.owner catalog e, (owner.field? o.field).isSome

theorem known_of_navigated (path : List String) (field : String) :
    Known catalog e ⟨path, field, false⟩ := by
  intro h
  cases h

theorem isSome_field?_of_validateScalar {owner : Entity} {place field : String} {op : Operator}
    {operand : Value} (h : validateScalar (some owner) place field op operand = .ok ()) :
    (owner.field? field).isSome := by
  rw [validateScalar, validateCompared] at h
  cases hf : owner.field? field with
  | some f => rfl
  | none =>
    rw [hf] at h
    by_cases hr : (owner.relationship? field).isSome <;> simp [hr] at h

mutual

/-- In a valid filter every field that is compared is a field of its owner. -/
theorem known_of_validateNode (path : List String) (place : String) : (x : Filter) →
    validateNode catalog (path.foldl (nested catalog) (some e)) place x = .ok () →
      ∀ o ∈ x.occurrences path, Known catalog e o
  | .scalar field op operand, h => by
    rw [occurrences, List.forall_mem_singleton]
    intro _ owner howner
    rw [Occurrence.owner, Option.mem_def] at howner
    rw [validateNode, howner] at h
    exact isSome_field?_of_validateScalar h
  | .object field children, h => by
    rw [validateNode, Except.check_bind_eq_ok_iff] at h
    rw [occurrences, List.forall_mem_cons]
    refine ⟨known_of_navigated catalog e path field, ?_⟩
    apply known_of_validateAll (path ++ [field]) (place ++ "." ++ field) children
    rw [foldl_nested_append]
    exact h.2
  | .element field children, h => by
    rw [validateNode, Except.check_bind_eq_ok_iff] at h
    rw [occurrences, List.forall_mem_cons]
    refine ⟨known_of_navigated catalog e path field, ?_⟩
    apply known_of_validateAll (path ++ [field]) (place ++ "." ++ field) children
    rw [foldl_nested_append]
    exact h.2
  | .group fields allOf anyOf, h => by
    rw [validateNode, Except.check_bind_eq_ok_iff, Except.check_bind_eq_ok_iff] at h
    obtain ⟨hfields, hall, hany⟩ := h
    rw [occurrences, List.forall_mem_append, List.forall_mem_append]
    exact ⟨known_of_validateAll path place fields hfields,
      known_of_validateList path place allOf hall, known_of_validateList path place anyOf hany⟩
termination_by structural x => x

/-- The same of several filters. -/
theorem known_of_validateAll (path : List String) (place : String) : (xs : List Filter) →
    validateAll catalog (path.foldl (nested catalog) (some e)) place xs = .ok () →
      ∀ o ∈ occurrencesAll path xs, Known catalog e o
  | [], _ => by simp [occurrencesAll]
  | x :: rest, h => by
    rw [validateAll, Except.check_bind_eq_ok_iff] at h
    rw [occurrencesAll, List.forall_mem_append]
    exact ⟨known_of_validateNode path place x h.1, known_of_validateAll path place rest h.2⟩
termination_by structural xs => xs

/-- The same of a list that may be absent. -/
theorem known_of_validateList (path : List String) (place : String) :
    (list : Option (List Filter)) →
    validateList catalog (path.foldl (nested catalog) (some e)) place list = .ok () →
      ∀ o ∈ occurrencesList path list, Known catalog e o
  | none, _ => by simp [occurrencesList]
  | some xs, h => known_of_validateAll path place xs h
termination_by structural list => list

end

end

end Filter

/-! ## What is read -/

namespace Filter

variable {catalog : Catalog} {entity : Option Entity} {field : String} {children : List Filter}
  {x : Filter}

theorem occurrences_of_traverses (h : Traverses entity field children x) (path : List String) :
    x.occurrences path = ⟨path, field, false⟩ :: occurrencesAll (path ++ [field]) children := by
  rcases h with rfl | ⟨rfl, -⟩ <;> rw [occurrences]

theorem isSome_field?_of_validateObject {place : String}
    (h : validateObject entity place field = .ok ()) (hr : relationshipOf entity field = none) :
    ∀ owner ∈ entity, (owner.field? field).isSome := by
  rintro owner rfl
  rw [validateObject, show owner.relationship? field = none from hr] at h
  cases hf : owner.field? field with
  | some f => rfl
  | none => rw [hf] at h; cases h

theorem isSome_field?_of_validateElement {place : String}
    (h : validateElement entity place field = .ok ()) (hr : relationshipOf entity field = none) :
    ∀ owner ∈ entity, (owner.field? field).isSome := by
  rintro owner rfl
  rw [validateElement, show owner.relationship? field = none from hr] at h
  cases hf : owner.field? field with
  | some f => rfl
  | none => rw [hf] at h; cases h

/-- A valid member that leads to other rows is a relationship or a field of its owner, and
what it asks of the rows is valid. -/
theorem valid_of_traverses {place : String} (hx : Traverses entity field children x)
    (h : x.validateNode catalog entity place = .ok ()) :
    (relationshipOf entity field = none → ∀ owner ∈ entity, (owner.field? field).isSome) ∧
      validateAll catalog (nested catalog entity field) (place ++ "." ++ field) children =
        .ok () := by
  rcases hx with rfl | ⟨rfl, hr⟩
  · rw [validateNode, Except.check_bind_eq_ok_iff] at h
    exact ⟨isSome_field?_of_validateElement h.1, h.2⟩
  · rw [validateNode, Except.check_bind_eq_ok_iff] at h
    exact ⟨isSome_field?_of_validateObject h.1, h.2⟩

end Filter

/-- The owner of what a link leads to is its target. -/
theorem Frame.nested_of_linkOf {catalog : Catalog} {frame : Frame} {field : String}
    {r : Relationship} {link : Link} (hr : Filter.relationshipOf frame.entity field = some r)
    (hlink : Predicate.linkOf catalog r = .ok link) :
    frame.nested catalog field = catalog.entity? link.target := by
  obtain ⟨i, hi, hr⟩ := Option.bind_eq_some_iff.1 hr
  rw [Frame.nested, hi, Option.bind_some, Catalog.nestedEntity?_relationship hr]
  rw [Predicate.linkOf] at hlink
  cases htarget : catalog.entity? r.target with
  | none => rw [htarget] at hlink; cases hlink
  | some target =>
    rw [htarget] at hlink
    cases hlink
    rw [Catalog.name_of_entity? htarget, htarget]

/-- The members of a frame belong to the entity reached along the fields around them, and the
columns of the frame lead to it from the row of its scope. -/
structure Frame.Placed (catalog : Catalog) (e : Entity) (frame : Frame) (path : List String)
    (around : List Traversal) : Prop where
  entity : frame.entity = path.foldl (Filter.nested catalog) (some e)
  owned : ∃ row, frame.scope.Over catalog e around row ∧ catalog.Leads row frame.path frame.entity

namespace Frame.Placed

variable {catalog : Catalog} {e : Entity} {frame : Frame} {path : List String}
  {around : List Traversal} {field : String}

theorem entity_nested (h : frame.Placed catalog e path around) (field : String) :
    frame.nested catalog field = (path ++ [field]).foldl (Filter.nested catalog) (some e) := by
  rw [foldl_nested_append, ← h.entity]
  rfl

/-- The members of a nested document are placed in the same row. -/
theorem document (h : frame.Placed catalog e path around)
    (hr : Filter.relationshipOf frame.entity field = none)
    (hfield : ∀ owner ∈ frame.entity, (owner.field? field).isSome) :
    (frame.document catalog field).Placed catalog e (path ++ [field]) around where
  entity := h.entity_nested field
  owned := by
    obtain ⟨row, hrow, hleads⟩ := h.owned
    exact ⟨row, hrow, hleads.nested hr hfield⟩

/-- The members of a row that a traversal reaches are placed below it. -/
theorem row {link : Option Link} (h : frame.Placed catalog e path around)
    (hlink : (Filter.relationshipOf frame.entity field).mapM (Predicate.linkOf catalog) = .ok link)
    (hfield : Filter.relationshipOf frame.entity field = none →
      ∀ owner ∈ frame.entity, (owner.field? field).isSome) (a : Alias) :
    (frame.row catalog field a).Placed catalog e (path ++ [field])
      (⟨a, frame.scope, frame.path ++ [if link.isSome then field else frame.column field], link⟩ ::
        around) where
  entity := h.entity_nested field
  owned := by
    refine ⟨_, ?_, .here _⟩
    cases hr : Filter.relationshipOf frame.entity field with
    | none =>
      rw [hr] at hlink
      cases hlink
      obtain ⟨parent, hparent, hleads⟩ := h.owned
      exact .element rfl hparent (hleads.nested hr (hfield hr))
    | some r =>
      rw [hr] at hlink
      obtain ⟨found, hfound, rfl⟩ := Except.mapM_some_eq_ok hlink
      rw [Frame.row, Frame.nested_of_linkOf hr hfound]
      exact .linked rfl

end Frame.Placed

namespace Predicate

variable (catalog : Catalog) (e : Entity)

/-- A comparison reads the column behind a field that is compared with something else than
null, and the owner of the column is the one of the field. -/
structure Reads (leaf : Leaf) (o : Occurrence) : Prop where
  compared : o.compared = true
  owned : leaf.Owned catalog e (o.owner catalog e)
  behind : leaf.column.segments.getLast? = some (Filter.columnOf (o.owner catalog e) o.field)

/-- Comparisons read the columns behind some of the fields, in their order. -/
def ReadFrom (ls : List Leaf) (os : List Occurrence) : Prop :=
  List.SublistForall₂ (Reads catalog e) ls os

variable {catalog e}

theorem ReadFrom.append {ls others : List Leaf} {os ps : List Occurrence}
    (h : ReadFrom catalog e ls os) (h' : ReadFrom catalog e others ps) :
    ReadFrom catalog e (ls ++ others) (os ++ ps) := by
  obtain ⟨read, hread, hsub⟩ := List.sublistForall₂_iff.1 h
  obtain ⟨read', hread', hsub'⟩ := List.sublistForall₂_iff.1 h'
  exact List.sublistForall₂_iff.2 ⟨read ++ read', List.rel_append hread hread', hsub.append hsub'⟩

theorem ReadFrom.sublist {ls others : List Leaf} {os : List Occurrence}
    (h : ReadFrom catalog e ls os) (hsub : others.Sublist ls) : ReadFrom catalog e others os := by
  induction h generalizing others with
  | nil =>
    rw [List.sublist_nil.1 hsub]
    exact .nil
  | cons hread _ ih =>
    cases hsub with
    | cons _ hsub => exact .cons_right (ih hsub)
    | cons_cons _ hsub => exact .cons hread (ih hsub)
  | cons_right _ ih => exact .cons_right (ih hsub)

/-- A comparison reads the column of its field, unless it is one with null. -/
theorem readFrom_ofScalar {frame : Frame} {path : List String} {around : List Traversal}
    {field : String} {op : Operator} {operand : Value} {p : Option Predicate}
    (hp : ofScalar frame field op operand = .ok p) (hframe : frame.Placed catalog e path around) :
    ReadFrom catalog e (leavesAll around p.toList) [⟨path, field, !operand.isNull⟩] := by
  rcases ofScalar_cases hp with ⟨-, rfl⟩ | ⟨hnull, c, taken, hp⟩
  · exact .nil
  · have howner : Occurrence.owner catalog e ⟨path, field, !operand.isNull⟩ = frame.entity :=
      hframe.entity.symm
    have hreads : Reads catalog e ⟨around, frame.scope, frame.path ++ [frame.column field]⟩
        ⟨path, field, !operand.isNull⟩ := by
      refine ⟨by rw [hnull]; rfl, ?_, ?_⟩
      · rw [howner]
        obtain ⟨row, hrow, hleads⟩ := hframe.owned
        exact ⟨row, hrow, by rwa [List.dropLast_concat]⟩
      · rw [howner, List.getLast?_append, List.getLast?_singleton, Option.some_or]
        rfl
    have hleaf : ReadFrom catalog e [⟨around, frame.scope, frame.path ++ [frame.column field]⟩]
        [⟨path, field, !operand.isNull⟩] := .cons hreads .nil
    rcases hp with rfl | rfl <;> exact hleaf

theorem readFrom_listed {frame : Frame} {list : Option (List Filter)} {ps : Option (List Predicate)}
    {as : List Alias} {path : List String} {place : String} {around : List Traversal}
    (h : Listed (fun frame xs ps _ => ∀ path place around, frame.Placed catalog e path around →
      Filter.validateAll catalog frame.entity place xs = .ok () →
        ReadFrom catalog e (leavesAll around ps) (Filter.occurrencesAll path xs)) frame list ps as)
    (hframe : frame.Placed catalog e path around)
    (hvalid : Filter.validateList catalog frame.entity place list = .ok ()) :
    ReadFrom catalog e (leavesAll around (ps.getD [])) (Filter.occurrencesList path list) := by
  rcases h.cases with ⟨rfl, rfl, -⟩ | ⟨xs, qs, rfl, rfl, hqs⟩
  · exact .nil
  · exact hqs path place around hframe hvalid

/-- The comparisons of a compiled filter read the columns of the fields that it compares, in
this order; those of a conjunction that cannot hold are left out. -/
theorem composes_reads (catalog : Catalog) (e : Entity) (navigations : List String) :
    Composes catalog navigations
      (fun frame x p _ => ∀ path place around, frame.Placed catalog e path around →
        x.validateNode catalog frame.entity place = .ok () →
          ReadFrom catalog e (leavesAll around p.toList) (x.occurrences path))
      (fun frame xs ps _ => ∀ path place around, frame.Placed catalog e path around →
        Filter.validateAll catalog frame.entity place xs = .ok () →
          ReadFrom catalog e (leavesAll around ps) (Filter.occurrencesAll path xs)) where
  scalar hp path place around hframe _ := by
    rw [Filter.occurrences]
    exact readFrom_ofScalar hp hframe
  traversal {frame field children x a link terms as} hx hlink hterms path place around hframe
      hvalid := by
    obtain ⟨hfield, hchildren⟩ := Filter.valid_of_traverses hx hvalid
    have hread := hterms _ _ _ (hframe.row hlink hfield a) hchildren
    rw [Filter.occurrences_of_traverses hx, Option.toList_some, (gathers_leaves around).singleton,
      ofTraversal, leaves]
    exact .cons_right (hread.sublist ((gathers_leaves _).allTerms_sublist terms))
  document {frame field children terms as} hr hterms path place around hframe hvalid := by
    rw [Filter.validateNode, Except.check_bind_eq_ok_iff] at hvalid
    have hfield := Filter.isSome_field?_of_validateObject hvalid.1 hr
    have hread := hterms _ _ _ (hframe.document hr hfield) hvalid.2
    rw [Filter.occurrences, Option.toList_some, (gathers_leaves around).singleton]
    exact .cons_right (hread.sublist ((gathers_leaves _).allTerms_sublist terms))
  group hps hqs hrs path place around hframe hvalid := by
    rw [Filter.validateNode, Except.check_bind_eq_ok_iff, Except.check_bind_eq_ok_iff] at hvalid
    obtain ⟨hfields, hall, hany⟩ := hvalid
    rw [Filter.occurrences, Option.toList_some, (gathers_leaves around).singleton]
    refine ReadFrom.sublist ?_ ((gathers_leaves around).group_sublist _ _ _)
    refine (hps path place around hframe hfields).append ?_
    refine (readFrom_listed hqs hframe hall).append ?_
    exact readFrom_listed hrs ⟨hframe.entity, hframe.owned⟩ hany
  nil _ _ _ _ _ := .nil
  cons hp hps path place around hframe hvalid := by
    rw [Filter.validateAll, Except.check_bind_eq_ok_iff] at hvalid
    rw [Filter.occurrencesAll, (gathers_leaves around).append]
    exact (hp path place around hframe hvalid.1).append (hps path place around hframe hvalid.2)

/-- Whichever aliases are free and whether joins are allowed or not, every comparison of a
compiled filter reads the column of a field that the filter compares. -/
theorem readFrom_of_compile {f : Filter} {allowJoins : Bool} {start : Alias} {p : Predicate}
    (hvalid : f.validate catalog e = .ok ())
    (h : ((compile catalog e allowJoins f).run start).1 = .ok p) :
    ReadFrom catalog e (p.leaves []) (f.occurrences []) := by
  obtain ⟨-, q, rfl, hq⟩ := ((composes_reads catalog e _).yields_compile e allowJoins).of_run h
  have hread := hq [] e.name [] ⟨rfl, some e, .root, .here _⟩ hvalid
  cases q with
  | none => exact .nil
  | some q => rwa [Option.toList_some, (gathers_leaves []).singleton] at hread

end Predicate

namespace Access

/-- A comparison reads the column behind a field that is compared. If the owner of
the column is known, it has the field, and the role may use it; if columns are apart
there is no other owner. -/
structure Covers (catalog : Catalog) (role : String) (op : Operation) (e : Entity)
    (leaf : Predicate.Leaf) (o : Occurrence) : Prop extends Predicate.Reads catalog e leaf o where
  sole : catalog.ColumnsApart → e ∈ catalog.entities →
    ∀ owner, leaf.Owned catalog e owner → owner = o.owner catalog e
  field : ∀ owner ∈ o.owner catalog e, ∃ field ∈ owner.fields, field.name = o.field ∧
    leaf.column.segments.getLast? = some field.column ∧
      catalog.allows role op owner field.name = true

/-- A comparison of a field that is known and allowed is covered. -/
theorem covers_of_reads {catalog : Catalog} {role : String} {op : Operation} {e : Entity}
    {leaf : Predicate.Leaf} {o : Occurrence} (hreads : Predicate.Reads catalog e leaf o)
    (hknown : Filter.Known catalog e o) (hallowed : Allowed catalog role op e o) :
    Covers catalog role op e leaf o where
  toReads := hreads
  sole hcolumns he _ howned := howned.unique hcolumns he hreads.owned
  field owner howner := by
    obtain ⟨field, hfield⟩ := Option.isSome_iff_exists.1 (hknown hreads.compared owner howner)
    have hname := Entity.name_of_field? hfield
    refine ⟨field, Entity.mem_fields_of_field? hfield, hname, ?_, ?_⟩
    · rw [hreads.behind, Option.mem_def.1 howner, Filter.columnOf, Entity.column, hfield]
    · rw [hname]
      exact hallowed owner howner

/-- The check of a filter succeeds if and only if the role may use every field that the filter
refers to, at any depth, on the entity reached along the fields around it; inside types that
the catalog does not know nothing is asked. If the filter is also valid and compiles, the
comparisons of its predicate read, in order, the columns behind some of these fields: the
entity that owns the column, to which the scope, the traversals and the segments of the
comparison lead, is the one reached along the fields, and where it is known the column is that
of its field of this name, which the role may use. -/
theorem checkFilter_covers (catalog : Catalog) (role : String) (op : Operation) (e : Entity)
    (f : Filter) :
    (checkFilter catalog role op e f = .ok () ↔
      ∀ o ∈ f.occurrences [], ∀ owner ∈ o.owner catalog e,
        catalog.allows role op owner o.field = true) ∧
    (checkFilter catalog role op e f = .ok () → f.validate catalog e = .ok () →
      ∀ allowJoins start p, ((Predicate.compile catalog e allowJoins f).run start).1 = .ok p →
        ∃ read, read.Sublist (f.occurrences []) ∧
          List.Forall₂ (Covers catalog role op e) (p.leaves []) read) := by
  have hcheck := checkNode_eq_ok_iff catalog role op e [] f
  refine ⟨hcheck, fun hok hvalid allowJoins start p hp => ?_⟩
  have hallowed := hcheck.1 hok
  have hknown := Filter.known_of_validateNode catalog e [] e.name f hvalid
  obtain ⟨read, hreads, hsub⟩ :=
    List.sublistForall₂_iff.1 (Predicate.readFrom_of_compile hvalid hp)
  rw [List.forall₂_iff_zip] at hreads
  refine ⟨read, hsub, List.forall₂_iff_zip.2 ⟨hreads.1, fun {leaf o} hzip => ?_⟩⟩
  have ho := hsub.subset (List.of_mem_zip hzip).2
  exact covers_of_reads (hreads.2 hzip) (hknown o ho) (hallowed o ho)

open Examples

/-- Books by Ada, in a wide box or of some title. -/
def wideByAda : Filter :=
  .group [.object "author" [.scalar "name" .eq (.text "Ada"), .scalar "id" .eq .null]] none
    (some [.object "box" [.scalar "width" .gt (.integer 9)], .scalar "title" .neq (.text "")])

/-- The books by Ada are found by her name, the width of the box and the title, each a column
of one entity. A filter on her wage is refused, even if it compares it with null. -/
theorem checkFilter_covers_wideByAda :
    library.ColumnsApart ∧ book ∈ library.entities ∧
      wideByAda.validate library book = .ok () ∧
      checkFilter library anonymousRole .read book wideByAda = .ok () ∧
      checkFilter library anonymousRole .read book (.object "author" [.scalar "wage" .eq .null]) ≠
        .ok () ∧
      ∃ p, ((Predicate.compile library book true wideByAda).run 1).1 = .ok p ∧
        (p.leaves []).map (fun leaf => (leaf.around.map (·.binder), leaf.column)) =
          [([1], ⟨.bound 1, ["full_name"]⟩), ([], ⟨.root, ["box", "width"]⟩),
            ([], ⟨.root, ["book_title"]⟩)] ∧
        ∃ read, read.Sublist (wideByAda.occurrences []) ∧
          List.Forall₂ (Covers library anonymousRole .read book) (p.leaves []) read := by
  have hvalid : wideByAda.validate library book = .ok () := by rfl
  have hcovers := checkFilter_covers library anonymousRole .read book
  have hok : checkFilter library anonymousRole .read book wideByAda = .ok () := by
    rw [(hcovers wideByAda).1]
    decide
  have hcolumns : library.ColumnsApart := by
    unfold Catalog.ColumnsApart
    decide
  refine ⟨hcolumns, by decide, hvalid, hok, ?_, _, rfl, rfl, ?_⟩
  · rw [Ne, (hcovers _).1]
    decide
  · exact (hcovers wideByAda).2 hok hvalid true 1 _ rfl

end Access

end RoleQuery
