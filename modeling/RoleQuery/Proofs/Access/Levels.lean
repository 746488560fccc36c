import RoleQuery.Proofs.Access.Grants
import RoleQuery.Proofs.Catalog.Examples
import Mathlib.Logic.Relation

/-!
# The levels of a mask

A selection is walked twice, once to check its fields and once to resolve them, and the two
walks do not agree on the owners of nested fields: inside a type that the catalog does not
know, a hint makes an owner known again to the check, but not to the mask. They do agree
wherever the mask has an owner, for there the owners of all levels above were known to both.
So each level of the mask of an authorized read holds fields of selections that were checked
against the owner whose name the level carries.
-/
namespace RoleQuery

/-- The value of a shown field is fetched from the column of the field, or the related rows
under the name of the relationship. -/
def MaskedField.BackedBy (e : Entity) (field : MaskedField) : Prop :=
  match e.relationship? field.name with
  | some r => field.relationship? = some r ∧ field.column = field.name
  | none => field.relationship? = none ∧
      ∃ f, e.field? field.name = some f ∧ field.column = f.column

namespace Access

variable {catalog : Catalog} {role : String} {op : Operation} {owner : Option Entity}

/-- Selections pass the check if each of them does. -/
theorem checkSelections_eq_ok_iff {ss : List Selection} :
    checkSelections catalog role op owner ss = .ok () ↔
      ∀ s ∈ ss, checkSelection catalog role op owner s = .ok () := by
  induction ss with
  | nil => simp [checkSelections]
  | cons s rest ih => rw [checkSelections, Except.check_bind_eq_ok_iff, ih, List.forall_mem_cons]

/-- A selection passes the check if its field does, and what is selected below it. -/
theorem checkSelection_eq_ok_iff {s : Selection} :
    checkSelection catalog role op owner s = .ok () ↔
      checkMember catalog role op .selection owner s.field = .ok () ∧
        checkSelections catalog role op (selectedEntity catalog owner s.field s.typeHint)
          s.children = .ok () := by
  obtain ⟨field, label, typeHint, children⟩ := s
  rw [checkSelection, Except.check_bind_eq_ok_iff]

end Access

namespace FieldMask

/-- One mask is that of the nested values of a field of another. -/
def Nests (mask inner : FieldMask) : Prop := ∃ field ∈ mask.fields, field.nested? = some inner

/-- A mask shows of an entity only fields that a role may read on this very entity, each from
where the entity keeps it. -/
structure Restricts (catalog : Catalog) (role : String) (e : Entity) (mask : FieldMask) : Prop where
  entity : mask.entity = some e.name
  object : mask.object = some e.object
  allowed : ∀ field ∈ mask.fields, catalog.allows role .read e field.name = true
  backed : ∀ field ∈ mask.fields, field.BackedBy e

/-- A mask is that of selections resolved for an owner. If the owner is known, the same
selections were checked against it. -/
structure Resolves (catalog : Catalog) (role : String) (owner : Option Entity) (mask : FieldMask) :
    Prop where
  entity : mask.entity = owner.map (·.name)
  object : mask.object = owner.map (·.object)
  resolved : ∃ ss, fieldsOf catalog owner ss = .ok mask.fields ∧
    ∀ e ∈ owner, Access.checkSelections catalog role .read (some e) ss = .ok ()

/-- Fields that stand for selections, one for each and in order. A field has the names of its
selection, and shows nested values exactly when something is selected of them; these have the
owner that the field leads to. -/
inductive Mirrors (catalog : Catalog) :
    Option Entity → List Selection → List MaskedField → Prop where
  | nil {owner : Option Entity} : Mirrors catalog owner [] []
  | plain {owner : Option Entity} {s : Selection} {ss : List Selection} {fields : List MaskedField}
      (column : String) (relationship : Option Relationship) :
      s.children = [] → Mirrors catalog owner ss fields →
      Mirrors catalog owner (s :: ss) (.plain s.field s.output column relationship :: fields)
  | nested {owner : Option Entity} {s : Selection} {ss : List Selection}
      {inner fields : List MaskedField} (column : String) (relationship : Option Relationship) :
      s.children ≠ [] → Mirrors catalog (s.inner catalog owner) s.children inner →
      Mirrors catalog owner ss fields →
      Mirrors catalog owner (s :: ss)
        (.nested s.field s.output column relationship ((s.inner catalog owner).map (·.name))
          ((s.inner catalog owner).map (·.object)) inner :: fields)

variable {catalog : Catalog} {role : String} {owner : Option Entity}

/-- Resolved fields stand for the selections they are resolved from. -/
theorem mirrors_of_fieldsOf (owner : Option Entity) (ss : List Selection) :
    ∀ fields, fieldsOf catalog owner ss = .ok fields → Mirrors catalog owner ss fields := by
  intro fields h
  cases ss with
  | nil =>
    cases h
    exact .nil
  | cons s rest =>
    rw [fieldsOf] at h
    obtain ⟨field, hfield, h⟩ := Except.bind_eq_ok_iff.1 h
    obtain ⟨others, hothers, h⟩ := Except.bind_eq_ok_iff.1 h
    cases h
    have hrest := mirrors_of_fieldsOf owner rest others hothers
    rcases of_ofSelection hfield with ⟨hchildren, rfl⟩ | ⟨inner, hchildren, hinner, rfl⟩
    · exact .plain _ _ hchildren hrest
    · exact .nested _ _ hchildren (mirrors_of_fieldsOf _ s.children inner hinner) hrest
termination_by sizeOf ss
decreasing_by
  all_goals cases s; subst_vars; simp +arith

/-- A field that is resolved for an entity is backed by it. -/
theorem backedBy_of_ofSelection {e : Entity} {s : Selection} {field : MaskedField}
    (h : ofSelection catalog (some e) s = .ok field) : field.BackedBy e := by
  have hrelationship : field.relationship? = e.relationship? s.field :=
    relationship?_of_ofSelection h
  have hcolumn : columnOf (some e) s.field = .ok field.column := by
    rw [column_of_ofSelection h]
    obtain ⟨name, label, typeHint, children⟩ := s
    rw [ofSelection] at h
    obtain ⟨column, hcolumn, -⟩ := Except.bind_eq_ok_iff.1 h
    rw [hcolumn, column_of_columnOf (s := ⟨name, label, typeHint, children⟩) hcolumn]
  rw [MaskedField.BackedBy, name_of_ofSelection h]
  rw [columnOf] at hcolumn
  cases hr : e.relationship? s.field with
  | some r =>
    rw [if_pos (by rw [hr]; rfl)] at hcolumn
    exact ⟨hrelationship.trans hr, (Except.ok.inj hcolumn).symm⟩
  | none =>
    rw [if_neg (by rw [hr]; decide)] at hcolumn
    cases hf : e.field? s.field with
    | none =>
      rw [hf] at hcolumn
      cases hcolumn
    | some f =>
      rw [hf] at hcolumn
      exact ⟨hrelationship.trans hr, f, rfl, (Except.ok.inj hcolumn).symm⟩

/-- What was checked of an owner and resolved for it shows only what the role may read. -/
theorem Resolves.restricts {e : Entity} {mask : FieldMask}
    (h : Resolves catalog role (some e) mask) : Restricts catalog role e mask := by
  obtain ⟨ss, hfields, hcheck⟩ := h.resolved
  have hall := Access.checkSelections_eq_ok_iff.1 (hcheck e rfl)
  refine ⟨h.entity, h.object, fun field hfield => ?_, fun field hfield => ?_⟩
  · obtain ⟨s, hs, hselected⟩ := exists_of_mem_fieldsOf hfields hfield
    rw [name_of_ofSelection hselected]
    exact allows_of_checkField (Access.checkSelection_eq_ok_iff.1 (hall s hs)).1
  · obtain ⟨s, -, hselected⟩ := exists_of_mem_fieldsOf hfields hfield
    exact backedBy_of_ofSelection hselected

/-- One level below, the mask is again resolved for an owner that the check knows, if the
mask does: the owner of the level above was known to both, and for a known owner both find
the same entity below. -/
theorem Resolves.of_nests {mask inner : FieldMask} (h : Resolves catalog role owner mask)
    (hnests : Nests mask inner) :
    ∃ owner', (∀ e ∈ owner', catalog.entity? e.name = some e) ∧
      Resolves catalog role owner' inner := by
  obtain ⟨ss, hfields, hcheck⟩ := h.resolved
  obtain ⟨field, hfield, hnested⟩ := hnests
  obtain ⟨s, hs, hselected⟩ := exists_of_mem_fieldsOf hfields hfield
  rcases of_ofSelection hselected with ⟨-, rfl⟩ | ⟨fields, -, hinner, rfl⟩
  · cases hnested
  · cases hnested
    refine ⟨s.inner catalog owner, fun below hbelow => ?_, rfl, rfl, s.children, hinner,
      fun below hbelow => ?_⟩
    · obtain ⟨e, -, hbelow⟩ := Option.bind_eq_some_iff.1 hbelow
      exact Catalog.entity?_of_nestedEntity? hbelow
    · obtain ⟨e, he, hbelow⟩ := Option.bind_eq_some_iff.1 hbelow
      have hchecked := Access.checkSelections_eq_ok_iff.1 (hcheck e he) s hs
      have hchildren := (Access.checkSelection_eq_ok_iff.1 hchecked).2
      rwa [Access.selectedEntity, hbelow] at hchildren

/-- The levels below a mask that is resolved for an owner are resolved for
owners of the catalog. -/
theorem Resolves.of_below {mask inner : FieldMask} (h : Resolves catalog role owner mask)
    (hbelow : Relation.TransGen Nests mask inner) :
    ∃ owner', (∀ e ∈ owner', catalog.entity? e.name = some e) ∧
      Resolves catalog role owner' inner := by
  induction hbelow with
  | single hnests => exact h.of_nests hnests
  | tail _ hnests ih =>
    obtain ⟨_, -, hmask⟩ := ih
    exact hmask.of_nests hnests

/-- A level that carries the name of an entity is resolved for it. -/
theorem Resolves.owner_of_mem {mask : FieldMask} (h : Resolves catalog role owner mask)
    {name : String} (hname : name ∈ mask.entity) : ∃ e ∈ owner, e.name = name := by
  rw [h.entity] at hname
  exact Option.map_eq_some_iff.1 hname

/-- **The mask of an authorized read shows only what the role may read.** At the root and
at every level below that has an owner, each field is one that the role may read on this
owner, fetched from where the owner keeps it. The fields stand for the requested
selections, or for the fields that the role may read if none are requested, and the role
may also read what the rows are ordered by. -/
theorem restricts_of_authorizeRead {e : Entity} {filter : Option Filter}
    {selection : List Selection}
    {orderBy : List String} {caller : Caller} {authorized : AuthorizedRead}
    (h : authorizeRead catalog e filter selection orderBy caller = .ok authorized) :
    Restricts catalog caller.role e authorized.mask ∧
      (∀ inner, Relation.TransGen Nests authorized.mask inner → ∀ name ∈ inner.entity,
        ∃ owner, catalog.entity? name = some owner ∧ Restricts catalog caller.role owner inner) ∧
      (∀ field ∈ orderBy, catalog.allows caller.role .read e field = true) ∧
      (selection ≠ [] → Mirrors catalog (some e) selection authorized.mask.fields) ∧
      (selection = [] → Mirrors catalog (some e)
        (Selection.readable e (catalog.allows caller.role .read e)) authorized.mask.fields) := by
  have hauthorizes := authorizes_of_authorizeRead h
  obtain ⟨hfields, hcheck, horder⟩ := authorizeRead_spec h
  obtain ⟨_, -, hmask⟩ := Except.map_eq_ok_iff.1 hauthorizes.mask
  have hroot : Resolves catalog caller.role (some e) authorized.mask :=
    ⟨by rw [← hmask], by rw [← hmask], authorized.selection, hfields, by rintro _ ⟨⟩; exact hcheck⟩
  have hmirrors := mirrors_of_fieldsOf _ _ _ hfields
  refine ⟨hroot.restricts, fun inner hbelow name hname => ?_, allows_of_checkOrder horder,
    fun hselection => ?_, fun hselection => ?_⟩
  · obtain ⟨_, hknown, hinner⟩ := hroot.of_below hbelow
    obtain ⟨owner, howner, rfl⟩ := hinner.owner_of_mem hname
    obtain rfl := Option.mem_def.1 howner
    exact ⟨owner, hknown owner rfl, hinner.restricts⟩
  · rwa [hauthorizes.selection, if_neg (by simpa using hselection)] at hmirrors
  · rwa [hauthorizes.selection, if_pos (by simpa using hselection)] at hmirrors

open Examples

/-- The title of a book, the name of its author, and that of one who painted the box, whom
only a hint tells to be an author. -/
def imprint : List Selection :=
  [⟨"title", some "heading", none, []⟩, ⟨"author", none, none, [.leaf "name"]⟩,
    ⟨"box", none, none, [⟨"painter", none, some "Author", [.leaf "name"]⟩]⟩]

/-- The mask of the imprint shows of the author the name alone, which authors
keep in another column. -/
theorem restricts_of_authorizeRead_imprint :
    ∃ authorized inner,
      authorizeRead library book none imprint ["title"] .anonymous = .ok authorized ∧
      authorized.mask.fields.map (·.output) = ["heading", "author", "box"] ∧
      Relation.TransGen Nests authorized.mask inner ∧
      inner = ⟨some "Author", some "authors", [.plain "name" "name" "full_name" none]⟩ ∧
      Restricts library anonymousRole book authorized.mask ∧
      (∃ owner, library.entity? "Author" = some owner ∧
        Restricts library anonymousRole owner inner) ∧
      library.allows anonymousRole .read book "title" = true ∧
      Mirrors library (some book) imprint authorized.mask.fields := by
  have hauthorized : ∃ authorized,
      authorizeRead library book none imprint ["title"] .anonymous = .ok authorized ∧
      authorized.mask.fields.map (·.output) = ["heading", "author", "box"] ∧
      Nests authorized.mask
        ⟨some "Author", some "authors", [.plain "name" "name" "full_name" none]⟩ :=
    ⟨_, rfl, rfl, _, .tail _ (.head _), rfl⟩
  obtain ⟨authorized, hauthorized, houtputs, hnests⟩ := hauthorized
  obtain ⟨hroot, hbelow, horder, hmirrors, -⟩ := restricts_of_authorizeRead hauthorized
  exact ⟨authorized, _, hauthorized, houtputs, .single hnests, rfl, hroot,
    hbelow _ (.single hnests) "Author" rfl, horder "title" (.head _), hmirrors (by decide)⟩

end FieldMask

end RoleQuery
