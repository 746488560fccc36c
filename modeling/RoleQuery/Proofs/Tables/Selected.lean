import RoleQuery.Proofs.Access.Masks
import RoleQuery.Proofs.Paging.FollowUp

/-!
# The values of selected fields

What a selected field shows of a row can be read off the row directly: a column holds the
value, and a relationship leads to the rows whose selected fields it shows. A read goes
another way. It first fetches the columns and related rows of all fields into one document,
each under the name of its column, and then shapes the document. Both agree where nothing else
is fetched under the name of a relationship, and where no relationship is selected of a
document inside a row, since related rows are fetched for rows only.
-/
namespace RoleQuery

/-! ## Reading a row directly -/

/-- The selected part of a value: of a document, and of each item of a list, what `part` takes
of it, and anything else as it is. -/
def Json.restrict (part : Json → Members) : Json → Json
  | .list items => .list (items.map fun item => .object (part item))
  | .object ms => .object (part (.object ms))
  | value => value

/-- A member with a new name goes to the end. -/
theorem Members.insert_of_not_mem {ms : Members} {name : String} (h : name ∉ ms.names)
    (value : Json) : ms.insert name value = ms ++ [(name, value)] := by
  induction ms with
  | nil => rfl
  | cons m rest ih =>
    obtain ⟨key, old⟩ := m
    rw [names, List.map_cons, List.mem_cons, not_or] at h
    rw [insert, if_neg (Ne.symm h.1), ih h.2, List.cons_append]

/-- A member is found by its name if no other has it. -/
theorem Members.get?_of_mem {ms : Members} (hnames : ms.names.Nodup) {name : String} {value : Json}
    (h : (name, value) ∈ ms) : ms.get? name = some value := by
  induction ms with
  | nil => cases h
  | cons m rest ih =>
    obtain ⟨key, old⟩ := m
    rw [names, List.map_cons, List.nodup_cons] at hnames
    rcases List.mem_cons.1 h with heq | h
    · cases heq
      rw [get?, if_pos rfl]
    · have hne : key ≠ name := by
        rintro rfl
        exact hnames.1 (List.mem_map.2 ⟨_, h, rfl⟩)
      rw [get?, if_neg hne, ih hnames.2 h]

namespace Selection

open RoleQuery.Filter (relationshipOf columnOf)

section Value

variable (catalog : Catalog) (resolve : Resolver)

mutual

/-- What a selected field shows of a row of `owner`: the related rows through what is selected
of them, the first or null for a relationship to one item and all of them otherwise; or the
value of the column, which is null if it is missing, through what is selected of it. -/
def value (owner : Option Entity) (row : Json) : Selection → Json
  | ⟨field, _, typeHint, children⟩ =>
    match relationshipOf owner field with
    | some r =>
      let documents := (catalog.relatedRows resolve r (some row)).map fun child =>
        .object (values (catalog.entity? r.target) child children)
      match r.cardinality with
      | .many => .list documents
      | .one => documents.headD .null
    | none =>
      let held := (row.get? (columnOf owner field)).getD .null
      if children.isEmpty then held
      else held.restrict fun document =>
        values (owner.bind fun e => catalog.nestedEntity? e field typeHint) document children
termination_by structural s => s

/-- What several selected fields show of a row, each under its name in the answer. -/
def values (owner : Option Entity) (row : Json) : List Selection → Members
  | [] => []
  | s :: rest => (s.output, value owner row s) :: values owner row rest
termination_by structural ss => ss

end

theorem values_eq_map (owner : Option Entity) (row : Json) (ss : List Selection) :
    values catalog resolve owner row ss =
      ss.map fun s => (s.output, s.value catalog resolve owner row) := by
  induction ss with
  | nil => rfl
  | cons s rest ih => rw [values, ih, List.map_cons]

end Value

/-! ## Selections -/

/-- Fields that are selected side by side have different names in the
answer, at every level. -/
inductive Distinct : List Selection → Prop where
  | mk {ss : List Selection} (outputs : (ss.map (·.output)).Nodup)
      (below : ∀ s ∈ ss, Distinct s.children) : Distinct ss

theorem Distinct.nil : Distinct [] := .mk List.nodup_nil (by simp)

theorem Distinct.leaf (field : String) : Distinct [.leaf field] :=
  .mk (List.nodup_singleton _) (by simpa [Selection.leaf] using .nil)

/-- No relationship is selected, at any level. -/
inductive Embedded (catalog : Catalog) : Option Entity → List Selection → Prop where
  | mk {owner : Option Entity} {ss : List Selection}
      (columns : ∀ s ∈ ss, relationshipOf owner s.field = none)
      (below : ∀ s ∈ ss, Embedded catalog (s.inner catalog owner) s.children) :
      Embedded catalog owner ss

/-- What is fetched for a selected field is not mistaken for anything else that is selected
beside it: where one of two fields is a relationship, both are fetched under one name only if
they are one relationship of which the same is selected. -/
def ApartIn (owner : Option Entity) (ss : List Selection) (s : Selection) : Prop :=
  ∀ other ∈ ss, (relationshipOf owner s.field).isSome ∨ (relationshipOf owner other.field).isSome →
    other.column owner = s.column owner → other.field = s.field ∧ other.children = s.children

/-- A field that is selected among others is fetched apart from them, and so is all
that is selected below it. Relationships are selected of rows only, not of the
documents inside them. -/
inductive KeptApart (catalog : Catalog) : Option Entity → List Selection → Selection → Prop where
  | column {owner : Option Entity} {ss : List Selection} {s : Selection}
      (column : relationshipOf owner s.field = none) (apart : ApartIn owner ss s)
      (below : Embedded catalog (s.inner catalog owner) s.children) : KeptApart catalog owner ss s
  | relationship {owner : Option Entity} {ss : List Selection} {s : Selection} {r : Relationship}
      (relationship : relationshipOf owner s.field = some r) (apart : ApartIn owner ss s)
      (below : ∀ child ∈ s.children, KeptApart catalog (catalog.entity? r.target) s.children
        child) :
      KeptApart catalog owner ss s

/-- A document shows selected fields of a row: it has a member for each of them and no other,
and each that is kept apart has the value that is read off the row directly. -/
def Shows (catalog : Catalog) (resolve : Resolver) (owner : Option Entity) (ss : List Selection)
    (row document : Json) : Prop :=
  ∃ ms : Members, document = .object ms ∧ ms.names = ss.map (·.output) ∧
    ∀ s ∈ ss, KeptApart catalog owner ss s →
      ms.get? s.output = some (s.value catalog resolve owner row)

variable {catalog : Catalog} {owner : Option Entity} {s : Selection}

theorem Embedded.nil : Embedded catalog owner [] := .mk (by simp) (by simp)

theorem Embedded.leaf {field : String} (h : relationshipOf owner field = none) :
    Embedded catalog owner [.leaf field] :=
  .mk (by simpa [Selection.leaf] using h) (by simpa [Selection.leaf] using .nil)

end Selection

/-! ## Masks -/

/-- Every relationship that is shown leads to a table, and something is
selected of its rows. -/
inductive MaskedField.Resolved : MaskedField → Prop where
  | plain {name output column : String} : Resolved (.plain name output column none)
  | document {name output column : String} {entity object : Option String}
      {fields : List MaskedField} : Resolved (.nested name output column none entity object fields)
  | related {name output column : String} {r : Relationship} {entity : Option String}
      {object : String} {fields : List MaskedField} (below : ∀ field ∈ fields, Resolved field) :
      Resolved (.nested name output column (some r) entity (some object) fields)

namespace FieldMask

open RoleQuery.Filter (relationshipOf)
open Selection (Distinct Embedded)

variable {catalog : Catalog} {owner : Option Entity} {s : Selection} {ss : List Selection}
  {field : MaskedField} {fields : List MaskedField}

/-! ## Shaping -/

/-- Fields with different names in the answer are shown one after another. -/
theorem shapeFieldsInto_eq_append {shown : Members} {row : Json}
    (h : (shown.names ++ fields.map (·.output)).Nodup) :
    shapeFieldsInto shown fields row = shown ++ fields.map fun field =>
      (field.output, shapeValue field ((row.get? field.column).getD .null)) := by
  induction fields generalizing shown with
  | nil => rw [shapeFieldsInto, List.map_nil, List.append_nil]
  | cons field rest ih =>
    have hnew : field.output ∉ shown.names := by
      intro hmem
      exact (List.nodup_append.1 h).2.2 _ hmem _ (by simp) rfl
    rw [shapeFieldsInto, Members.insert_of_not_mem hnew, ih, List.append_assoc]
    · rfl
    · simpa [Members.names] using h

/-- Shaping takes of a value what the fields below show. -/
theorem shapeValue_nested (name output column : String) (relationship : Option Relationship)
    (entity object : Option String) (fields : List MaskedField) (value : Json) :
    shapeValue (.nested name output column relationship entity object fields) value =
      value.restrict (shapeFieldsInto [] fields) := by
  cases value <;> rw [shapeValue] <;> first | rfl | simp

theorem map_output_of_fieldsOf (h : fieldsOf catalog owner ss = .ok fields) :
    fields.map (·.output) = ss.map (·.output) :=
  map_eq_of_fieldsOf h fun _ _ _ _ => output_of_ofSelection

/-- What selections with different names in the answer show of a document. -/
theorem shapeFieldsInto_eq_map (hfields : fieldsOf catalog owner ss = .ok fields)
    (houtputs : (ss.map (·.output)).Nodup) (document : Json) :
    shapeFieldsInto [] fields document = fields.map fun field =>
      (field.output, shapeValue field ((document.get? field.column).getD .null)) := by
  rw [shapeFieldsInto_eq_append (by rwa [map_output_of_fieldsOf hfields]), List.nil_append]

/-- What selections with different names in the answer show, if each shows its own value. -/
theorem shapeFieldsInto_eq_values {resolve : Resolver} {row document : Json}
    (hfields : fieldsOf catalog owner ss = .ok fields) (houtputs : (ss.map (·.output)).Nodup)
    (h : ∀ s ∈ ss, ∀ field ∈ fields, ofSelection catalog owner s = .ok field →
      shapeValue field ((document.get? field.column).getD .null) =
        s.value catalog resolve owner row) :
    shapeFieldsInto [] fields document = Selection.values catalog resolve owner row ss := by
  rw [shapeFieldsInto_eq_map hfields houtputs, Selection.values_eq_map]
  refine map_eq_of_fieldsOf hfields fun s hs field hfield hselected => ?_
  rw [output_of_ofSelection hselected, h s hs field hfield hselected]

/-! ## Documents inside rows -/

/-- What the field of a column shows, if what lies below it is shown as selected. -/
theorem shapeValue_of_column {resolve : Resolver} (hfield : ofSelection catalog owner s = .ok field)
    (hcolumn : relationshipOf owner s.field = none)
    (hbelow : ∀ fields, fieldsOf catalog (s.inner catalog owner) s.children = .ok fields →
      ∀ document, shapeFieldsInto [] fields document =
        Selection.values catalog resolve (s.inner catalog owner) document s.children)
    (row : Json) :
    shapeValue field ((row.get? field.column).getD .null) = s.value catalog resolve owner row := by
  have hheld : s.column owner = Filter.columnOf owner s.field := by
    rw [Selection.column, hcolumn]
    rfl
  rw [column_of_ofSelection hfield, hheld]
  obtain ⟨name, label, typeHint, children⟩ := s
  rw [Selection.value]
  simp only at hcolumn
  simp only [hcolumn]
  rcases of_ofSelection hfield with ⟨hnone, rfl⟩ | ⟨fields, hsome, hfields, rfl⟩
  · simp only at hnone
    rw [hnone, shapeValue]
    rfl
  · simp only at hsome
    rw [shapeValue_nested, if_neg (by simpa using hsome), funext (hbelow fields hfields)]
    rfl

/-- A document inside a row shows what is selected of it, if no relationship is. -/
theorem shapeFieldsInto_of_embedded {resolve : Resolver} (h : Embedded catalog owner ss)
    (hdistinct : Distinct ss) (hfields : fieldsOf catalog owner ss = .ok fields) (document : Json) :
    shapeFieldsInto [] fields document =
      Selection.values catalog resolve owner document ss := by
  induction h generalizing fields document with
  | mk columns below ih =>
    cases hdistinct with
    | mk outputs distinct =>
      refine shapeFieldsInto_eq_values hfields outputs fun s hs field _ hselected => ?_
      exact shapeValue_of_column hselected (columns s hs)
        (fun _ hbelow document => ih s hs (distinct s hs) hbelow document) document

end FieldMask

/-! ## Rows -/

namespace Tables

open RoleQuery.Filter (relationshipOf)
open FieldMask (ofSelection fieldsOf columnsOf shapeValue shapeFieldsInto)
open Selection (ApartIn Distinct KeptApart)

variable {t : Tables} {catalog : Catalog} {owner : Option Entity} {s other : Selection}
  {ss : List Selection} {field otherField : MaskedField} {fields : List MaskedField}

/-- Related rows are added one after another. -/
theorem addRelated_eq_foldl (row : Json) (columns : Members) (fields : List MaskedField) :
    t.addRelated row columns fields =
      (fields.filterMap fun field => (t.relatedValue? row field).map (field.column, ·)).foldl
        (fun ms pair => ms.insert pair.1 pair.2) columns := by
  induction fields generalizing columns with
  | nil => rw [addRelated, List.filterMap_nil, List.foldl_nil]
  | cons field rest ih =>
    rw [addRelated, ih]
    cases hvalue : t.relatedValue? row field with
    | none => rw [List.filterMap_cons_none (by rw [hvalue]; rfl)]
    | some value => rw [List.filterMap_cons_some (by rw [hvalue]; rfl), List.foldl_cons]

/-- What is fetched under the name of a relationship, if it is one thing. -/
theorem get?_addRelated_of_relatedValue {row value : Json} (hfield : field ∈ fields)
    (hvalue : t.relatedValue? row field = some value)
    (hsame : ∀ other ∈ fields, other.relationship?.isSome → other.column = field.column →
      t.relatedValue? row other = some value) (columns : Members) :
    (t.addRelated row columns fields).get? field.column = some value := by
  rw [addRelated_eq_foldl]
  apply Members.get?_foldl_insert
  · intro pair hpair hname
    obtain ⟨other, hother, hadded⟩ := List.mem_filterMap.1 hpair
    obtain ⟨added, hvalue', rfl⟩ := Option.map_eq_some_iff.1 hadded
    have hagain := hsame other hother (relationship?_of_relatedValue? t hvalue') hname
    exact Option.some.inj (hvalue'.symm.trans hagain)
  · right
    refine List.mem_map.2 ⟨(field.column, value), List.mem_filterMap.2 ⟨field, hfield, ?_⟩, rfl⟩
    rw [hvalue]
    rfl

/-- Selections of one relationship that select the same of it fetch the same. -/
theorem relatedValue?_congr (hfield : ofSelection catalog owner s = .ok field)
    (hother : ofSelection catalog owner other = .ok otherField)
    (hr : (relationshipOf owner s.field).isSome) (hname : other.field = s.field)
    (hchildren : other.children = s.children) (row : Json) :
    t.relatedValue? row otherField = t.relatedValue? row field := by
  obtain ⟨r, hr⟩ := Option.isSome_iff_exists.1 hr
  have hr' : relationshipOf owner other.field = some r := by rw [hname, hr]
  rcases FieldMask.of_ofSelection hfield with ⟨hnone, rfl⟩ | ⟨fields, hsome, hfields, rfl⟩
  · rcases FieldMask.of_ofSelection hother with ⟨-, rfl⟩ | ⟨_, hsome, -, -⟩
    · rw [relatedValue?, relatedValue?] <;> simp
    · rw [hchildren] at hsome
      exact absurd hnone hsome
  · rcases FieldMask.of_ofSelection hother with ⟨hnone, -⟩ | ⟨others, -, hothers, rfl⟩
    · rw [hchildren] at hnone
      exact absurd hnone hsome
    · rw [Selection.inner_of_relationshipOf hr] at hfields
      rw [Selection.inner_of_relationshipOf hr', hchildren, hfields] at hothers
      cases hothers
      rw [Selection.inner_of_relationshipOf hr, Selection.inner_of_relationshipOf hr', hr, hr']
      cases catalog.entity? r.target <;> simp only [Option.map_none, Option.map_some, relatedValue?]

/-- What is fetched for a relationship, if what lies below it is shown as selected. -/
theorem exists_relatedValue (hfield : ofSelection catalog owner s = .ok field)
    (hresolved : field.Resolved) {r : Relationship} (hr : relationshipOf owner s.field = some r)
    (hbelow : ∀ fields, fieldsOf catalog (catalog.entity? r.target) s.children = .ok fields →
      (∀ field ∈ fields, field.Resolved) → ∀ child,
        shapeFieldsInto [] fields
            (.object (t.addRelated child (project (columnsOf fields) child) fields)) =
          Selection.values catalog t.resolver (catalog.entity? r.target) child s.children)
    (row : Json) :
    ∃ value, t.relatedValue? row field = some value ∧
      shapeValue field value = s.value catalog t.resolver owner row := by
  rcases FieldMask.of_ofSelection hfield with ⟨-, rfl⟩ | ⟨fields, -, hfields, rfl⟩
  · rw [hr] at hresolved
    cases hresolved
  · rw [Selection.inner_of_relationshipOf hr, hr] at hresolved ⊢
    rw [Selection.inner_of_relationshipOf hr] at hfields
    cases htarget : catalog.entity? r.target with
    | none =>
      rw [htarget] at hresolved
      cases hresolved
    | some target =>
      rw [htarget] at hresolved hfields hbelow
      cases hresolved with
      | related below =>
        have hrows : catalog.relatedRows t.resolver r (some row) =
            t.related target.object r.sourceColumns r.targetColumns row := by
          simp only [Catalog.relatedRows, htarget]
          rfl
        obtain ⟨name, label, typeHint, children⟩ := s
        simp only at hr
        simp only [Option.map_some, relatedValue?, Selection.value, hr, hrows, htarget,
          ← hbelow fields hfields below]
        cases r.cardinality with
        | many =>
          refine ⟨_, rfl, ?_⟩
          simp only [FieldMask.shapeValue_nested, Json.restrict, List.map_map, Function.comp_def]
        | one =>
          refine ⟨_, rfl, ?_⟩
          rw [FieldMask.shapeValue_nested]
          cases t.related target.object r.sourceColumns r.targetColumns row <;> rfl

/-- Related rows are not fetched under the name of a column that is kept apart. -/
theorem get?_addRelated_of_apartIn (hapart : ApartIn owner ss s)
    (hfields : fieldsOf catalog owner ss = .ok fields)
    (hselected : ofSelection catalog owner s = .ok field) (hr : relationshipOf owner s.field = none)
    (row : Json) (columns : Members) :
    (t.addRelated row columns fields).get? field.column = columns.get? field.column := by
  refine get?_addRelated t (fun otherField hother hsome heq => ?_) columns
  obtain ⟨other, hmem, hother⟩ := FieldMask.exists_of_mem_fieldsOf hfields hother
  rw [FieldMask.relationship?_of_ofSelection hother] at hsome
  rw [FieldMask.column_of_ofSelection hother, FieldMask.column_of_ofSelection hselected] at heq
  -- a relationship of that name would be the selected member
  rw [(hapart other hmem (.inr hsome) heq).1, hr] at hsome
  cases hsome

/-- What is fetched for a relationship that is kept apart is found under its name. -/
theorem get?_addRelated_eq_relatedValue (hapart : ApartIn owner ss s)
    (hfields : fieldsOf catalog owner ss = .ok fields) (hfield : field ∈ fields)
    (hselected : ofSelection catalog owner s = .ok field)
    (hr : (relationshipOf owner s.field).isSome) {row value : Json}
    (hvalue : t.relatedValue? row field = some value) (columns : Members) :
    (t.addRelated row columns fields).get? field.column = some value := by
  refine get?_addRelated_of_relatedValue hfield hvalue (fun otherField hother _ heq => ?_) columns
  obtain ⟨other, hmem, hother⟩ := FieldMask.exists_of_mem_fieldsOf hfields hother
  rw [FieldMask.column_of_ofSelection hother, FieldMask.column_of_ofSelection hselected] at heq
  obtain ⟨hname, hchildren⟩ := hapart other hmem (.inl hr) heq
  rw [relatedValue?_congr hselected hother hr hname hchildren, hvalue]

/-- The columns of fields are fetched of a row. -/
theorem get?_project_columnsOf (row : Json) (hfield : field ∈ fields)
    (hcolumn : field.relationship? = none) {columns : List String}
    (hsubset : columnsOf fields ⊆ columns) :
    (project columns row).get? field.column = some ((row.get? field.column).getD .null) := by
  refine get?_project row (hsubset (List.mem_map.2 ⟨field, List.mem_filter.2 ⟨hfield, ?_⟩, rfl⟩))
  rw [hcolumn]
  rfl

/-- **The document that is fetched of a row shows each field that is kept apart
with its own value.** -/
theorem shapeValue_addRelated (h : KeptApart catalog owner ss s) (hdistinct : Distinct s.children)
    (hfields : fieldsOf catalog owner ss = .ok fields) (hfield : field ∈ fields)
    (hselected : ofSelection catalog owner s = .ok field) (hresolved : field.Resolved) (row : Json)
    {columns : List String} (hcolumns : columnsOf fields ⊆ columns) :
    shapeValue field
      (((t.addRelated row (project columns row) fields).get? field.column).getD .null) =
      s.value catalog t.resolver owner row := by
  induction h generalizing fields field row columns with
  | column column apart below =>
    have hcolumn := (FieldMask.relationship?_of_ofSelection hselected).trans column
    rw [get?_addRelated_of_apartIn apart hfields hselected column,
      get?_project_columnsOf row hfield hcolumn hcolumns]
    refine FieldMask.shapeValue_of_column hselected column (fun _ hbelow => ?_) row
    exact FieldMask.shapeFieldsInto_of_embedded below hdistinct hbelow
  | @relationship owner ss s r relationship apart below ih =>
    obtain ⟨value, hvalue, hshown⟩ := exists_relatedValue hselected hresolved relationship
      (fun fields hbelow hresolved child => by
        cases hdistinct with
        | mk outputs distinct =>
          exact FieldMask.shapeFieldsInto_eq_values hbelow outputs fun c hc field hfield
            hselected =>
            ih c hc (distinct c hc) hbelow hfield hselected (hresolved field hfield) child
              (List.Subset.refl _)) row
    rw [get?_addRelated_eq_relatedValue apart hfields hfield hselected (by rw [relationship]; rfl)
      hvalue, Option.getD_some, hshown]

/-- What is shown of the document that is fetched of a row. -/
theorem shows_addRelated (hdistinct : Distinct ss)
    (hfields : fieldsOf catalog owner ss = .ok fields)
    (hresolved : ∀ field ∈ fields, field.Resolved) (row : Json) {columns : List String}
    (hcolumns : columnsOf fields ⊆ columns) :
    Selection.Shows catalog t.resolver owner ss row
      (.object (shapeFieldsInto [] fields
        (.object (t.addRelated row (project columns row) fields)))) := by
  cases hdistinct with
  | mk outputs distinct =>
    have hmap := FieldMask.shapeFieldsInto_eq_map hfields outputs
      (.object (t.addRelated row (project columns row) fields))
    have hnames : (shapeFieldsInto [] fields
        (.object (t.addRelated row (project columns row) fields))).names = ss.map (·.output) := by
      rw [hmap, Members.names, List.map_map, ← FieldMask.map_output_of_fieldsOf hfields]
      rfl
    refine ⟨_, rfl, hnames, fun s hs hkept => ?_⟩
    obtain ⟨field, hfield, hselected⟩ := FieldMask.exists_field_of_fieldsOf hfields hs
    refine Members.get?_of_mem (hnames ▸ outputs) ?_
    rw [hmap, ← shapeValue_addRelated hkept (distinct s hs) hfields hfield hselected
      (hresolved field hfield) row hcolumns, ← FieldMask.output_of_ofSelection hselected]
    exact List.mem_map.2 ⟨field, hfield, rfl⟩

end Tables

end RoleQuery
