import RoleQuery.Proofs.Catalog.Entities
import RoleQuery.Proofs.Filter.Meaning
import RoleQuery.Proofs.Outcome
import RoleQuery.Selection

/-!
# What selected fields are resolved to

Resolving a selection keeps the names of its fields and its nesting. It adds to each field the
column, or the relationship under whose name related rows are fetched, and to nested fields
the table of their owner.
-/
namespace RoleQuery

namespace Selection

open RoleQuery.Filter (relationshipOf columnOf)

/-- The owner of what is selected below a field. -/
def inner (catalog : Catalog) (owner : Option Entity) (s : Selection) : Option Entity :=
  owner.bind fun e => catalog.nestedEntity? e s.field s.typeHint

/-- The name under which the value of a field is fetched. -/
def column (owner : Option Entity) (s : Selection) : String :=
  if (relationshipOf owner s.field).isSome then s.field else columnOf owner s.field

variable {catalog : Catalog} {owner : Option Entity} {s : Selection}

/-- The owner below a relationship is its target. -/
theorem inner_of_relationshipOf {r : Relationship} (h : relationshipOf owner s.field = some r) :
    s.inner catalog owner = catalog.entity? r.target := by
  obtain ⟨e, rfl, hr⟩ := Option.bind_eq_some_iff.1 h
  exact Catalog.nestedEntity?_relationship hr s.typeHint

theorem column_of_relationshipOf (h : (relationshipOf owner s.field).isSome) :
    s.column owner = s.field := by
  rw [column, if_pos h]

end Selection

namespace FieldMask

open RoleQuery.Filter (relationshipOf)

variable {catalog : Catalog} {owner : Option Entity} {s : Selection} {ss : List Selection}
  {field : MaskedField} {fields : List MaskedField}

theorem column_of_columnOf {column : String} (h : columnOf owner s.field = .ok column) :
    column = s.column owner := by
  cases owner with
  | none =>
    cases h
    rfl
  | some e =>
    change (if (relationshipOf (some e) s.field).isSome then _ else _) = _ at h
    by_cases hr : (relationshipOf (some e) s.field).isSome
    · rw [if_pos hr] at h
      cases h
      exact (Selection.column_of_relationshipOf hr).symm
    · rw [if_neg hr] at h
      cases hf : e.field? s.field with
      | none =>
        rw [hf] at h
        cases h
      | some f =>
        rw [hf] at h
        cases h
        rw [Selection.column, if_neg hr, Filter.columnOf, Entity.column, hf]

/-- What a selected field is resolved to. -/
theorem of_ofSelection (h : ofSelection catalog owner s = .ok field) :
    s.children = [] ∧
        field = .plain s.field s.output (s.column owner) (relationshipOf owner s.field) ∨
      ∃ fields, s.children ≠ [] ∧ fieldsOf catalog (s.inner catalog owner) s.children = .ok fields ∧
        field = .nested s.field s.output (s.column owner) (relationshipOf owner s.field)
          ((s.inner catalog owner).map (·.name)) ((s.inner catalog owner).map (·.object))
            fields := by
  obtain ⟨name, label, typeHint, children⟩ := s
  rw [ofSelection] at h
  obtain ⟨column, hcolumn, h⟩ := Except.bind_eq_ok_iff.1 h
  obtain rfl := column_of_columnOf (s := ⟨name, label, typeHint, children⟩) hcolumn
  cases children with
  | nil =>
    cases h
    exact .inl ⟨rfl, rfl⟩
  | cons first rest =>
    obtain ⟨fields, hfields, h⟩ := Except.bind_eq_ok_iff.1 h
    cases h
    exact .inr ⟨fields, by simp, hfields, rfl⟩

theorem name_of_ofSelection (h : ofSelection catalog owner s = .ok field) :
    field.name = s.field := by
  rcases of_ofSelection h with ⟨-, rfl⟩ | ⟨fields, -, -, rfl⟩ <;> rfl

theorem output_of_ofSelection (h : ofSelection catalog owner s = .ok field) :
    field.output = s.output := by
  rcases of_ofSelection h with ⟨-, rfl⟩ | ⟨fields, -, -, rfl⟩ <;> rfl

theorem column_of_ofSelection (h : ofSelection catalog owner s = .ok field) :
    field.column = s.column owner := by
  rcases of_ofSelection h with ⟨-, rfl⟩ | ⟨fields, -, -, rfl⟩ <;> rfl

theorem relationship?_of_ofSelection (h : ofSelection catalog owner s = .ok field) :
    field.relationship? = relationshipOf owner s.field := by
  rcases of_ofSelection h with ⟨-, rfl⟩ | ⟨fields, -, -, rfl⟩ <;> rfl

/-- The selections of a level are resolved one by one. -/
theorem fieldsOf_eq_mapM :
    fieldsOf catalog owner ss = ss.mapM (ofSelection catalog owner) := by
  induction ss with
  | nil => rfl
  | cons s rest ih => rw [fieldsOf, List.mapM_cons, ih]

/-- The fields of a level are those of its selections in order. -/
theorem forall₂_of_fieldsOf (h : fieldsOf catalog owner ss = .ok fields) :
    List.Forall₂ (fun s field => ofSelection catalog owner s = .ok field) ss fields := by
  induction ss generalizing fields with
  | nil =>
    cases h
    exact .nil
  | cons s rest ih =>
    rw [fieldsOf] at h
    obtain ⟨field, hfield, h⟩ := Except.bind_eq_ok_iff.1 h
    obtain ⟨others, hothers, h⟩ := Except.bind_eq_ok_iff.1 h
    cases h
    exact .cons hfield (ih hothers)

/-- Every field of a level is that of a selection. -/
theorem exists_of_mem_fieldsOf (h : fieldsOf catalog owner ss = .ok fields)
    (hfield : field ∈ fields) : ∃ s ∈ ss, ofSelection catalog owner s = .ok field := by
  rw [fieldsOf_eq_mapM] at h
  exact Except.exists_of_mem_mapM h hfield

/-- Every selection of a level has a field. -/
theorem exists_field_of_fieldsOf (h : fieldsOf catalog owner ss = .ok fields) (hs : s ∈ ss) :
    ∃ field ∈ fields, ofSelection catalog owner s = .ok field := by
  rw [fieldsOf_eq_mapM] at h
  exact Except.exists_mem_of_mapM h hs

/-- What is said of the fields of a level one by one is said of the selections in order. -/
theorem map_eq_of_fieldsOf {α : Type} {f : MaskedField → α} {g : Selection → α}
    (h : fieldsOf catalog owner ss = .ok fields)
    (heq : ∀ s ∈ ss, ∀ field ∈ fields, ofSelection catalog owner s = .ok field → f field = g s) :
    fields.map f = ss.map g := by
  have hall := forall₂_of_fieldsOf h
  clear h
  induction hall with
  | nil => rfl
  | cons hfirst _ ih =>
    rw [List.map_cons, List.map_cons, heq _ List.mem_cons_self _ List.mem_cons_self hfirst,
      ih fun s hs field hfield =>
        heq s (List.mem_cons_of_mem _ hs) field (List.mem_cons_of_mem _ hfield)]

/-- Related rows are fetched under the name of their member. -/
theorem column_eq_name_of_fieldsOf (h : fieldsOf catalog owner ss = .ok fields)
    (hfield : field ∈ fields) (hr : field.relationship?.isSome) : field.column = field.name := by
  obtain ⟨s, -, hs⟩ := exists_of_mem_fieldsOf h hfield
  rw [relationship?_of_ofSelection hs] at hr
  rw [column_of_ofSelection hs, Selection.column_of_relationshipOf hr, name_of_ofSelection hs]

end FieldMask

end RoleQuery
