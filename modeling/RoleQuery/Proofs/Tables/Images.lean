import RoleQuery.Proofs.Access.Grants

/-!
# What is fetched of a row

The document that a read fetches of a row holds columns of the row, each under its own name,
and under the name of a relationship the documents that are fetched of the related rows, or of
the first of them. It holds nothing else.
-/
namespace RoleQuery

namespace Catalog

variable (catalog : Catalog) (t : Tables)

mutual

/-- A document that is fetched of a row of an entity: whatever it holds, the row has. -/
inductive Image : Entity → Json → Json → Prop where
  | document {e : Entity} {row : Json} {ms : Members}
      (held : ∀ column value, ms.get? column = some value → Holds e row column value) :
      Image e row (.object ms)

/-- What is fetched of a row under a name: the value in the column of that name, or images of
the rows that the relationship of that name leads to. A missing value is null. -/
inductive Holds : Entity → Json → String → Json → Prop where
  | column {e : Entity} {row : Json} {column : String} :
      Holds e row column ((row.get? column).getD .null)
  | related {e : Entity} {row : Json} {name : String} {r : Relationship} {target : Entity}
      {image : Json → Json} (relationship : e.relationship? name = some r)
      (owner : catalog.entity? r.target = some target) (cardinality : r.cardinality = .many)
      (images : ∀ child ∈ t.related target.object r.sourceColumns r.targetColumns row,
        Image target child (image child)) :
      Holds e row name
        (.list ((t.related target.object r.sourceColumns r.targetColumns row).map image))
  | relatedOne {e : Entity} {row : Json} {name : String} {r : Relationship} {target : Entity}
      {child document : Json} (relationship : e.relationship? name = some r)
      (owner : catalog.entity? r.target = some target) (cardinality : r.cardinality = .one)
      (first : (t.related target.object r.sourceColumns r.targetColumns row).head? = some child)
      (image : Image target child document) : Holds e row name document
  | unrelated {e : Entity} {row : Json} {name : String} {r : Relationship}
      (relationship : e.relationship? name = some r) (cardinality : r.cardinality = .one) :
      Holds e row name .null

end

end Catalog

namespace Tables

open Catalog (Image Holds)
open MaskedField (Granted GrantedAll)

variable {catalog : Catalog} {role : String} {t : Tables}

theorem holds_project {e : Entity} {row : Json} {columns : List String} {c : String} {value : Json}
    (h : (project columns row).get? c = some value) : catalog.Holds t e row c value := by
  obtain ⟨column, -, hpair⟩ := List.mem_map.1 (Members.mem_of_get?_ofList h)
  obtain ⟨rfl, rfl⟩ := Prod.mk.inj hpair
  exact .column

mutual

/-- The related rows that a granted field shows are fetched under its name. -/
theorem holds_relatedValue (e : Entity) (row : Json) :
    (field : MaskedField) → Granted catalog role (some e) field →
      ∀ value, t.relatedValue? row field = some value → catalog.Holds t e row field.column value
  | .plain name output column relationship, _ => by
    intro value hvalue
    simp [relatedValue?] at hvalue
  | .nested name output column relationship entity object fields, hgranted => by
    intro value hvalue
    rw [Granted] at hgranted
    obtain ⟨hpermits, hr, hint, hobject, hfields⟩ := hgranted e rfl
    cases relationship with
    | none => simp [relatedValue?] at hvalue
    | some r =>
      cases object with
      | none => simp [relatedValue?] at hvalue
      | some object =>
        have hcolumn := hpermits.column
        rw [FieldMask.columnOf, ← hr] at hcolumn
        cases hcolumn
        rw [Catalog.nestedEntity?_relationship hr.symm] at hobject hfields
        obtain ⟨target, htarget, rfl⟩ := Option.map_eq_some_iff.1 hobject.symm
        rw [htarget] at hfields
        have himage : ∀ child, catalog.Image t target child
            (.object (t.addRelated child (project (FieldMask.columnsOf fields) child) fields)) :=
          fun child => .document (holds_addRelated target child fields hfields _
            fun c value => holds_project)
        rw [relatedValue?] at hvalue
        cases hcardinality : r.cardinality with
        | many =>
          simp only [hcardinality] at hvalue
          cases hvalue
          exact .related hr.symm htarget hcardinality fun child _ => himage child
        | one =>
          simp only [hcardinality, List.headD_eq_head?_getD, List.head?_map] at hvalue
          cases hvalue
          cases hfirst : (t.related target.object r.sourceColumns r.targetColumns row).head? with
          | none => exact .unrelated hr.symm hcardinality
          | some child => exact .relatedOne hr.symm htarget hcardinality hfirst (himage child)
termination_by structural field => field

/-- Adding the related rows of granted fields keeps a document an image of the row. -/
theorem holds_addRelated (e : Entity) (row : Json) :
    (fields : List MaskedField) → GrantedAll catalog role (some e) fields →
      ∀ columns : Members,
        (∀ c value, columns.get? c = some value → catalog.Holds t e row c value) →
        ∀ c value, (t.addRelated row columns fields).get? c = some value →
          catalog.Holds t e row c value
  | [], _ => by
    intro columns hcolumns
    rw [addRelated]
    exact hcolumns
  | field :: rest, hgranted => by
    intro columns hcolumns
    rw [addRelated]
    apply holds_addRelated e row rest hgranted.2
    cases hvalue : t.relatedValue? row field with
    | none => exact hcolumns
    | some added =>
      intro c value hget
      by_cases hc : field.column = c
      · rw [← hc, Members.get?_insert_self] at hget
        rw [← hc, ← Option.some.inj hget]
        exact holds_relatedValue e row field hgranted.1 added hvalue
      · rw [Members.get?_insert_of_ne columns added hc] at hget
        exact hcolumns c value hget
termination_by structural fields => fields

end

/-- What a read fetches of a row is an image of the row. -/
theorem image_fetchRow {e : Entity} {plan : QueryPlan}
    (h : GrantedAll catalog role (some e) plan.mask.fields) (row : Json) :
    catalog.Image t e row (t.fetchRow plan row) :=
  .document (holds_addRelated e row plan.mask.fields h _ fun _ _ => holds_project)

end Tables

end RoleQuery
