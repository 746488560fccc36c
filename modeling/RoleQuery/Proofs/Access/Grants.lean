import RoleQuery.Proofs.Paging.FollowUp

/-!
# What the mask of an authorized read shows

The selected fields are checked one by one, each against the grant on its owner, and are
resolved to a mask. At every level of the mask whose owner the catalog knows, the role may
read each field that is shown. What lies below a field that is selected without children is
not selected, so it is not checked either, although its type may be that of an entity.
-/
namespace RoleQuery

/-- A role may read a member of an entity, which documents keep in a column. -/
structure Catalog.Permits (catalog : Catalog) (role : String) (e : Entity)
    (name column : String) : Prop where
  allowed : catalog.allows role .read e name = true
  column : FieldMask.columnOf (some e) name = .ok column

namespace MaskedField

variable (catalog : Catalog) (role : String)

mutual

/-- A field of `owner` that a role may show, with all that is shown below it. Nothing is
restricted where the owner is not known. -/
def Granted (owner : Option Entity) : MaskedField → Prop
  | .plain name _ column relationship =>
    ∀ e ∈ owner, catalog.Permits role e name column ∧ relationship = e.relationship? name
  | .nested name _ column relationship _ object fields =>
    ∀ e ∈ owner, catalog.Permits role e name column ∧ relationship = e.relationship? name ∧
      ∃ hint, object = (catalog.nestedEntity? e name hint).map (·.object) ∧
        GrantedAll (catalog.nestedEntity? e name hint) fields
termination_by structural field => field

def GrantedAll (owner : Option Entity) : List MaskedField → Prop
  | [] => True
  | field :: rest => Granted owner field ∧ GrantedAll owner rest
termination_by structural fields => fields

end

mutual

/-- The members, with their owners, whose values are shown whole although they may be
documents of an entity, or lists of them. -/
def wholes (owner : Option Entity) : MaskedField → List (Entity × String)
  | .plain name _ _ _ =>
    (owner.filter fun e => (catalog.nestedEntity? e name).isSome).toList.map fun e => (e, name)
  | .nested name _ _ _ _ _ fields =>
    wholesAll (owner.bind fun e => catalog.nestedEntity? e name) fields
termination_by structural field => field

def wholesAll (owner : Option Entity) : List MaskedField → List (Entity × String)
  | [] => []
  | field :: rest => wholes owner field ++ wholesAll owner rest
termination_by structural fields => fields

end

variable {catalog role}

theorem granted_none (field : MaskedField) : Granted catalog role none field := by
  cases field <;> simp [Granted]

theorem grantedAll_none (fields : List MaskedField) : GrantedAll catalog role none fields := by
  induction fields with
  | nil => trivial
  | cons field rest ih => exact ⟨granted_none field, ih⟩

theorem grantedAll_iff {owner : Option Entity} {fields : List MaskedField} :
    GrantedAll catalog role owner fields ↔ ∀ field ∈ fields, Granted catalog role owner field := by
  induction fields with
  | nil => simp [GrantedAll]
  | cons field rest ih => rw [GrantedAll, ih, List.forall_mem_cons]

/-- What is granted of the member that a field shows. -/
theorem Granted.permits {e : Entity} {field : MaskedField}
    (h : Granted catalog role (some e) field) :
    catalog.Permits role e field.name field.column ∧
      field.relationship? = e.relationship? field.name := by
  cases field with
  | plain name output column relationship => exact h e rfl
  | nested name output column relationship entity object fields =>
    exact ⟨(h e rfl).1, (h e rfl).2.1⟩

end MaskedField

open MaskedField

section

variable {catalog : Catalog} {role : String}

theorem allows_of_checkField {op : Operation} {usage : Access.Usage} {e : Entity} {field : String}
    (h : Access.checkField catalog role op usage e field = .ok ()) :
    catalog.allows role op e field = true := by
  rw [Access.checkField] at h
  by_cases hallows : catalog.allows role op e field
  · exact hallows
  · rw [if_neg hallows] at h
    cases h

mutual

/-- A selected field that is checked is granted. -/
theorem granted_of_checkSelection (owner : Option Entity) :
    (s : Selection) → Access.checkSelection catalog role .read owner s = .ok () →
      ∀ field, FieldMask.ofSelection catalog owner s = .ok field → field.Granted catalog role owner
  | ⟨name, label, typeHint, children⟩, hcheck => by
    intro field hfield
    cases owner with
    | none => exact granted_none field
    | some e =>
      rw [Access.checkSelection, Except.check_bind_eq_ok_iff] at hcheck
      rw [FieldMask.ofSelection] at hfield
      obtain ⟨column, hcolumn, hfield⟩ := Except.bind_eq_ok_iff.1 hfield
      have hpermits : catalog.Permits role e name column :=
        ⟨allows_of_checkField hcheck.1, hcolumn⟩
      by_cases hempty : children.isEmpty
      · simp only [hempty, ↓reduceIte] at hfield
        cases hfield
        rw [Granted]
        rintro _ ⟨⟩
        exact ⟨hpermits, rfl⟩
      · simp only [hempty, Bool.false_eq_true, ↓reduceIte] at hfield
        obtain ⟨fields, hfields, hfield⟩ := Except.bind_eq_ok_iff.1 hfield
        cases hfield
        rw [Granted]
        rintro _ ⟨⟩
        exact ⟨hpermits, rfl, typeHint, rfl,
          grantedAll_of_checkSelections _ children hcheck.2 fields hfields⟩
termination_by structural s => s

/-- Selected fields that are checked are granted. -/
theorem grantedAll_of_checkSelections (owner : Option Entity) :
    (ss : List Selection) → Access.checkSelections catalog role .read owner ss = .ok () →
      ∀ fields, FieldMask.fieldsOf catalog owner ss = .ok fields →
        GrantedAll catalog role owner fields
  | [], _ => by
    intro fields hfields
    cases hfields
    trivial
  | s :: rest, hcheck => by
    intro fields hfields
    rw [Access.checkSelections, Except.check_bind_eq_ok_iff] at hcheck
    rw [FieldMask.fieldsOf] at hfields
    obtain ⟨field, hfield, hfields⟩ := Except.bind_eq_ok_iff.1 hfields
    obtain ⟨others, hothers, hfields⟩ := Except.bind_eq_ok_iff.1 hfields
    cases hfields
    exact ⟨granted_of_checkSelection owner s hcheck.1 field hfield,
      grantedAll_of_checkSelections owner rest hcheck.2 others hothers⟩
termination_by structural ss => ss

end

/-- Every field of an ordering that is checked may be read. -/
theorem allows_of_checkOrder {e : Entity} {fields : List String}
    (h : Access.checkOrder catalog role .read e fields = .ok ()) :
    ∀ field ∈ fields, catalog.allows role .read e field = true := by
  intro field hfield
  exact allows_of_checkField (Except.forM_eq_ok_iff.1 h field hfield)

end

end RoleQuery
