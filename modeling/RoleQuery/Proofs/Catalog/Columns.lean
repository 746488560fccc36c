import RoleQuery.Catalog.Build
import RoleQuery.Selection
import RoleQuery.Proofs.Outcome
import Mathlib.Data.List.Nodup

/-!
# Columns of configured entities

No two fields of an entity are stored in one column: a configuration that maps a column twice
gives no catalog. Related rows are fetched under the name of their relationship, and nothing
keeps a field of the entity from being stored in a column of that name. Where no field is,
every column holds one member.
-/
namespace RoleQuery

theorem Entity.mem_fields_of_field? {e : Entity} {name : String} {f : Field}
    (h : e.field? name = some f) : f ∈ e.fields :=
  List.mem_reverse.1 (List.mem_of_find?_eq_some h)

theorem Entity.name_of_field? {e : Entity} {name : String} {f : Field}
    (h : e.field? name = some f) : f.name = name := by
  rw [field?] at h
  simpa using List.find?_some h

/-- What a column holds belongs to the member `name`, and to no other member. -/
structure Entity.Keeps (e : Entity) (column name : String) : Prop where
  field : ∀ f ∈ e.fields, f.column = column → f.name = name
  relationship : (e.relationship? column).isSome → column = name

/-- Every relationship of an entity pairs some columns. -/
def Entity.Pairs (e : Entity) : Prop :=
  ∀ r ∈ e.relationships, r.sourceColumns ≠ [] ∧ r.targetColumns ≠ []

namespace Catalog

/-- No two fields of an entity of the catalog are stored in one column. -/
def ColumnsApart (catalog : Catalog) : Prop :=
  ∀ e ∈ catalog.entities, (e.fields.map (·.column)).Nodup

/-- No relationship of an entity of the catalog has the name of a column. -/
def NamesApart (catalog : Catalog) : Prop :=
  ∀ e ∈ catalog.entities, ∀ f ∈ e.fields, e.relationship? f.column = none

/-- The column behind a member holds that member. -/
theorem keeps_of_columnOf {catalog : Catalog} (hcolumns : catalog.ColumnsApart)
    (hnames : catalog.NamesApart) {e : Entity} (he : e ∈ catalog.entities) {name column : String}
    (h : FieldMask.columnOf (some e) name = .ok column) : e.Keeps column name := by
  rw [FieldMask.columnOf] at h
  by_cases hr : (e.relationship? name).isSome
  · rw [if_pos hr] at h
    cases h
    refine ⟨fun f hf hcolumn => ?_, fun _ => rfl⟩
    rw [← hcolumn, hnames e he f hf] at hr
    cases hr
  · rw [if_neg hr] at h
    cases hf : e.field? name with
    | none => rw [hf] at h; cases h
    | some f =>
      rw [hf] at h
      cases h
      have hmem := Entity.mem_fields_of_field? hf
      refine ⟨fun g hg hcolumn => ?_, fun hsome => ?_⟩
      · rw [List.inj_on_of_nodup_map (hcolumns e he) hg hmem hcolumn, Entity.name_of_field? hf]
      · rw [hnames e he f hmem] at hsome
        cases hsome

theorem column_of_buildField {config : FieldConfig} {f : Field} (h : buildField config = .ok f) :
    f.column = config.column.getD config.name := by
  unfold buildField at h
  cases hkind : config.kind <;> cases htype : config.type <;>
    simp only [hkind, htype, reduceCtorEq, Except.ok.injEq] at h <;> rw [← h]

/-- Fields are built for columns that are new, each once. -/
theorem nodup_of_buildFields {configs : List FieldConfig} {mapped : List String}
    {fields : List Field} (h : buildFields mapped configs = .ok fields) :
    (fields.map (·.column)).Nodup ∧ ∀ f ∈ fields, f.column ∉ mapped := by
  induction configs generalizing mapped fields with
  | nil =>
    cases h
    simp
  | cons config rest ih =>
    rw [buildFields] at h
    by_cases hmapped : mapped.contains (config.column.getD config.name)
    · simp only [hmapped, ↓reduceIte] at h
      cases h
    · simp only [hmapped, Bool.false_eq_true, ↓reduceIte] at h
      obtain ⟨f, hf, h⟩ := Except.bind_eq_ok_iff.1 h
      obtain ⟨others, hothers, h⟩ := Except.bind_eq_ok_iff.1 h
      cases h
      obtain ⟨hnodup, hnew⟩ := ih hothers
      have hcolumn := column_of_buildField hf
      refine ⟨List.nodup_cons.2 ⟨?_, hnodup⟩, List.forall_mem_cons.2 ⟨?_, ?_⟩⟩
      · intro hmem
        obtain ⟨g, hg, hsame⟩ := List.mem_map.1 hmem
        exact hnew g hg (List.mem_cons.2 (.inl (hsame.trans hcolumn)))
      · rw [hcolumn]
        simpa using hmapped
      · intro g hg hmem
        exact hnew g hg (List.mem_cons_of_mem _ hmem)

/-- What is built for an entity: its columns are apart, and it has a primary key. -/
theorem spec_of_buildEntity {settings : Settings} {name : String} {config : EntityConfig}
    {e : Entity} (h : buildEntity settings name config = .ok e) :
    (e.fields.map (·.column)).Nodup ∧ e.key ≠ [] := by
  rw [buildEntity] at h
  obtain ⟨fields, hfields, h⟩ := Except.bind_eq_ok_iff.1 h
  by_cases hkey : fields.any (·.isKey)
  · simp only [hkey, Bool.not_true, Bool.false_eq_true, ↓reduceIte] at h
    cases h
    refine ⟨(nodup_of_buildFields hfields).1, ?_⟩
    simpa [Entity.key] using hkey
  · simp only [hkey, Bool.not_false, ↓reduceIte] at h
    cases h

theorem mem_putEntity {e other : Entity} {es : List Entity} (h : other ∈ putEntity e es) :
    other = e ∨ other ∈ es := by
  induction es with
  | nil => simpa [putEntity] using h
  | cons first rest ih =>
    rw [putEntity] at h
    split at h
    · rcases List.mem_cons.1 h with h | h
      · exact .inl h
      · exact .inr (List.mem_cons_of_mem _ h)
    · rcases List.mem_cons.1 h with rfl | h
      · exact .inr List.mem_cons_self
      · exact (ih h).imp_right (List.mem_cons_of_mem _)

theorem forall_of_buildEntities {P : Entity → Prop}
    (hP : ∀ {settings name config e}, buildEntity settings name config = .ok e → P e)
    {configs : List (String × EntityConfig)} {start c : Catalog}
    (h : buildEntities start configs = .ok c) (hstart : ∀ e ∈ start.entities, P e) :
    ∀ e ∈ c.entities, P e := by
  induction configs generalizing start with
  | nil =>
    cases h
    exact hstart
  | cons config rest ih =>
    obtain ⟨name, config⟩ := config
    rw [buildEntities] at h
    obtain ⟨e, he, h⟩ := Except.bind_eq_ok_iff.1 h
    refine ih h fun other hother => ?_
    rcases mem_putEntity hother with rfl | hother
    · cases hbuild : buildEntity start.settings name config with
      | error fault => rw [hbuild] at he; cases he
      | ok built =>
        rw [hbuild] at he
        cases he
        exact hP hbuild
    · exact hstart other hother

/-- What holds of every entity that is built holds of the entities of a configured catalog. -/
theorem forall_of_ofConfig {P : Entity → Prop}
    (hP : ∀ {settings name config e}, buildEntity settings name config = .ok e → P e)
    {config : Config} {catalog : Catalog} (h : ofConfig config = .ok catalog) :
    ∀ e ∈ catalog.entities, P e := by
  rw [ofConfig] at h
  obtain ⟨built, hbuilt, h⟩ := Except.bind_eq_ok_iff.1 h
  obtain ⟨_, -, h⟩ := Except.bind_eq_ok_iff.1 h
  obtain ⟨table, -, h⟩ := Except.bind_eq_ok_iff.1 h
  cases h
  have hempty : ∀ e ∈ (empty config.settings).entities, P e :=
    fun e he => absurd he List.not_mem_nil
  exact fun e he => forall_of_buildEntities hP hbuilt hempty e he

/-- The columns of a configured catalog are apart. -/
theorem columnsApart_of_ofConfig {config : Config} {catalog : Catalog}
    (h : ofConfig config = .ok catalog) : catalog.ColumnsApart :=
  forall_of_ofConfig (fun hbuild => (spec_of_buildEntity hbuild).1) h

/-- Every entity of a configured catalog has a primary key. -/
theorem key_ne_nil_of_ofConfig {config : Config} {catalog : Catalog}
    (h : ofConfig config = .ok catalog) : ∀ e ∈ catalog.entities, e.key ≠ [] :=
  forall_of_ofConfig (fun hbuild => (spec_of_buildEntity hbuild).2) h

/-- A relationship that passes the check leads to an entity and pairs some columns. -/
theorem spec_of_checkRelationship {catalog : Catalog} {e : Entity} {r : Relationship}
    (h : checkRelationship catalog e r = .ok ()) :
    (catalog.entity? r.target).isSome ∧ r.sourceColumns ≠ [] ∧ r.targetColumns ≠ [] := by
  rw [checkRelationship] at h
  split at h
  · cases h
  · rename_i htarget
    split at h
    · cases h
    · rename_i hpaired
      rw [not_or, not_not, Bool.not_eq_true, List.isEmpty_eq_false_iff] at hpaired
      refine ⟨by simpa [Option.isSome_iff_ne_none] using htarget, hpaired.2, fun hnil => ?_⟩
      apply hpaired.2
      rw [← List.length_eq_zero_iff, hpaired.1, hnil, List.length_nil]

/-- Every relationship of a configured catalog has passed the check. -/
theorem checkRelationship_of_ofConfig {config : Config} {catalog : Catalog}
    (h : ofConfig config = .ok catalog) {e : Entity} (he : e ∈ catalog.entities) {r : Relationship}
    (hr : r ∈ e.relationships) : checkRelationship catalog e r = .ok () := by
  obtain ⟨built, -, h⟩ := Except.bind_eq_ok_iff.1 h
  obtain ⟨hcheck, h⟩ := Except.check_bind_eq_ok_iff.1 h
  obtain ⟨table, -, h⟩ := Except.bind_eq_ok_iff.1 h
  cases h
  exact Except.forM_eq_ok_iff.1 (Except.forM_eq_ok_iff.1 hcheck e he) r hr

/-- The relationships of a configured catalog pair columns. -/
theorem pairs_of_ofConfig {config : Config} {catalog : Catalog} (h : ofConfig config = .ok catalog)
    {e : Entity} (he : e ∈ catalog.entities) : e.Pairs :=
  fun _ hr => (spec_of_checkRelationship (checkRelationship_of_ofConfig h he hr)).2

end Catalog

end RoleQuery
