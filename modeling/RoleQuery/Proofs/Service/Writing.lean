import RoleQuery.Proofs.Catalog.Columns
import RoleQuery.Proofs.Paging.FollowUp
import RoleQuery.Proofs.Tables.Writing
import RoleQuery.Service.Write

/-!
# What a request to write does

A request to write goes through several checks before the tables are touched, and its answer
is made after they were. The checks do not look at the tables, so an error that does not come
from them is the same whatever they hold. Once the write is carried out nothing can fail any
more: the answer shows fields of the entity without nested values. So an error means that
nothing has changed, and a success that one row of the table of the entity was added, changed
or removed as the request asks for.
-/
namespace RoleQuery

namespace Entity

variable (e : Entity)

/-- A row has the primary key that a request gives: for each field of the key the request
gives a scalar other than null, and the column of the field holds the same. -/
def Keyed (key : Members) (row : Json) : Prop :=
  ∀ f ∈ e.key, ∃ v found, (key.get? f.name).bind Value.ofJson? = some v ∧ v.isNull = false ∧
    (row.get? f.column).bind Value.ofJson? = some found ∧ found.same v = true

/-- The members of a row with the values of a request written to it. The columns of written
fields are added where there are none, and hold the last value that is given for their
field; all others are kept. -/
structure Stores (input old new : Members) : Prop where
  names : new.names = Predicate.addNew old.names (input.names.map e.column)
  kept : ∀ column ∉ input.names.map e.column, new.get? column = old.get? column
  written : ∀ (before after : Members) field raw, input = before ++ (field, raw) :: after →
    field ∉ after.names →
      ∃ v, Value.ofJson? raw = some v ∧ new.get? (e.column field) = some v.toJson

/-- What a request does to the rows of its table. -/
inductive Changed (request : WriteRequest) : List Json → List Json → Prop where
  | created {rows : List Json} {new : Members} (operation : request.operation = .create)
      (stores : e.Stores request.input [] new) : Changed request rows (rows ++ [.object new])
  | updated {before after : List Json} {old new : Members} (operation : request.operation = .update)
      (keyed : e.Keyed request.key (.object old))
      (first : ∀ row ∈ before, ¬ e.Keyed request.key row)
      (stores : e.Stores request.input old new) :
      Changed request (before ++ .object old :: after) (before ++ .object new :: after)
  | deleted {before after : List Json} {row : Json} (operation : request.operation = .delete)
      (keyed : e.Keyed request.key row) (first : ∀ row ∈ before, ¬ e.Keyed request.key row) :
      Changed request (before ++ row :: after) (before ++ after)

/-- The row that a request puts into its table: at the end if it creates one, and in the place
of the first row that has its key if it updates one. -/
inductive Puts (request : WriteRequest) : Json → List Json → List Json → Prop where
  | created {rows : List Json} {new : Members} (operation : request.operation = .create)
      (stores : e.Stores request.input [] new) :
      Puts request (.object new) rows (rows ++ [.object new])
  | updated {before after : List Json} {old new : Members} (operation : request.operation = .update)
      (keyed : e.Keyed request.key (.object old))
      (first : ∀ row ∈ before, ¬ e.Keyed request.key row)
      (stores : e.Stores request.input old new) :
      Puts request (.object new) (before ++ .object old :: after) (before ++ .object new :: after)

variable {e}

theorem Puts.changed {request : WriteRequest} {row : Json} {rows rows' : List Json}
    (h : e.Puts request row rows rows') : e.Changed request rows rows' := by
  cases h with
  | created operation stores => exact .created operation stores
  | updated operation keyed first stores => exact .updated operation keyed first stores

/-- The row that is put into a table holds the values of the request. -/
theorem Puts.exists_stores {request : WriteRequest} {row : Json} {rows rows' : List Json}
    (h : e.Puts request row rows rows') :
    ∃ old new, row = .object new ∧ e.Stores request.input old new := by
  cases h with
  | created operation stores => exact ⟨[], _, rfl, stores⟩
  | updated operation keyed first stores => exact ⟨_, _, rfl, stores⟩

/-- Only documents have a key. -/
theorem Keyed.exists_object {key : Members} {row : Json} (h : e.Keyed key row) (hkey : e.key ≠ []) :
    ∃ ms, row = .object ms := by
  obtain ⟨f, hf⟩ := List.exists_mem_of_ne_nil _ hkey
  obtain ⟨v, found, -, -, hfound, -⟩ := h f hf
  cases row with
  | object ms => exact ⟨ms, rfl⟩
  | _ => simp [Json.get?] at hfound

/-- Two fields with one column are one. -/
theorem eq_of_column_eq (hcolumns : (e.fields.map (·.column)).Nodup) {a b : String}
    (ha : (e.field? a).isSome) (hb : (e.field? b).isSome) (h : e.column a = e.column b) :
    a = b := by
  obtain ⟨f, hf⟩ := Option.isSome_iff_exists.1 ha
  obtain ⟨g, hg⟩ := Option.isSome_iff_exists.1 hb
  rw [column, column, hf, hg] at h
  have hsame : f = g := List.inj_on_of_nodup_map hcolumns (mem_fields_of_field? hf)
    (mem_fields_of_field? hg) h
  rw [← name_of_field? hf, ← name_of_field? hg, hsame]

end Entity

namespace Catalog

variable {catalog : Catalog} {e : Entity} {request : WriteRequest} {caller : Caller}

/-! ## What is written where -/

theorem keyValues_cons_eq_ok {key : Members} {f : Field} {rest : List Field}
    {pairs : List (String × Value)} (h : keyValues e key (f :: rest) = .ok pairs) :
    ∃ v others, (key.get? f.name).bind Value.ofJson? = some v ∧ v.isNull = false ∧
      keyValues e key rest = .ok others ∧ pairs = (f.column, v) :: others := by
  rw [keyValues] at h
  cases hv : (key.get? f.name).bind Value.ofJson? with
  | none =>
    rw [hv] at h
    cases h
  | some v =>
    rw [hv] at h
    cases v with
    | null => cases h
    | _ =>
      obtain ⟨others, hothers, rfl⟩ := Except.map_eq_ok_iff.1 h
      exact ⟨_, others, rfl, rfl, hothers, rfl⟩

/-- The columns of a key identify the rows that have the key. -/
theorem hasKey_iff_of_keyValues {key : Members} {fields : List Field}
    {pairs : List (String × Value)}
    (h : keyValues e key fields = .ok pairs) (row : Json) :
    Tables.hasKey pairs row = true ↔
      ∀ f ∈ fields, ∃ v found, (key.get? f.name).bind Value.ofJson? = some v ∧ v.isNull = false ∧
        (row.get? f.column).bind Value.ofJson? = some found ∧ found.same v = true := by
  induction fields generalizing pairs with
  | nil =>
    cases h
    simp [Tables.hasKey]
  | cons f rest ih =>
    obtain ⟨v, others, hv, hnull, hothers, rfl⟩ := keyValues_cons_eq_ok h
    rw [Tables.hasKey_cons, ih hothers, List.forall_mem_cons]
    simp [hv, hnull]

/-- Every written column is that of a field, with the value that is given for the field. -/
theorem forall₂_of_writtenValues {input : Members} {values : List (String × Value)}
    (h : writtenValues e input = .ok values) :
    List.Forall₂ (fun m value => value.1 = e.column m.1 ∧ Value.ofJson? m.2 = some value.2) input
      values := by
  induction input generalizing values with
  | nil =>
    cases h
    exact .nil
  | cons m rest ih =>
    obtain ⟨field, raw⟩ := m
    rw [writtenValues] at h
    cases hv : Value.ofJson? raw with
    | none =>
      rw [hv] at h
      cases h
    | some v =>
      rw [hv] at h
      obtain ⟨others, hothers, rfl⟩ := Except.map_eq_ok_iff.1 h
      exact .cons ⟨rfl, hv⟩ (ih hothers)

theorem map_fst_of_forall₂ {input : Members} {values : List (String × Value)}
    (h : List.Forall₂
      (fun m value => value.1 = e.column m.1 ∧ Value.ofJson? m.2 = some value.2) input values) :
    values.map (·.1) = input.names.map e.column := by
  induction h with
  | nil => rfl
  | cons hfirst _ ih => exact congrArg₂ _ hfirst.1 ih

theorem exists_append_of_forall₂ {α β : Type} {R : α → β → Prop} {before after : List α} {a : α}
    {bs : List β} (h : List.Forall₂ R (before ++ a :: after) bs) :
    ∃ first b last, bs = first ++ b :: last ∧ R a b ∧ List.Forall₂ R after last := by
  induction before generalizing bs with
  | nil =>
    cases h with
    | cons ha hafter => exact ⟨[], _, _, rfl, ha, hafter⟩
  | cons other rest ih =>
    cases h with
    | cons _ hrest =>
      obtain ⟨first, b, last, rfl, hb, hlast⟩ := ih hrest
      exact ⟨_ :: first, b, last, rfl, hb, hlast⟩

/-- Values that are given for fields of the entity are stored in their columns. -/
theorem stores_of_writtenValues (hcolumns : (e.fields.map (·.column)).Nodup) {input : Members}
    {values : List (String × Value)} (hfields : ∀ field ∈ input.names, (e.field? field).isSome)
    (h : writtenValues e input = .ok values) (old : Members) :
    e.Stores input old (Tables.stored values old) := by
  have hpairs := forall₂_of_writtenValues h
  have hnames := map_fst_of_forall₂ hpairs
  constructor
  · rw [Tables.names_stored, hnames]
  · intro column hcolumn
    exact Tables.get?_stored_of_not_mem (by rwa [hnames]) old
  · rintro before after field raw rfl hlast
    obtain ⟨first, ⟨column, v⟩, last, rfl, ⟨rfl, hv⟩, hafter⟩ := exists_append_of_forall₂ hpairs
    refine ⟨v, hv, Tables.get?_stored ?_ old⟩
    rw [map_fst_of_forall₂ hafter]
    intro hmem
    obtain ⟨other, hother, hsame⟩ := List.mem_map.1 hmem
    have hin : ∀ name, name = field ∨ name ∈ after.names →
        name ∈ Members.names (before ++ (field, raw) :: after) := by
      intro name hname
      simp only [Members.names, List.map_append, List.map_cons, List.mem_append, List.mem_cons]
      exact .inr hname
    have heq := Entity.eq_of_column_eq hcolumns (hfields other (hin other (.inr hother)))
      (hfields field (hin field (.inl rfl))) hsame
    exact hlast (heq ▸ hother)

/-! ## What is planned -/

/-- Only fields of the entity are written. -/
theorem isSome_field?_of_checkWritable {field : String} (h : checkWritable e field = .ok ()) :
    (e.field? field).isSome := by
  rw [checkWritable] at h
  by_cases hf : (e.field? field).isSome
  · exact hf
  · rw [if_neg hf] at h
    split at h <;> cases h

theorem authorizeWrite_spec {op : Operation} {fields : List String} {policy : Option Filter}
    (h : authorizeWrite catalog e op fields caller = .ok policy) :
    op ≠ .read ∧ ∀ field ∈ fields, (e.field? field).isSome := by
  rw [authorizeWrite] at h
  by_cases hop : op = .read
  · rw [if_pos hop] at h
    cases h
  · rw [if_neg hop] at h
    obtain ⟨p, -, h⟩ := Except.bind_eq_ok_iff.1 h
    obtain ⟨_, hwritable, -⟩ := Except.bind_eq_ok_iff.1 h
    refine ⟨hop, fun field hfield => ?_⟩
    exact isSome_field?_of_checkWritable (Except.forM_eq_ok_iff.1 hwritable field hfield)

/-- What is planned is what the request asks for. -/
theorem planWrite_spec {plan : WritePlan} (h : catalog.planWrite e request caller = .ok plan) :
    plan.object = e.object ∧ plan.operation = request.operation ∧
      writtenValues e request.input = .ok plan.values ∧
      (request.operation ≠ .create → keyValues e request.key e.key = .ok plan.key) ∧
      ∀ field ∈ request.input.names, (e.field? field).isSome := by
  rw [planWrite] at h
  obtain ⟨policy, hauthorized, h⟩ := Except.bind_eq_ok_iff.1 h
  obtain ⟨values, hvalues, h⟩ := Except.bind_eq_ok_iff.1 h
  have hfields := (authorizeWrite_spec hauthorized).2
  by_cases hop : request.operation = .create
  · rw [if_pos hop] at h
    obtain ⟨_, -, h⟩ := Except.bind_eq_ok_iff.1 h
    obtain ⟨compiled, -, h⟩ := Except.bind_eq_ok_iff.1 h
    cases h
    exact ⟨rfl, rfl, hvalues, fun hne => absurd hop hne, hfields⟩
  · rw [if_neg hop] at h
    obtain ⟨key, hkey, h⟩ := Except.bind_eq_ok_iff.1 h
    obtain ⟨compiled, -, h⟩ := Except.bind_eq_ok_iff.1 h
    cases h
    exact ⟨rfl, rfl, hvalues, fun _ => hkey, hfields⟩

/-! ## Requests -/

/-- A field of an entity is resolved if nothing is selected below it. -/
theorem exists_ofSelection_leaf (catalog : Catalog) {field : String} (h : (e.field? field).isSome) :
    ∃ masked, FieldMask.ofSelection catalog (some e) (.leaf field) = .ok masked := by
  obtain ⟨f, hf⟩ := Option.isSome_iff_exists.1 h
  have hcolumn : ∃ column, FieldMask.columnOf (some e) field = .ok column := by
    rw [FieldMask.columnOf, hf]
    split
    · exact ⟨_, rfl⟩
    · exact ⟨_, rfl⟩
  obtain ⟨column, hcolumn⟩ := hcolumn
  exact ⟨_, by rw [Selection.leaf, FieldMask.ofSelection, hcolumn]; rfl⟩

theorem exists_fieldsOf_leaves (catalog : Catalog) {fields : List Field}
    (h : ∀ f ∈ fields, (e.field? f.name).isSome) :
    ∃ masked, FieldMask.fieldsOf catalog (some e) (fields.map fun f => .leaf f.name) =
      .ok masked := by
  induction fields with
  | nil => exact ⟨[], rfl⟩
  | cons f rest ih =>
    rw [List.forall_mem_cons] at h
    obtain ⟨first, hfirst⟩ := exists_ofSelection_leaf catalog h.1
    obtain ⟨others, hothers⟩ := ih h.2
    exact ⟨first :: others, by rw [List.map_cons, FieldMask.fieldsOf, hfirst, hothers]; rfl⟩

/-- The answer to a write can always be made. -/
theorem exists_answerWrite (catalog : Catalog) (e : Entity) (op : Operation) (caller : Caller)
    (row : Json) : ∃ answer, catalog.answerWrite e op caller row = .ok answer := by
  rw [answerWrite]
  cases catalog.readGrant? e caller with
  | none => exact ⟨_, rfl⟩
  | some p =>
    have hknown : ∀ f ∈ e.fields.filter fun f => p.allows f.name, (e.field? f.name).isSome := by
      intro f hf
      rw [Entity.field?, List.find?_isSome]
      exact ⟨f, List.mem_reverse.2 (List.mem_of_mem_filter hf), by simp⟩
    obtain ⟨masked, hmasked⟩ := exists_fieldsOf_leaves catalog hknown
    refine ⟨.item (FieldMask.shape ⟨some e.name, some e.object, masked⟩ row), ?_⟩
    simp only [Selection.readable, FieldMask.ofSelections, hmasked]
    rfl

/-- The rows with the planned key are those that have the key of the request. -/
theorem hasKey_iff_of_planWrite {plan : WritePlan}
    (hplan : catalog.planWrite e request caller = .ok plan)
    (hoperation : request.operation ≠ .create) (row : Json) :
    Tables.hasKey plan.key row = true ↔ e.Keyed request.key row :=
  hasKey_iff_of_keyValues ((planWrite_spec hplan).2.2.2.1 hoperation) row

/-- What is carried out of a planned create or update puts a row with the values of the
request into the table. -/
theorem puts_of_wrote (hcolumns : (e.fields.map (·.column)).Nodup) (hkey : e.key ≠ [])
    (hoperation : request.operation ≠ .delete) {plan : WritePlan}
    (hplan : catalog.planWrite e request caller = .ok plan) {t t' : Tables} {row : Json}
    (h : t.Wrote plan (.applied row) t') :
    e.Puts request row (t.rows e.object) (t'.rows e.object) := by
  obtain ⟨hobject, hsame, hvalues, -, hfields⟩ := planWrite_spec hplan
  have hstores := stores_of_writtenValues hcolumns hfields hvalues
  cases h with
  | created operation admitted =>
    rw [← hobject, Tables.rows_put_self, Tables.newRow_eq]
    exact .created (hsame ▸ operation) (hstores [])
  | @updated before after old operation rows key first admitted =>
    rw [hsame] at operation
    simp only [hasKey_iff_of_planWrite hplan (by simp [operation])] at key first
    obtain ⟨ms, rfl⟩ := key.exists_object hkey
    rw [← hobject, Tables.rows_put_self, rows, Tables.writeValues_object]
    exact .updated operation key first (hstores ms)
  | deleted operation => exact absurd (hsame ▸ operation) hoperation

/-- What is carried out of a planned request changes the rows of the
table as the request asks. -/
theorem changed_of_wrote (hcolumns : (e.fields.map (·.column)).Nodup) (hkey : e.key ≠ [])
    {plan : WritePlan} (hplan : catalog.planWrite e request caller = .ok plan) {t t' : Tables}
    {row : Json} (h : t.Wrote plan (.applied row) t') :
    e.Changed request (t.rows e.object) (t'.rows e.object) := by
  obtain ⟨hobject, hsame, -⟩ := planWrite_spec hplan
  by_cases hdelete : request.operation = .delete
  · cases h with
    | deleted operation rows key first admitted =>
      simp only [hasKey_iff_of_planWrite hplan (by simp [hdelete])] at key first
      rw [← hobject, Tables.rows_put_self, rows]
      exact .deleted hdelete key first
    | created operation | updated operation =>
      rw [hsame, hdelete] at operation
      cases operation
  · exact (puts_of_wrote hcolumns hkey hdelete hplan h).changed

/-- What becomes of a request to write, one case for each place where it may end. -/
inductive Ended (catalog : Catalog) (t : Tables) (request : WriteRequest) (caller : Caller) :
    Except RequestError WriteAnswer × Tables → Prop where
  /-- Refused, whatever the tables hold. -/
  | refused {error : RequestError}
      (refused : ∀ other, catalog.write other request caller = (.error error, other)) :
      Ended catalog t request caller (.error error, t)
  /-- Refused by the tables, and nothing is written. -/
  | failed {error : RequestError} (post : error.isPostExecution = true) :
      Ended catalog t request caller (.error error, t)
  /-- Carried out and answered. -/
  | carriedOut {e : Entity} {plan : WritePlan} {row : Json} {answer : WriteAnswer} {t' : Tables}
      (entity : catalog.entity? request.entity = some e)
      (planned : catalog.planWrite e request caller = .ok plan)
      (wrote : t.Wrote plan (.applied row) t')
      (answered : catalog.answerWrite e request.operation caller row = .ok answer) :
      Ended catalog t request caller (.ok answer, t')

/-- Every request to write ends in one of these ways. -/
theorem ended_write (catalog : Catalog) (t : Tables) (request : WriteRequest) (caller : Caller) :
    catalog.Ended t request caller (catalog.write t request caller) := by
  cases hprepared : (do
    let e ← catalog.requireEntity request.entity
    let plan ← catalog.planWrite e request caller
    let _ ← plan.statement?
    return (e, plan) : Except RequestError (Entity × WritePlan)) with
  | error error =>
    have hrefused : ∀ other, catalog.write other request caller = (.error error, other) := by
      intro other
      simp only [write, hprepared]
    rw [hrefused t]
    exact .refused hrefused
  | ok prepared =>
    obtain ⟨e, plan⟩ := prepared
    have hwrite := hprepared
    obtain ⟨_, hentity, hwrite⟩ := Except.bind_eq_ok_iff.1 hwrite
    obtain ⟨_, hplan, hwrite⟩ := Except.bind_eq_ok_iff.1 hwrite
    obtain ⟨_, -, hwrite⟩ := Except.bind_eq_ok_iff.1 hwrite
    cases hwrite
    cases houtcome : t.write plan with
    | error fault =>
      simp only [write, hprepared, houtcome]
      exact .failed rfl
    | ok result =>
      obtain ⟨outcome, t'⟩ := result
      have hwrote := Tables.wrote_of_write houtcome
      cases outcome with
      | rejected =>
        cases hwrote
        simp only [write, hprepared, houtcome]
        exact .failed rfl
      | notFound =>
        cases hwrote
        simp only [write, hprepared, houtcome]
        exact .failed rfl
      | applied row =>
        obtain ⟨answer, hanswer⟩ := exists_answerWrite catalog e request.operation caller row
        simp only [write, hprepared, houtcome, hanswer]
        exact .carriedOut (requireEntity_eq_ok_iff.1 hentity) hplan hwrote hanswer

/-- A request to write is carried out as a whole or not at all. If it fails, the tables are as
they were, and unless the error comes from the tables it is the same for all tables. If it
succeeds, no other table is touched, and the rows of its own are changed as the request asks.
Making the answer never fails. -/
theorem write_atomic {config : Config} {catalog : Catalog} (hconfig : ofConfig config = .ok catalog)
    (t : Tables) (request : WriteRequest) (caller : Caller) :
    (∀ error t', catalog.write t request caller = (.error error, t') →
      t' = t ∧ (error.isPostExecution = false →
        ∀ other, catalog.write other request caller = (.error error, other))) ∧
    (∀ answer t', catalog.write t request caller = (.ok answer, t') →
      ∃ e, catalog.entity? request.entity = some e ∧
        (∀ object, object ≠ e.object → t'.rows object = t.rows object) ∧
        e.Changed request (t.rows e.object) (t'.rows e.object)) ∧
    ∀ e op row, ∃ answer, catalog.answerWrite e op caller row = .ok answer := by
  have hended := ended_write catalog t request caller
  refine ⟨fun error t' h => ?_, fun answer t' h => ?_, fun e op row =>
    exists_answerWrite catalog e op caller row⟩
  · rw [h] at hended
    cases hended with
    | refused hrefused => exact ⟨rfl, fun _ => hrefused⟩
    | failed hpost =>
      refine ⟨rfl, fun hpre => ?_⟩
      rw [hpost] at hpre
      cases hpre
  · rw [h] at hended
    cases hended with
    | @carriedOut e plan row _ _ hentity hplan hwrote hanswer =>
      have he := List.mem_of_find?_eq_some hentity
      refine ⟨e, hentity, fun object hne => ?_, ?_⟩
      · exact hwrote.rows_of_ne ((planWrite_spec hplan).1 ▸ hne)
      · exact changed_of_wrote (columnsApart_of_ofConfig hconfig e he)
          (key_ne_nil_of_ofConfig hconfig e he) hplan hwrote

/-- Tasks, which anyone may change and nobody may read. -/
def taskConfig : Config where
  settings := .default
  entities :=
    [("Task", {
        object := "tasks"
        backend := .relational
        displayNames := none
        fields := [⟨"id", none, true, .scalar, none⟩,
          ⟨"title", some "task_title", false, .scalar, none⟩]
        relationships := []
        permissions := [⟨anonymousRole, [⟨"update", none, none⟩]⟩]
        cache := none })]

/-- Tasks with a number and a title. -/
def task : Entity :=
  .ofFields "Task" "tasks" .relational
    [⟨"id", "id", true, .scalar⟩, ⟨"title", "task_title", false, .scalar⟩]

def taskBoard : Catalog :=
  ((Catalog.empty .default).addEntity task).withPermissions
    (PermissionTable.empty.grant "Task" anonymousRole .update ⟨.all, .empty, none⟩)

/-- Two tasks of one number. -/
def tasks : Tables :=
  ⟨[("tasks", [.object [("id", .int 3)], .object [("id", .int 4), ("owner", .str "Ada")],
    .object [("id", .int 4)]])]⟩

def retitle : WriteRequest := ⟨"Task", .update, [("id", .int 4)], [("title", .str "Sail")]⟩

/-- Task 4 is given a title as a whole or not at all; the first of the two tasks
of that number gets it. -/
theorem write_atomic_retitle :
    ofConfig taskConfig = .ok taskBoard ∧
      ∃ answer t', taskBoard.write tasks retitle .anonymous = (.ok answer, t') ∧
        (∀ object, object ≠ "tasks" → t'.rows object = tasks.rows object) ∧
        task.Changed retitle (tasks.rows "tasks") (t'.rows "tasks") ∧
        t'.rows "tasks" = [.object [("id", .int 3)],
          .object [("id", .int 4), ("owner", .str "Ada"), ("task_title", .str "Sail")],
          .object [("id", .int 4)]] := by
  have hconfig : ofConfig taskConfig = .ok taskBoard := rfl
  refine ⟨hconfig, _, _, rfl, ?_⟩
  obtain ⟨e, hentity, hothers, hchanged⟩ :=
    (write_atomic hconfig tasks retitle .anonymous).2.1 _ _ rfl
  obtain rfl : task = e := Option.some.inj hentity
  exact ⟨hothers, hchanged, rfl⟩

end Catalog

end RoleQuery
