import RoleQuery.Proofs.Sql.Predicate
import RoleQuery.Proofs.Sql.Select
import RoleQuery.Proofs.Statement.Plan

/-!
# What SQL statements tell about reads

A statement in SQL tells everything that a read in SQL depends on. The sub-selects tell the
documents that are added to a row, since they are built from the tables, columns and pairs of
columns that they name; the condition and the joins tell which rows satisfy the predicate.
-/
namespace RoleQuery.Sql

/-! ## Related rows -/

mutual

/-- What a sub-select builds for a row: the first document or null, or
the list of all of them. -/
def RelatedDocuments.value (t : Tables) (row : Json) : RelatedDocuments → Json
  | ⟨cardinality, object, _, columns, children, on⟩ =>
    let documents :=
      ((t.rows object).filter fun child =>
        on.all fun pair => Tables.paired row child pair.2.name pair.1.name).map fun child =>
          .object (addDocuments t child (Tables.project columns child) children)
    match cardinality with
    | .many => .list documents
    | .one => documents.headD .null
termination_by structural r => r

/-- Add what sub-selects build for a row to its columns. -/
def addDocuments (t : Tables) (row : Json) (columns : Members) :
    List (String × RelatedDocuments) → Members
  | [] => columns
  | (name, r) :: rest => addDocuments t row (columns.insert name (r.value t row)) rest
termination_by structural rs => rs

end

/-- Rows are related by the pairs of a correlation as by its columns. -/
theorem related_eq_filter (t : Tables) (object : String) (source target : List String)
    (parent child : String) (row : Json) :
    t.related object source target row = (t.rows object).filter fun other =>
      (correlation source target parent child).all fun pair =>
        Tables.paired row other pair.2.name pair.1.name := by
  rw [Tables.related, ← map_names_correlation source target parent child]
  simp only [List.all_map, Function.comp_def]

/-- A part that takes aliases and what follows it succeed if both do, one after the other. -/
theorem naming_bind_eq_ok_iff {α β : Type} {x : Naming α} {f : α → Naming β} {next : Alias}
    {b : β × Alias} :
    (x >>= f) next = .ok b ↔ ∃ a between, x next = .ok (a, between) ∧ f a between = .ok b := by
  change (x next >>= fun a => f a.1 a.2) = .ok b ↔ _
  rw [Except.bind_eq_ok_iff, Prod.exists]

mutual

/-- A field shows what its sub-select builds. -/
theorem relatedValue?_eq (t : Tables) {parent : String} (field : MaskedField)
    {r : RelatedDocuments} {next next' : Alias}
    (h : relatedDocuments parent field next = .ok (r, next')) (row : Json) :
    t.relatedValue? row field = some (r.value t row) := by
  match field, h with
  | .plain name output column relationship, h => cases h
  | .nested name output column none entity object fields, h => cases h
  | .nested name output column (some r) entity none fields, h => cases h
  | .nested name output column (some r) entity (some object) fields, h =>
    rw [relatedDocuments] at h
    obtain ⟨table, between, -, h⟩ := naming_bind_eq_ok_iff.1 h
    obtain ⟨children, between', hchildren, h⟩ := naming_bind_eq_ok_iff.1 h
    cases h
    rw [Tables.relatedValue?, related_eq_filter t object _ _ parent table]
    simp only [addRelated_eq_addDocuments t fields hchildren, RelatedDocuments.value]
    cases r.cardinality <;> rfl
termination_by structural field

/-- What is added to a row for fields is what their sub-selects build. -/
theorem addRelated_eq_addDocuments (t : Tables) {parent : String} (fields : List MaskedField)
    {children : List (String × RelatedDocuments)} {next next' : Alias}
    (h : relatedChildren parent fields next = .ok (children, next')) (row : Json)
    (columns : Members) :
    t.addRelated row columns fields = addDocuments t row columns children := by
  match fields, h with
  | [], h =>
    cases h
    rfl
  | field :: rest, h =>
    rw [relatedChildren] at h
    split at h
    · obtain ⟨child, between, hchild, h⟩ := naming_bind_eq_ok_iff.1 h
      obtain ⟨others, between', hothers, h⟩ := naming_bind_eq_ok_iff.1 h
      cases h
      rw [Tables.addRelated, relatedValue?_eq t field hchild, addDocuments,
        addRelated_eq_addDocuments t rest hothers]
    · rename_i hnone
      have hvalue : t.relatedValue? row field = none := by
        cases hv : t.relatedValue? row field with
        | none => rfl
        | some value => exact absurd (Tables.relationship?_of_relatedValue? t hv) hnone
      rw [Tables.addRelated, hvalue, addRelated_eq_addDocuments t rest h]
termination_by structural fields

end

mutual

/-- Sub-selects are of tables that statements name. -/
theorem regular_relatedDocuments {parent : String} (hparent : IsTable parent)
    (field : MaskedField) {r : RelatedDocuments} {next next' : Alias}
    (h : relatedDocuments parent field next = .ok (r, next')) : r.Regular := by
  match field, h with
  | .plain name output column relationship, h => cases h
  | .nested name output column none entity object fields, h => cases h
  | .nested name output column (some r) entity none fields, h => cases h
  | .nested name output column (some r) entity (some object) fields, h =>
    rw [relatedDocuments] at h
    obtain ⟨table, between, htable, h⟩ := naming_bind_eq_ok_iff.1 h
    obtain ⟨children, between', hchildren, h⟩ := naming_bind_eq_ok_iff.1 h
    cases h
    cases htable
    exact .mk (isTable_aliasName next)
      (regular_relatedChildren (isTable_aliasName next) fields hchildren)
      (betweenTables_correlation hparent (isTable_aliasName next))
termination_by structural field

theorem regular_relatedChildren {parent : String} (hparent : IsTable parent)
    (fields : List MaskedField) {children : List (String × RelatedDocuments)}
    {next next' : Alias} (h : relatedChildren parent fields next = .ok (children, next')) :
    ∀ child ∈ children, child.2.Regular := by
  match fields, h with
  | [], h =>
    cases h
    exact fun child hchild => absurd hchild List.not_mem_nil
  | field :: rest, h =>
    rw [relatedChildren] at h
    split at h
    · obtain ⟨child, between, hchild, h⟩ := naming_bind_eq_ok_iff.1 h
      obtain ⟨others, between', hothers, h⟩ := naming_bind_eq_ok_iff.1 h
      cases h
      exact List.forall_mem_cons.2 ⟨regular_relatedDocuments hparent field hchild,
        regular_relatedChildren hparent rest hothers⟩
    · exact regular_relatedChildren hparent rest h
termination_by structural fields

end

/-! ## Plans -/

/-- The parts of a read in SQL come from the parts of its plan. -/
theorem Select.ofPlan_eq_ok {plan : QueryPlan} {s : Select} (h : ofPlan plan = .ok s) :
    ∃ children next joins condition,
      relatedChildren rootName plan.mask.fields (firstAlias plan.nextAlias) =
        .ok (children, next) ∧
      plan.joins.mapM dialect.ofTraversal = .ok joins ∧
      plan.predicate.mapM ofPredicate = .ok condition ∧
      s = ⟨plan.columns, children, plan.object, joins,
        condition.toList ++ (keyset plan.pagination).toList, plan.pagination.order,
        plan.pagination.fetchLimit⟩ := by
  rw [ofPlan] at h
  obtain ⟨⟨children, next⟩, hchildren, h⟩ := Except.bind_eq_ok_iff.1 h
  obtain ⟨joins, hjoins, h⟩ := Except.bind_eq_ok_iff.1 h
  obtain ⟨condition, hcondition, h⟩ := Except.bind_eq_ok_iff.1 h
  cases h
  exact ⟨children, next, joins, condition, hchildren, hjoins, hcondition, rfl⟩

/-- The read of a sound plan is regular. Its last condition is the
position, if there is one. -/
theorem exists_regular_ofPlan {plan : QueryPlan} {s : Select} (hplan : plan.Sound)
    (h : Select.ofPlan plan = .ok s) {condition : Option Condition}
    (hcondition : plan.predicate.mapM ofPredicate = .ok condition) :
    ∃ position : List Condition, s.Regular (condition.toList ++ position) ∧
      position.length = (keyset plan.pagination).toList.length := by
  obtain ⟨children, next, joins, condition', hchildren, hjoins, hcondition', rfl⟩ :=
    Select.ofPlan_eq_ok h
  obtain rfl : condition = condition' := Except.ok.inj (hcondition.symm.trans hcondition')
  have hregular := QueryPlan.regular_condition writes_dialect hplan hcondition
  have hposition : ∃ position : List Condition, (∀ c ∈ position, Regular c) ∧
      (keyset plan.pagination).toList.map (·.pieces dialect) =
        position.map (·.pieces dialect) := by
    rw [keyset]
    cases hcontinuation : plan.pagination.continuation with
    | after values =>
      obtain ⟨c, hc, hpieces⟩ :=
        exists_regular_keysetAfter plan.pagination (hplan.position values hcontinuation)
      exact ⟨[c], by simpa using hc, by simp [hpieces]⟩
    | start => exact ⟨[], by simp, rfl⟩
    | token token => exact ⟨[], by simp, rfl⟩
  obtain ⟨position, hall, hwritten⟩ := hposition
  refine ⟨position, ⟨?_, ?_, ?_, ?_⟩, ?_⟩
  · exact regular_relatedChildren isTable_rootName plan.mask.fields hchildren
  · intro r hr
    obtain ⟨via, -, hvia⟩ := Except.exists_of_mem_mapM hjoins hr
    exact regular_ofTraversal hvia
  · intro c hc
    rcases List.mem_append.1 hc with hc | hc
    · exact hregular c (Option.mem_toList.1 hc)
    · exact hall c hc
  · rw [List.map_append, List.map_append, hwritten]
  · simpa using (congrArg List.length hwritten).symm

/-- Sound plans in SQL with one statement fetch alike from the same start. -/
theorem fetchesLike_of_ofPieces_eq (t : Tables) {plan plan' : QueryPlan} {s s' : Select}
    (hplan : plan.Sound) (hplan' : plan'.Sound) (hapart : plan.JoinsApart)
    (hapart' : plan'.JoinsApart) (hs : Select.ofPlan plan = .ok s)
    (hs' : Select.ofPlan plan' = .ok s')
    (h : Statement.ofPieces s.pieces = Statement.ofPieces s'.pieces)
    (hbackend : plan.backend = plan'.backend)
    (hcontinuation : plan.pagination.continuation = plan'.pagination.continuation)
    (hlimit : plan.pagination.fetchLimit = plan'.pagination.fetchLimit) :
    t.FetchesLike plan plan' := by
  obtain ⟨children, next, joins, condition, hchildren, hjoins, hcondition, hmade⟩ :=
    Select.ofPlan_eq_ok hs
  obtain ⟨children', next', joins', condition', hchildren', hjoins', hcondition', hmade'⟩ :=
    Select.ofPlan_eq_ok hs'
  obtain ⟨position, hregular, hposition⟩ := exists_regular_ofPlan hplan hs hcondition
  obtain ⟨position', hregular', hposition'⟩ := exists_regular_ofPlan hplan' hs' hcondition'
  obtain ⟨hcolumns, hrelated, hobject, hsame, hconditions, horder⟩ :=
    hregular.same_of_ofPieces_eq hregular' h
  subst hmade hmade'
  have hlength : position.length = position'.length := by
    rw [hposition, hposition', keyset, keyset, hcontinuation]
    cases plan'.pagination.continuation <;> rfl
  have hlist : condition.toList = condition'.toList := List.append_inj_left' hconditions hlength
  have hcond : condition = condition' := by
    cases condition <;> cases condition' <;> simp_all
  simp only at hcolumns hrelated hobject hsame horder
  subst hcond hsame hrelated
  exact {
    object := hobject
    backend := hbackend
    columns := hcolumns
    related := fun row columns => by
      rw [addRelated_eq_addDocuments t _ hchildren, addRelated_eq_addDocuments t _ hchildren']
    asks := QueryPlan.asks_eq (tells_dialect t) hplan hplan' hapart hapart' hcondition hcondition'
      hjoins hjoins'
    sorting := by
      have hkeys : ∀ order : List OrderKey, sortingOf order =
          (order.map WrittenKey.ofKey).map fun key => (key.column, key.direction) := by
        simp [sortingOf, WrittenKey.ofKey]
      rw [hkeys, hkeys, horder]
    continuation := hcontinuation
    fetchLimit := hlimit }

end RoleQuery.Sql
