import RoleQuery.Proofs.Access.Masks
import RoleQuery.Proofs.Catalog.Columns
import RoleQuery.Proofs.Paging.Ordering
import RoleQuery.Proofs.Service.Writing
import RoleQuery.Proofs.Sql.Filled

/-!
# Statements that are handed out

A configuration is checked so that each entity has a primary key and each relationship pairs
columns. From this the lists of the statements are filled: an ordering ends with the primary
key, a write looks for its key, and a relationship that is filtered by or shown relates
columns. What is shown of related rows is selected, and something is, since a relationship
without a selection has no statement.

The request alone fills the list of the columns that are written. An insert or update of
nothing is planned and has a statement, but one that SQL does not accept.
-/
namespace RoleQuery

open FieldMask (ofSelection fieldsOf of_ofSelection)

namespace Pagination

/-- The ordering of an entity with a primary key has keys. -/
theorem ne_nil_of_resolveOrder {e : Entity} (hkey : e.key ≠ []) {orderBy : List OrderBy}
    {order : List OrderKey} (h : resolveOrder e orderBy = .ok order) : order ≠ [] := by
  obtain ⟨keys, -, rfl⟩ := Except.map_eq_ok_iff.1 h
  rw [withPrimaryKey_eq]
  intro hnil
  obtain ⟨rfl, hrest⟩ := List.append_eq_nil_iff.1 hnil
  match he : e.key, hkey with
  | f :: rest, _ =>
    rw [he, firstBy] at hrest
    simp at hrest

end Pagination

namespace Catalog

variable {catalog : Catalog}

/-- What is selected below a field belongs to an entity of the catalog, if to any. -/
theorem mem_entities_of_inner {owner : Option Entity} {s : Selection} :
    ∀ e ∈ s.inner catalog owner, e ∈ catalog.entities := by
  intro e he
  obtain ⟨e', -, hnested⟩ := Option.bind_eq_some_iff.1 he
  exact mem_entities_of_nestedEntity? hnested

mutual

/-- Fields that are resolved in a catalog whose relationships pair columns are stocked. -/
theorem stocked_of_ofSelection (hpairs : ∀ e ∈ catalog.entities, e.Pairs) :
    (s : Selection) → (owner : Option Entity) → (∀ e ∈ owner, e ∈ catalog.entities) →
    ∀ field, ofSelection catalog owner s = .ok field → field.Stocked
  | ⟨name, label, typeHint, children⟩, owner, howner, field, h => by
    rcases of_ofSelection h with ⟨-, rfl⟩ | ⟨fields, hne, hfields, rfl⟩
    · trivial
    · refine ⟨fun r hr => ?_, ?_, ?_⟩
      · obtain ⟨e, he, hfound⟩ := Option.bind_eq_some_iff.1 hr
        exact hpairs e (howner e he) r (List.mem_of_find?_eq_some hfound)
      · rintro rfl
        exact hne (List.forall₂_nil_right_iff.1 (FieldMask.forall₂_of_fieldsOf hfields))
      · exact stockedAll_of_fieldsOf hpairs children _ mem_entities_of_inner fields hfields
termination_by structural s => s

theorem stockedAll_of_fieldsOf (hpairs : ∀ e ∈ catalog.entities, e.Pairs) :
    (ss : List Selection) → (owner : Option Entity) → (∀ e ∈ owner, e ∈ catalog.entities) →
    ∀ fields, fieldsOf catalog owner ss = .ok fields → MaskedField.StockedAll fields
  | [], owner, howner, fields, h => by
    cases h
    trivial
  | s :: rest, owner, howner, fields, h => by
    rw [fieldsOf] at h
    obtain ⟨field, hfield, h⟩ := Except.bind_eq_ok_iff.1 h
    obtain ⟨others, hothers, h⟩ := Except.bind_eq_ok_iff.1 h
    cases h
    exact ⟨stocked_of_ofSelection hpairs s owner howner field hfield,
      stockedAll_of_fieldsOf hpairs rest owner howner others hothers⟩
termination_by structural ss => ss

end

variable {config : Config} {request : ReadRequest} {caller : Caller} {plan : QueryPlan}

/-- Planned reads of a configured catalog are stocked. -/
theorem stocked_of_planRead (hconfig : ofConfig config = .ok catalog)
    (h : catalog.planRead request caller = .ok plan) : plan.Stocked := by
  have hpairs : ∀ e ∈ catalog.entities, e.Pairs := fun _ => pairs_of_ofConfig hconfig
  obtain ⟨e, filter, authorized, predicate, pagination, hentity, -, hauthorized, hpredicate,
    hpagination, rfl⟩ := planRead_eq_ok_iff.1 h
  have he : e ∈ catalog.entities := mem_entities_of_entity? hentity
  refine ⟨fun p hp => ?_, ?_, ?_⟩
  · cases hfilter : authorized.filter with
    | none => rw [hfilter] at hpredicate; cases hpredicate; cases hp
    | some f =>
      rw [hfilter] at hpredicate
      obtain ⟨compiled, hcompiled, rfl⟩ := Except.map_eq_ok_iff.1 hpredicate
      cases hp
      exact Predicate.complete_of_compile hpairs he hcompiled
  · refine MaskedField.stockedAll_iff.1
      (stockedAll_of_fieldsOf hpairs authorized.selection (some e) ?_
      _ (authorizeRead_spec hauthorized).1)
    rintro _ ⟨⟩
    exact he
  · exact Pagination.ne_nil_of_resolveOrder (key_ne_nil_of_ofConfig hconfig e he)
      (Pagination.order_of_resolve hpagination)

end Catalog

namespace Catalog

variable {config : Config} {catalog : Catalog} {e : Entity} {request : WriteRequest}
  {caller : Caller} {plan : WritePlan}

/-- The policy of a planned write is compiled for the entity. -/
theorem exists_policy_of_planWrite (h : catalog.planWrite e request caller = .ok plan) :
    ∀ p ∈ plan.policy, ∃ f, Predicate.ofWritePolicy catalog e f = .ok p := by
  have hcompiled : ∃ policy : Option Filter,
      policy.mapM (Predicate.ofWritePolicy catalog e) = .ok plan.policy := by
    rw [planWrite] at h
    obtain ⟨policy, -, h⟩ := Except.bind_eq_ok_iff.1 h
    obtain ⟨values, -, h⟩ := Except.bind_eq_ok_iff.1 h
    split_ifs at h
    all_goals
      obtain ⟨key, -, h⟩ := Except.bind_eq_ok_iff.1 h
      obtain ⟨compiled, hcompiled, h⟩ := Except.bind_eq_ok_iff.1 h
      cases h
      exact ⟨policy, hcompiled⟩
  intro p hp
  obtain ⟨policy, hpolicy⟩ := hcompiled
  cases policy with
  | none => rw [hp] at hpolicy; cases hpolicy
  | some f =>
    obtain ⟨p', hp', heq⟩ := Except.mapM_some_eq_ok hpolicy
    obtain rfl := Option.some.inj (hp.symm.trans heq)
    exact ⟨f, hp'⟩

/-- The columns that a planned write gives values to are as many as the request names. -/
theorem values_eq_nil_iff (h : catalog.planWrite e request caller = .ok plan) :
    plan.values = [] ↔ request.input = [] := by
  obtain ⟨-, -, hvalues, -⟩ := planWrite_spec h
  rw [← List.length_eq_zero_iff, ← List.length_eq_zero_iff,
    (forall₂_of_writtenValues hvalues).length_eq]

/-- **No list is empty in a statement that reads a configured catalog, and in a statement
that writes to it none but the list of the written columns, which is empty if the request
gives no values.** So exactly the deletions and the writes of some values have a statement
without an empty list. -/
theorem filled_of_ofConfig (hconfig : ofConfig config = .ok catalog) :
    (∀ request caller q, catalog.compileRead request caller = .ok q → q.plan.backend = .relational →
      ∃ s, Sql.Select.ofPlan q.plan = .ok s ∧ q.statement = .ofPieces s.pieces ∧ s.Filled) ∧
    ∀ e (request : WriteRequest) caller plan statement, catalog.entity? request.entity = some e →
      catalog.planWrite e request caller = .ok plan → plan.statement? = .ok (some statement) →
      ∃ w, Sql.Write.ofPlan plan = .ok w ∧ statement = .ofPieces w.pieces ∧
        w.named.length = w.given.length ∧ w.Conditioned ∧
        (w.Filled ↔ request.operation = .delete ∨ request.input ≠ []) := by
  refine ⟨fun request caller q h hbackend => ?_,
    fun e request caller plan statement hentity hplan hstatement => ?_⟩
  · obtain ⟨hplan, hstatement⟩ := compileRead_eq_ok_iff.1 h
    rw [QueryPlan.statement, hbackend] at hstatement
    obtain ⟨s, hs, hstatement⟩ := Except.map_eq_ok_iff.1 hstatement
    exact ⟨s, hs, hstatement.symm,
      Sql.Select.filled_of_ofPlan (stocked_of_planRead hconfig hplan) (sound_of_planRead hplan) hs⟩
  · have hpairs : ∀ e ∈ catalog.entities, e.Pairs := fun _ => pairs_of_ofConfig hconfig
    have hpolicy : ∀ p ∈ plan.policy, p.Complete := by
      intro p hp
      obtain ⟨f, hf⟩ := exists_policy_of_planWrite hplan p hp
      exact Predicate.complete_of_compile hpairs (mem_entities_of_entity? hentity) hf
    rw [WritePlan.statement?] at hstatement
    cases hbackend : plan.backend with
    | hierarchical => rw [hbackend] at hstatement; cases hstatement
    | relational =>
      rw [hbackend] at hstatement
      obtain ⟨w, hw, hstatement⟩ := Except.map_eq_ok_iff.1 hstatement
      obtain ⟨hconditioned, hvalues⟩ := Sql.Write.conditioned_of_ofPlan hpolicy hw
      refine ⟨w, hw, (Option.some.inj hstatement).symm, w.length_named, hconditioned, ?_⟩
      have hnamed : (∀ values ∈ w.values?, values ≠ []) ↔
          request.operation = .delete ∨ request.input ≠ [] := by
        rw [hvalues, (planWrite_spec hplan).2.1]
        split_ifs with hdelete
        · simp [hdelete]
        · simp [hdelete, values_eq_nil_iff hplan]
      rw [Sql.Write.Filled, and_iff_right hconditioned, hnamed]

/-! ## Poems -/

/-- Poems with their poets, of which anyone may read and write everything. -/
def anthologyConfig : Config where
  settings := .default
  entities :=
    [("Poem", {
        object := "poems"
        backend := .relational
        displayNames := none
        fields := [⟨"id", none, true, .scalar, none⟩, ⟨"title", none, false, .scalar, none⟩]
        relationships := [("poet", ⟨"Poet", .one, ["poet_id"], ["id"]⟩)]
        permissions := [⟨anonymousRole, [⟨"*", none, none⟩]⟩]
        cache := none }),
      ("Poet", {
        object := "poets"
        backend := .relational
        displayNames := none
        fields := [⟨"id", none, true, .scalar, none⟩, ⟨"name", none, false, .scalar, none⟩]
        relationships := []
        permissions := [⟨anonymousRole, [⟨"read", none, none⟩]⟩]
        cache := none })]

def poem : Entity :=
  (Entity.ofFields "Poem" "poems" .relational
    [⟨"id", "id", true, .scalar⟩, ⟨"title", "title", false, .scalar⟩]).withRelationship
    ⟨"poet", "Poet", .one, ["poet_id"], ["id"]⟩

/-- The poems of a poet, with the name of the poet. -/
def poemsOfAda : ReadRequest where
  entity := "Poem"
  filter := some (.object [("poet", .object [("name", .object [("eq", .str "Ada")])])])
  selection := [.leaf "id", ⟨"poet", none, none, [.leaf "name"]⟩]

def newPoem (input : Members) : WriteRequest := ⟨"Poem", .create, [], input⟩

/-- A change of the first poem. -/
def firstPoem (input : Members) : WriteRequest := ⟨"Poem", .update, [("id", .int 1)], input⟩

/-- A read of the poems of a poet joins, and a new poem is inserted; no
list in either is empty. -/
theorem filled_of_ofConfig_anthology :
    ∃ catalog, ofConfig anthologyConfig = .ok catalog ∧
      (∃ q, catalog.compileRead poemsOfAda .anonymous = .ok q ∧
        q.statement.text =
          "SELECT t0.\"id\", (SELECT jsonb_build_object('name', t2.\"name\") " ++
            "FROM \"poets\" AS t2 WHERE t2.\"id\" = t0.\"poet_id\" LIMIT 1) AS \"poet\" " ++
            "FROM \"poems\" AS t0 INNER JOIN \"poets\" AS t1 ON t1.\"id\" = t0.\"poet_id\" " ++
            "WHERE t1.\"name\" = @param0 ORDER BY t0.\"id\" ASC LIMIT 101" ∧
        ∃ s, q.statement = .ofPieces s.pieces ∧ Sql.Select.Filled s) ∧
      ∃ plan statement, catalog.planWrite poem (newPoem [("title", .str "Dust")]) .anonymous =
        .ok plan ∧
        plan.statement? = .ok (some statement) ∧
        statement.text = "INSERT INTO \"poems\" (\"title\") VALUES (@param0)" ∧
        ∃ w, statement = .ofPieces w.pieces ∧ Sql.Write.Filled w := by
  obtain ⟨catalog, hconfig⟩ : ∃ catalog, ofConfig anthologyConfig = .ok catalog := ⟨_, rfl⟩
  obtain ⟨hreads, hwrites⟩ := filled_of_ofConfig hconfig
  cases hconfig
  refine ⟨_, rfl, ⟨_, rfl, by decide +kernel, ?_⟩, _, _, rfl, rfl, by decide +kernel, ?_⟩
  · obtain ⟨s, -, hs, hfilled⟩ := hreads poemsOfAda .anonymous _ rfl rfl
    exact ⟨s, hs, hfilled⟩
  · obtain ⟨w, -, hw, -, -, hfilled⟩ :=
      hwrites poem (newPoem [("title", .str "Dust")]) .anonymous _ _ rfl rfl rfl
    exact ⟨w, hw, hfilled.2 (.inr (List.cons_ne_nil _ _))⟩

/-- An insert and an update of nothing are planned, and have statements
whose lists are empty. -/
theorem not_filled_of_nothing :
    ∃ catalog, ofConfig anthologyConfig = .ok catalog ∧ catalog.entity? "Poem" = some poem ∧
      (∃ plan statement w, catalog.planWrite poem (newPoem []) .anonymous = .ok plan ∧
        plan.statement? = .ok (some statement) ∧ Sql.Write.ofPlan plan = .ok w ∧
        statement.text = "INSERT INTO \"poems\" () VALUES ()" ∧ ¬ w.Filled) ∧
      ∃ plan statement w, catalog.planWrite poem (firstPoem []) .anonymous = .ok plan ∧
        plan.statement? = .ok (some statement) ∧ Sql.Write.ofPlan plan = .ok w ∧
        statement.text = "UPDATE \"poems\" AS t0 SET  WHERE t0.\"id\" = @param0" ∧ ¬ w.Filled := by
  refine ⟨_, rfl, rfl, ⟨_, _, _, rfl, rfl, rfl, by decide +kernel, ?_⟩,
    _, _, _, rfl, rfl, rfl, by decide +kernel, ?_⟩
  · exact fun h => h.2 _ rfl rfl
  · exact fun h => h.2 _ rfl rfl

end Catalog

end RoleQuery
