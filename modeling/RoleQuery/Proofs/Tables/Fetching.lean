import RoleQuery.Proofs.Paging.FollowUp

/-!
# What a read depends on

What a read fetches depends on less than its plan holds. Of the mask it depends on the columns
and on the related rows that are added to them, not on the names that the answer shows them
under; of the predicate on the rows that satisfy it; and of an ordering on its columns and
directions. A column that is fetched twice is fetched once.
-/
namespace RoleQuery

/-- Giving a member the value that it has changes nothing. -/
theorem Members.insert_of_get? {ms : Members} {name : String} {value : Json}
    (h : ms.get? name = some value) : ms.insert name value = ms := by
  induction ms with
  | nil => cases h
  | cons m rest ih =>
    obtain ⟨key, old⟩ := m
    by_cases hkey : key = name
    · rw [get?, if_pos hkey] at h
      rw [insert, if_pos hkey, Option.some.inj h]
    · rw [get?, if_neg hkey] at h
      rw [insert, if_neg hkey, ih h]

/-! ## Orderings -/

/-- What the order of rows depends on. -/
def sortingOf (order : List OrderKey) : List (String × SortDirection) :=
  order.map fun key => (key.column, key.direction)

variable {order order' : List OrderKey}

theorem compareRows_eq_of_sortingOf (h : sortingOf order = sortingOf order') (a b : Json) :
    compareRows a b order = compareRows a b order' := by
  induction order generalizing order' with
  | nil =>
    cases order' with
    | nil => rfl
    | cons key' keys' => cases h
  | cons key keys ih =>
    cases order' with
    | nil => cases h
    | cons key' keys' =>
      obtain ⟨hkey, hkeys⟩ := List.cons.inj h
      obtain ⟨hcolumn, hdirection⟩ := Prod.mk.inj hkey
      rw [compareRows, compareRows, hcolumn, hdirection, ih hkeys]

theorem compareToPosition_eq_of_sortingOf (h : sortingOf order = sortingOf order') (row : Json)
    (values : List Value) :
    compareToPosition row values order = compareToPosition row values order' := by
  induction order generalizing order' values with
  | nil =>
    cases order' with
    | nil => rfl
    | cons key' keys' => cases h
  | cons key keys ih =>
    cases order' with
    | nil => cases h
    | cons key' keys' =>
      obtain ⟨hkey, hkeys⟩ := List.cons.inj h
      obtain ⟨hcolumn, hdirection⟩ := Prod.mk.inj hkey
      cases values with
      | nil => rfl
      | cons value values =>
        rw [compareToPosition, compareToPosition, hcolumn, hdirection, ih hkeys]

theorem insertRow_eq_of_sortingOf (h : sortingOf order = sortingOf order') (row : Json)
    (rows : List Json) : insertRow order row rows = insertRow order' row rows := by
  induction rows with
  | nil => rfl
  | cons last rest ih =>
    rw [insertRow, insertRow, compareRows_eq_of_sortingOf h, ih]

/-- Rows are sorted by columns and directions. -/
theorem sortRows_eq_of_sortingOf (h : sortingOf order = sortingOf order') (rows : List Json) :
    sortRows order rows = sortRows order' rows := by
  have hinsert : insertRow order = insertRow order' := by
    funext row rows
    exact insertRow_eq_of_sortingOf h row rows
  rw [sortRows, sortRows, hinsert]

namespace Tables

/-! ## Columns -/

theorem project_append_singleton (columns : List String) (c : String) (row : Json) :
    project (columns ++ [c]) row = (project columns row).insert c ((row.get? c).getD .null) := by
  simp [project, Members.ofList, List.foldl_append]

theorem project_append_congr {columns columns' : List String} {row : Json}
    (h : project columns row = project columns' row) (more : List String) :
    project (columns ++ more) row = project (columns' ++ more) row := by
  simp only [project, Members.ofList, List.map_append, List.foldl_append] at h ⊢
  rw [h]

/-- Columns are fetched once however often they are asked for. -/
theorem project_addNew (columns more : List String) (row : Json) :
    project (Predicate.addNew columns more) row = project (columns ++ more) row := by
  induction more generalizing columns with
  | nil => rw [Predicate.addNew, List.append_nil]
  | cons c rest ih =>
    rw [Predicate.addNew, ih, List.append_cons columns c rest]
    apply project_append_congr
    by_cases hc : columns.contains c
    · rw [if_pos hc, project_append_singleton]
      exact (Members.insert_of_get? (get?_project row (List.contains_iff_mem.1 hc))).symm
    · rw [if_neg hc]

/-- The columns of a plan are those that are fetched. -/
theorem project_columns (plan : QueryPlan) (row : Json) :
    project plan.columns row =
      project (plan.mask.columns ++ plan.pagination.order.map (·.column)) row := by
  rw [QueryPlan.columns, project_addNew, List.nil_append]

/-! ## Plans -/

variable (t : Tables)

def asks (plan : QueryPlan) (row : Json) : Bool :=
  match plan.predicate with
  | some p => p.holds t.resolver row
  | none => true

/-- Plans that agree in what a read depends on. -/
structure FetchesLike (plan plan' : QueryPlan) : Prop where
  object : plan.object = plan'.object
  backend : plan.backend = plan'.backend
  columns : plan.columns = plan'.columns
  related : ∀ row columns,
    t.addRelated row columns plan.mask.fields = t.addRelated row columns plan'.mask.fields
  asks : ∀ row, t.asks plan row = t.asks plan' row
  sorting : sortingOf plan.pagination.order = sortingOf plan'.pagination.order
  continuation : plan.pagination.continuation = plan'.pagination.continuation
  fetchLimit : plan.pagination.fetchLimit = plan'.pagination.fetchLimit

variable {t}

/-- Plans that agree in what a read depends on fetch the same. -/
theorem FetchesLike.query_eq {plan plan' : QueryPlan} (h : t.FetchesLike plan plan') :
    t.query plan = t.query plan' := by
  have hmatching : t.matching plan = t.matching plan' := by
    have hasks : t.asks plan = t.asks plan' := funext h.asks
    change sortRows _ ((t.rows plan.object).filter (t.asks plan)) =
      sortRows _ ((t.rows plan'.object).filter (t.asks plan'))
    rw [hasks, h.object, sortRows_eq_of_sortingOf h.sorting]
  have hfetch : t.fetchRow plan = t.fetchRow plan' := by
    funext row
    rw [fetchRow, fetchRow, ← project_columns, ← project_columns, h.columns, h.related]
  have hoffset : ∀ rows c, offset rows plan.pagination.order c =
      offset rows plan'.pagination.order c := by
    intro rows c
    cases c with
    | after values =>
      simp only [offset, compareToPosition_eq_of_sortingOf h.sorting]
    | start => rfl
    | token token => rfl
  rw [query, query, hmatching, hoffset, h.continuation, h.fetchLimit, h.backend, hfetch]

end Tables

end RoleQuery
