import RoleQuery.Proofs.Cache.Sharing
import RoleQuery.Proofs.DocumentQuery.Select
import RoleQuery.Proofs.Sql.Fetch

/-!
# What a key determines

Reads that share a key fetch the same rows of all tables: the statement tells which columns
and related rows are fetched, which rows satisfy the predicate and how they are ordered, and
the rest is in the key itself. So a cached answer is right for another read exactly when the
rows that both fetch are presented by both in the same way. What the key leaves open is how
rows are presented: the names in the answer, the selected parts of nested documents, the names
of the fields in a cursor, and the size of the greatest page.
-/
namespace RoleQuery

/-- Answer with fetched rows. -/
def CompiledRead.present (q : CompiledRead) (fetched : Fetched) : Except RequestError String :=
  (Page.assemble q.plan.pagination fetched.rows fetched.continuation).map fun page =>
    (body q.plan.mask page).compact

/-- A read is answered with what it fetches. -/
theorem CompiledRead.fetch_eq (q : CompiledRead) (t : Tables) :
    q.fetch t = (t.query q.plan).mapError .execution >>= q.present := by
  rw [fetch, answer]
  cases t.query q.plan with
  | error fault => rfl
  | ok fetched =>
    change ((Page.assemble q.plan.pagination fetched.rows fetched.continuation >>= fun page =>
      pure (body q.plan.mask page)).map Json.compact) = q.present fetched
    rw [present]
    cases Page.assemble q.plan.pagination fetched.rows fetched.continuation <;> rfl

/-! ## What is presented -/

namespace Pagination

variable {p p' : Pagination}

/-- Pages are assembled alike if their orderings name the same fields. -/
structure AssemblesLike (p p' : Pagination) : Prop where
  pageSize : p.pageSize = p'.pageSize
  fields : p.order.map (·.field) = p'.order.map (·.field)

theorem positionOf_eq_of_sortingOf {order order' : List OrderKey}
    (hsorting : sortingOf order = sortingOf order')
    (hfields : order.map (·.field) = order'.map (·.field)) (row : Json) :
    positionOf row order = positionOf row order' := by
  induction order generalizing order' with
  | nil =>
    cases order' with
    | nil => rfl
    | cons key' keys' => cases hfields
  | cons key keys ih =>
    cases order' with
    | nil => cases hfields
    | cons key' keys' =>
      obtain ⟨hkey, hkeys⟩ := List.cons.inj hsorting
      obtain ⟨hcolumn, hdirection⟩ := Prod.mk.inj hkey
      obtain ⟨hname, hrest⟩ := List.cons.inj hfields
      have hfield : key.field = key'.field := hname
      rw [positionOf, positionOf, hcolumn, hdirection, hfield, ih hkeys hrest]

theorem AssemblesLike.assemble_eq (h : p.AssemblesLike p') (hbackend : p.backend = p'.backend)
    (hsorting : sortingOf p.order = sortingOf p'.order) (rows : List Json)
    (continuation : Option String) :
    Page.assemble p rows continuation = Page.assemble p' rows continuation := by
  simp only [Page.assemble, h.pageSize, hbackend, positionOf_eq_of_sortingOf hsorting h.fields]

end Pagination

namespace Catalog

open Service (library titlesAs titlesRead)

variable {catalog : Catalog} {request₁ request₂ : ReadRequest} {caller₁ caller₂ : Caller}
  {q₁ q₂ : CompiledRead}

/-- What is known of an accepted read: its plan is sound, it has the object and the backend of
its entity, and its statement is that of its plan. -/
theorem compileRead_spec {request : ReadRequest} {caller : Caller} {q : CompiledRead}
    (h : catalog.compileRead request caller = .ok q) :
    ∃ e, catalog.entity? q.plan.entity = some e ∧ q.plan.object = e.object ∧
      q.plan.backend = e.backend ∧ q.plan.pagination.backend = e.backend ∧ q.plan.Sound ∧
      q.plan.statement = .ok q.statement := by
  obtain ⟨hplan, hstatement⟩ := compileRead_eq_ok_iff.1 h
  obtain ⟨e, -, -, -, -, hentity, -⟩ := planRead_eq_ok_iff.1 hplan
  obtain ⟨hname, hobject, hbackend, hresolve, -⟩ := planRead_spec hentity hplan
  refine ⟨e, ?_, hobject, hbackend, Pagination.backend_of_resolve hresolve,
    sound_of_planRead hplan, hstatement⟩
  rw [hname, name_of_entity? hentity, hentity]

/-- Reads that share a key are of one entity. -/
theorem backend_eq_of_sharesKey (h₁ : catalog.compileRead request₁ caller₁ = .ok q₁)
    (h₂ : catalog.compileRead request₂ caller₂ = .ok q₂) (hkey : q₁.SharesKey q₂) :
    q₁.plan.object = q₂.plan.object ∧ q₁.plan.backend = q₂.plan.backend ∧
      q₁.plan.pagination.backend = q₂.plan.pagination.backend := by
  obtain ⟨e₁, he₁, hobject₁, hbackend₁, hpaged₁, -⟩ := compileRead_spec h₁
  obtain ⟨e₂, he₂, hobject₂, hbackend₂, hpaged₂, -⟩ := compileRead_spec h₂
  rw [hkey.entity, he₂] at he₁
  obtain rfl := Option.some.inj he₁
  exact ⟨hobject₁.trans hobject₂.symm, hbackend₁.trans hbackend₂.symm, hpaged₁.trans hpaged₂.symm⟩

/-- Reads that share a key fetch alike. -/
theorem fetchesLike_of_sharesKey (h₁ : catalog.compileRead request₁ caller₁ = .ok q₁)
    (h₂ : catalog.compileRead request₂ caller₂ = .ok q₂) (hkey : q₁.SharesKey q₂)
    (hapart₁ : q₁.plan.JoinsApart) (hapart₂ : q₂.plan.JoinsApart) (t : Tables) :
    t.FetchesLike q₁.plan q₂.plan := by
  obtain ⟨-, -, -, -, -, hsound₁, hstatement₁⟩ := compileRead_spec h₁
  obtain ⟨-, -, -, -, -, hsound₂, hstatement₂⟩ := compileRead_spec h₂
  obtain ⟨hobject, hbackend, -⟩ := backend_eq_of_sharesKey h₁ h₂ hkey
  rw [QueryPlan.statement] at hstatement₁ hstatement₂
  rw [← hbackend] at hstatement₂
  cases hkind : q₁.plan.backend with
  | relational =>
    rw [hkind] at hstatement₁ hstatement₂
    obtain ⟨s₁, hs₁, hpieces₁⟩ := Except.map_eq_ok_iff.1 hstatement₁
    obtain ⟨s₂, hs₂, hpieces₂⟩ := Except.map_eq_ok_iff.1 hstatement₂
    exact Sql.fetchesLike_of_ofPieces_eq t hsound₁ hsound₂ hapart₁ hapart₂ hs₁ hs₂
      (hpieces₁.trans (hkey.statement.trans hpieces₂.symm)) hbackend hkey.continuation
      hkey.fetchLimit
  | hierarchical =>
    rw [hkind] at hstatement₁ hstatement₂
    obtain ⟨s₁, hs₁, hpieces₁⟩ := Except.map_eq_ok_iff.1 hstatement₁
    obtain ⟨s₂, hs₂, hpieces₂⟩ := Except.map_eq_ok_iff.1 hstatement₂
    exact DocumentQuery.fetchesLike_of_ofPieces_eq t hsound₁ hsound₂ hs₁ hs₂
      (hpieces₁.trans (hkey.statement.trans hpieces₂.symm)) hobject hbackend hkey.continuation
      hkey.fetchLimit

theorem fetch_eq_iff_of_query_eq {t : Tables} (h : t.query q₁.plan = t.query q₂.plan) :
    q₁.fetch t = q₂.fetch t ↔
      ∀ fetched, t.query q₁.plan = .ok fetched → q₁.present fetched = q₂.present fetched := by
  rw [q₁.fetch_eq, q₂.fetch_eq, ← h]
  cases t.query q₁.plan with
  | error fault => simp [Except.mapError, bind, Except.bind]
  | ok fetched => simp [Except.mapError, bind, Except.bind]

/-- Reads that share a key fetch the same, and have the same answer exactly if both present
alike what they fetch. -/
theorem query_eq_and_fetch_eq_iff_of_sharesKey
    (h₁ : catalog.compileRead request₁ caller₁ = .ok q₁)
    (h₂ : catalog.compileRead request₂ caller₂ = .ok q₂) (hkey : q₁.SharesKey q₂)
    (hapart₁ : q₁.plan.JoinsApart) (hapart₂ : q₂.plan.JoinsApart) (t : Tables) :
    t.query q₁.plan = t.query q₂.plan ∧
      (q₁.fetch t = q₂.fetch t ↔
        ∀ fetched, t.query q₁.plan = .ok fetched → q₁.present fetched = q₂.present fetched) := by
  have hquery := (fetchesLike_of_sharesKey h₁ h₂ hkey hapart₁ hapart₂ t).query_eq
  exact ⟨hquery, fetch_eq_iff_of_query_eq hquery⟩

/-- The titles as names and as headings are fetched alike, and have the same answer exactly if
both present alike the volumes that are fetched. -/
theorem query_eq_and_fetch_eq_iff_titles :
    (titlesRead "name").SharesKey (titlesRead "heading") ∧
      library.tables.query (titlesRead "name").plan =
        library.tables.query (titlesRead "heading").plan ∧
      ((titlesRead "name").fetch library.tables = (titlesRead "heading").fetch library.tables ↔
        ∀ fetched, library.tables.query (titlesRead "name").plan = .ok fetched →
          (titlesRead "name").present fetched = (titlesRead "heading").present fetched) := by
  have hname : library.catalog.compileRead (titlesAs "name") .anonymous = .ok (titlesRead "name") :=
    rfl
  have hheading : library.catalog.compileRead (titlesAs "heading") .anonymous =
      .ok (titlesRead "heading") := rfl
  have hkey : (titlesRead "name").SharesKey (titlesRead "heading") := ⟨rfl, rfl, rfl, rfl⟩
  have hapart : ∀ label, (titlesRead label).plan.JoinsApart :=
    fun label via hvia => absurd hvia List.not_mem_nil
  exact ⟨hkey, query_eq_and_fetch_eq_iff_of_sharesKey hname hheading hkey (hapart "name")
    (hapart "heading") library.tables⟩

/-- Reads that share a key have the same answer if they show every row alike, in pages of one
size, under an ordering of the same fields. -/
theorem fetch_eq_of_shape_eq (h₁ : catalog.compileRead request₁ caller₁ = .ok q₁)
    (h₂ : catalog.compileRead request₂ caller₂ = .ok q₂) (hkey : q₁.SharesKey q₂)
    (hapart₁ : q₁.plan.JoinsApart) (hapart₂ : q₂.plan.JoinsApart)
    (hshape : ∀ row, q₁.plan.mask.shape row = q₂.plan.mask.shape row)
    (hassembles : q₁.plan.pagination.AssemblesLike q₂.plan.pagination) (t : Tables) :
    q₁.fetch t = q₂.fetch t := by
  obtain ⟨-, -, hbackend⟩ := backend_eq_of_sharesKey h₁ h₂ hkey
  have halike := fetchesLike_of_sharesKey h₁ h₂ hkey hapart₁ hapart₂ t
  refine (fetch_eq_iff_of_query_eq halike.query_eq).2 fun fetched _ => ?_
  rw [CompiledRead.present, CompiledRead.present,
    hassembles.assemble_eq hbackend halike.sorting]
  simp only [CompiledRead.body, funext hshape]

end Catalog

end RoleQuery
