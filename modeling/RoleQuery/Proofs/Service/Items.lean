import RoleQuery.Proofs.DocumentQuery.Select
import RoleQuery.Proofs.Paging.Reading
import RoleQuery.Proofs.Sql.Fetch
import RoleQuery.Proofs.Tables.Selected

/-!
# The items of an answer

A read that is answered from the tables shows the rows of one page in order, and of each row
the selected fields under their names in the answer and nothing else. That the read has a
statement tells that its relationships can be followed, so each field that is kept apart from
the others is shown with the value that is read off the row directly. Fields that are not are
mistaken for one another.
-/
namespace RoleQuery

/-! ## Accepted reads -/

theorem MaskedField.resolved_of_relationship? {field : MaskedField}
    (h : ¬ field.relationship?.isSome) : field.Resolved := by
  cases field with
  | plain name output column relationship =>
    cases relationship with
    | none => exact .plain
    | some r => exact absurd rfl h
  | nested name output column relationship entity object fields =>
    cases relationship with
    | none => exact .document
    | some r => exact absurd rfl h

namespace Sql

mutual

/-- A relationship that has a sub-select can be followed. -/
theorem resolved_of_relatedDocuments {parent : String} (field : MaskedField) {r : RelatedDocuments}
    {next next' : Alias} (h : relatedDocuments parent field next = .ok (r, next')) :
    field.Resolved := by
  match field, h with
  | .plain name output column relationship, h => cases h
  | .nested name output column none entity object fields, h => cases h
  | .nested name output column (some r) entity none fields, h => cases h
  | .nested name output column (some r) entity (some object) fields, h =>
    rw [relatedDocuments] at h
    obtain ⟨table, between, -, h⟩ := naming_bind_eq_ok_iff.1 h
    obtain ⟨children, between', hchildren, -⟩ := naming_bind_eq_ok_iff.1 h
    exact .related (resolved_of_relatedChildren fields hchildren)
termination_by structural field

/-- Fields whose relationships have sub-selects can be followed. -/
theorem resolved_of_relatedChildren {parent : String} (fields : List MaskedField)
    {children : List (String × RelatedDocuments)} {next next' : Alias}
    (h : relatedChildren parent fields next = .ok (children, next')) :
    ∀ field ∈ fields, field.Resolved := by
  match fields, h with
  | [], h => exact fun field hfield => absurd hfield List.not_mem_nil
  | field :: rest, h =>
    rw [relatedChildren] at h
    split at h
    · obtain ⟨child, between, hchild, h⟩ := naming_bind_eq_ok_iff.1 h
      obtain ⟨others, between', hothers, -⟩ := naming_bind_eq_ok_iff.1 h
      exact List.forall_mem_cons.2 ⟨resolved_of_relatedDocuments field hchild,
        resolved_of_relatedChildren rest hothers⟩
    · rename_i hnone
      exact List.forall_mem_cons.2 ⟨MaskedField.resolved_of_relationship? hnone,
        resolved_of_relatedChildren rest h⟩
termination_by structural fields

end

end Sql

/-- A plan has a statement only if its relationships can be followed. -/
theorem QueryPlan.resolved_of_statement {plan : QueryPlan} {statement : Statement}
    (h : plan.statement = .ok statement) : ∀ field ∈ plan.mask.fields, field.Resolved := by
  rw [QueryPlan.statement] at h
  cases hbackend : plan.backend with
  | relational =>
    rw [hbackend] at h
    obtain ⟨select, hselect, -⟩ := Except.map_eq_ok_iff.1 h
    obtain ⟨children, next, -, -, hchildren, -⟩ := Sql.Select.ofPlan_eq_ok hselect
    exact Sql.resolved_of_relatedChildren plan.mask.fields hchildren
  | hierarchical =>
    rw [hbackend] at h
    obtain ⟨select, hselect, -⟩ := Except.map_eq_ok_iff.1 h
    have hnone := (DocumentQuery.Select.ofPlan_eq_ok hselect).1
    rw [FieldMask.relationships, List.filter_eq_nil_iff] at hnone
    exact fun field hfield => MaskedField.resolved_of_relationship? (hnone field hfield)

/-- The selection that a read of an entity stands for: what is asked for, or every field
that the role may read. -/
def ReadRequest.selected (catalog : Catalog) (role : String) (e : Entity) (request : ReadRequest) :
    List Selection :=
  if request.selection.isEmpty then Selection.readable e (catalog.allows role .read e)
  else request.selection

/-- What a planned read shows is what its request selects. -/
theorem Catalog.fieldsOf_of_planRead {catalog : Catalog} {request : ReadRequest} {caller : Caller}
    {plan : QueryPlan} {e : Entity} (hentity : catalog.entity? request.entity = some e)
    (h : catalog.planRead request caller = .ok plan) :
    FieldMask.fieldsOf catalog (some e) (request.selected catalog caller.role e) =
      .ok plan.mask.fields := by
  obtain ⟨other, filter, authorized, predicate, pagination, hother, -, hauthorized, -, -, rfl⟩ :=
    planRead_eq_ok_iff.1 h
  obtain rfl : e = other := Option.some.inj (hentity.symm.trans hother)
  rw [ReadRequest.selected, ← (authorizes_of_authorizeRead hauthorized).selection]
  exact (authorizeRead_spec hauthorized).1

/-! ## Pages -/

theorem Pagination.pageSize_le_fetchLimit (p : Pagination) :
    p.pageSize.toNat ≤ p.fetchLimit.toNat := by
  rw [fetchLimit]
  cases p.backend with
  | hierarchical => exact Nat.le_refl _
  | relational =>
    by_cases hmax : p.pageSize = 0xFFFFFFFF
    · simp [hmax]
    · have hlt := p.pageSize.toNat_lt
      have hne : p.pageSize.toNat ≠ 0xFFFFFFFF := fun heq => hmax (UInt32.toNat_inj.1 heq)
      simp only [hmax, ↓reduceIte, UInt32.toNat_add, UInt32.reduceToNat]
      omega

namespace Service

open Selection (Distinct KeptApart)

/-- An answer shows consecutive rows of those that match, as many as a page holds. -/
theorem exists_itemsOf_eq {t : Tables} {q : CompiledRead} {body : Json}
    (h : q.answer t = .ok body) :
    ∃ start, itemsOf body = (((t.matching q.plan).drop start).take
      q.plan.pagination.pageSize.toNat).map (shown t q.plan) := by
  obtain ⟨fetched, page, hfetched, hpage, rfl⟩ := CompiledRead.of_answer h
  rw [Tables.query] at hfetched
  obtain ⟨offset, -, hfetched⟩ := Except.bind_eq_ok_iff.1 hfetched
  cases hfetched
  refine ⟨min offset (t.matching q.plan).length, ?_⟩
  rw [itemsOf_body, Page.items_of_assemble hpage, ← List.map_take,
    Tables.take_fetched _ q.plan.pagination.pageSize_le_fetchLimit, List.map_map]
  rfl

/-- What an item shows of a row. -/
theorem shows_shown {catalog : Catalog} {e : Entity} {selection : List Selection}
    {plan : QueryPlan} {statement : Statement} (hstatement : plan.statement = .ok statement)
    (hfields : FieldMask.fieldsOf catalog (some e) selection = .ok plan.mask.fields)
    (hdistinct : Distinct selection) (t : Tables) (row : Json) :
    Selection.Shows catalog t.resolver (some e) selection row (shown t plan row) := by
  have hcolumns : FieldMask.columnsOf plan.mask.fields ⊆
      plan.mask.columns ++ plan.pagination.order.map (·.column) :=
    List.subset_append_left _ _
  have hresolved := QueryPlan.resolved_of_statement hstatement
  exact Tables.shows_addRelated hdistinct hfields hresolved row hcolumns

/-- A read without a cache that gives a text has compiled, and the text
is that of its answer. -/
theorem of_read {s : Service} {request : ReadRequest} {caller : Caller} {e : Entity} {text : String}
    (hentity : s.catalog.entity? request.entity = some e) (hcache : s.catalog.cacheTtl? e = none)
    (hread : (s.read request caller).1 = .ok text) :
    ∃ q body, s.compile request caller = .ok q ∧ q.answer s.tables = .ok body ∧
      text = body.compact := by
  cases hcompile : s.compile request caller with
  | error error =>
    rw [read, hcompile] at hread
    cases hread
  | ok q =>
    have hplan := (Catalog.compileRead_eq_ok_iff.1 hcompile).1
    have hname := (Catalog.planRead_spec hentity hplan).1
    rw [read_eq_fetch hentity hcache hcompile hname] at hread
    obtain ⟨body, hbody, rfl⟩ := Except.map_eq_ok_iff.1 hread
    exact ⟨_, body, rfl, hbody, rfl⟩

/-- **Every selected field is answered with its own value.** A read that is answered without a
cache, and whose fields have different names in the answer, shows consecutive rows of those
that match: of each row the selected fields and nothing else, and each field that is kept
apart with the value that is read off the row directly. -/
theorem shows_of_read {s : Service} {request : ReadRequest} {caller : Caller} {e : Entity}
    (hentity : s.catalog.entity? request.entity = some e) (hcache : s.catalog.cacheTtl? e = none)
    (hdistinct : Distinct (request.selected s.catalog caller.role e))
    {text : String} (hread : (s.read request caller).1 = .ok text) :
    ∃ q body start, s.compile request caller = .ok q ∧ q.answer s.tables = .ok body ∧
      text = body.compact ∧
      List.Forall₂
        (Selection.Shows s.catalog s.tables.resolver (some e)
          (request.selected s.catalog caller.role e))
        (((s.tables.matching q.plan).drop start).take q.plan.pagination.pageSize.toNat)
        (itemsOf body) := by
  obtain ⟨q, body, hcompile, hanswer, htext⟩ := of_read hentity hcache hread
  obtain ⟨start, hitems⟩ := exists_itemsOf_eq hanswer
  obtain ⟨hplan, hstatement⟩ := Catalog.compileRead_eq_ok_iff.1 hcompile
  have hfields := Catalog.fieldsOf_of_planRead hentity hplan
  refine ⟨q, body, start, hcompile, hanswer, htext, ?_⟩
  rw [hitems, List.forall₂_map_right_iff, List.forall₂_same]
  exact fun row _ => shows_shown hstatement hfields hdistinct s.tables row

/-- Books, whose score is kept in a column with the name of their reviews. -/
def book : Entity :=
  { Entity.ofFields "Book" "books" .relational
      [⟨"id", "id", true, .scalar⟩, ⟨"title", "title", false, .scalar⟩,
        ⟨"score", "reviews", false, .scalar⟩,
        ⟨"publisher", "publisher", false, .object "Publisher"⟩] with
    relationships := [⟨"reviews", "Review", .many, ["id"], ["book_id"]⟩] }

/-- Publishers, who stand inside their books and are also kept on their own. -/
def publisher : Entity :=
  { Entity.ofFields "Publisher" "publishers" .relational
      [⟨"id", "id", true, .scalar⟩, ⟨"name", "name", false, .scalar⟩] with
    relationships := [⟨"books", "Book", .many, ["id"], ["publisher_id"]⟩] }

def review : Entity :=
  { Entity.ofFields "Review" "reviews" .relational
      [⟨"id", "id", true, .scalar⟩, ⟨"content", "content", false, .scalar⟩,
        ⟨"rating", "rating", false, .scalar⟩] with
    relationships := [⟨"book", "Book", .one, ["book_id"], ["id"]⟩] }

/-- Books, publishers and reviews, of which anyone may read everything. -/
def bookshopConfig : Config where
  settings := .default
  entities :=
    [("Book", {
        object := "books"
        backend := .relational
        displayNames := none
        fields := [⟨"id", none, true, .scalar, none⟩, ⟨"title", none, false, .scalar, none⟩,
          ⟨"score", some "reviews", false, .scalar, none⟩,
          ⟨"publisher", none, false, .object, some "Publisher"⟩]
        relationships := [("reviews", ⟨"Review", .many, ["id"], ["book_id"]⟩)]
        permissions := [⟨anonymousRole, [⟨"read", none, none⟩]⟩]
        cache := none }),
      ("Publisher", {
        object := "publishers"
        backend := .relational
        displayNames := none
        fields := [⟨"id", none, true, .scalar, none⟩, ⟨"name", none, false, .scalar, none⟩]
        relationships := [("books", ⟨"Book", .many, ["id"], ["publisher_id"]⟩)]
        permissions := [⟨anonymousRole, [⟨"read", none, none⟩]⟩]
        cache := none }),
      ("Review", {
        object := "reviews"
        backend := .relational
        displayNames := none
        fields := [⟨"id", none, true, .scalar, none⟩, ⟨"content", none, false, .scalar, none⟩,
          ⟨"rating", none, false, .scalar, none⟩]
        relationships := [("book", ⟨"Book", .one, ["book_id"], ["id"]⟩)]
        permissions := [⟨anonymousRole, [⟨"read", none, none⟩]⟩]
        cache := none })]

/-- The row of a book that scores four and has one publisher inside it. -/
def dune : Json :=
  .object [("id", .int 1), ("title", .str "Dune"), ("reviews", .int 4), ("publisher_id", .int 7),
    ("publisher", .object [("id", .int 7), ("name", .str "Ace")])]

def bookshop : Service :=
  .start
    ((((Catalog.empty .default).addEntity book).addEntity publisher).addEntity review
      |>.withPermissions (["Book", "Publisher", "Review"].foldl
        (fun table name => table.grant name anonymousRole .read ⟨.all, .empty, none⟩) .empty))
    ((Tables.empty.put "books" [dune]).put "reviews"
      [.object [("id", .int 100), ("book_id", .int 1), ("content", .str "classic"),
        ("rating", .int 5)]])

def booksBy (selection : List Selection) : ReadRequest where
  entity := "Book"
  selection := selection

/-- The titles of the books as names, the contents of their reviews together with the titles
of the reviewed books, and the names of their publishers. -/
def bookNames : List Selection :=
  [⟨"title", some "name", none, []⟩,
    ⟨"reviews", none, none, [.leaf "content", ⟨"book", none, none, [.leaf "title"]⟩]⟩,
    ⟨"publisher", none, none, [.leaf "name"]⟩]

/-- Each field of the selection of book names is kept apart. -/
theorem keptApart_bookNames :
    ∀ s ∈ bookNames, KeptApart bookshop.catalog (some book) bookNames s := by
  have htitle : KeptApart bookshop.catalog (some book) [.leaf "title"] (.leaf "title") :=
    .column rfl (by simp [Selection.ApartIn]) .nil
  have hreviewed : ∀ s ∈ [.leaf "content", ⟨"book", none, none, [.leaf "title"]⟩],
      KeptApart bookshop.catalog (some review)
        [.leaf "content", ⟨"book", none, none, [.leaf "title"]⟩] s := by
    have hapart : ∀ s ∈ [.leaf "content", ⟨"book", none, none, [.leaf "title"]⟩],
        Selection.ApartIn (some review) [.leaf "content", ⟨"book", none, none, [.leaf "title"]⟩]
          s := by
      simp [Selection.ApartIn, Selection.leaf, Selection.column, Filter.relationshipOf,
        Filter.columnOf, review, Entity.relationship?, Entity.column, Entity.field?,
        Entity.ofFields]
    intro s hs
    have hs' := hapart s hs
    rcases List.mem_pair.1 hs with rfl | rfl
    · exact .column rfl hs' .nil
    · refine .relationship rfl hs' fun child hchild => ?_
      obtain rfl := List.mem_singleton.1 hchild
      exact htitle
  have hapart : ∀ s ∈ bookNames, Selection.ApartIn (some book) bookNames s := by
    simp [Selection.ApartIn, bookNames, Selection.leaf, Selection.column, Filter.relationshipOf,
      Filter.columnOf, book, Entity.relationship?, Entity.column, Entity.field?, Entity.ofFields]
  intro s hs
  have hs' := hapart s hs
  simp only [bookNames, List.mem_cons, List.not_mem_nil, or_false] at hs
  rcases hs with rfl | rfl | rfl
  · exact .column rfl hs' .nil
  · exact .relationship rfl hs' hreviewed
  · exact .column rfl hs' (.leaf rfl)

/-- The one item shows the names with the title, and the reviews and publishers with
what is selected of them. -/
theorem shows_of_read_bookNames :
    ∃ q body, ∃ ms : Members, bookshop.compile (booksBy bookNames) .anonymous = .ok q ∧
      q.answer bookshop.tables = .ok body ∧ itemsOf body = [.object ms] ∧
      ms.names = ["name", "reviews", "publisher"] ∧
      ms.get? "name" = some (.str "Dune") ∧
      ms.get? "reviews" = some (.list [.object [("content", .str "classic"),
        ("book", .object [("title", .str "Dune")])]]) ∧
      ms.get? "publisher" = some (.object [("name", .str "Ace")]) := by
  have hdistinct : Distinct bookNames := by
    have hreviewed : Distinct [.leaf "content", ⟨"book", none, none, [.leaf "title"]⟩] :=
      .mk (by decide)
        (List.forall_mem_cons.2 ⟨.nil, List.forall_mem_cons.2 ⟨.leaf "title", by simp⟩⟩)
    refine .mk (by decide) ?_
    simp only [bookNames, List.forall_mem_cons]
    exact ⟨.nil, hreviewed, .leaf "name", by simp⟩
  obtain ⟨q, body, start, hcompile, hanswer, -, hshows⟩ := shows_of_read
    (show bookshop.catalog.entity? (booksBy bookNames).entity = some book from rfl) rfl hdistinct
    (show (bookshop.read (booksBy bookNames) .anonymous).1 = .ok _ from rfl)
  cases hcompile
  cases hanswer
  obtain ⟨row, rows, hshown, hnone, hrows⟩ := List.forall₂_cons_right_iff.1 hshows
  obtain rfl : row = dune := by
    have hrow : row ∈ [dune] := List.mem_of_mem_drop (List.mem_of_mem_take
      (hrows ▸ List.mem_cons_self))
    exact List.mem_singleton.1 hrow
  obtain ⟨ms, hobject, hnames, hvalues⟩ := hshown
  have hvalue : ∀ s ∈ bookNames, ms.get? s.output =
      some (s.value bookshop.catalog bookshop.tables.resolver (some book) dune) :=
    fun s hs => hvalues s hs (keptApart_bookNames s hs)
  refine ⟨_, _, ms, rfl, rfl, ?_, hnames, hvalue _ List.mem_cons_self, ?_, ?_⟩
  · rw [← hobject]
    rfl
  · exact hvalue _ (List.mem_cons_of_mem _ List.mem_cons_self)
  · exact hvalue _ (List.mem_cons_of_mem _ (List.mem_cons_of_mem _ List.mem_cons_self))

/-- The contents and the ratings of the reviews, each under a name of their own. -/
def contentsAndRatings : List Selection :=
  [⟨"reviews", some "texts", none, [.leaf "content"]⟩,
    ⟨"reviews", some "marks", none, [.leaf "rating"]⟩]

/-- The scores of the books, and the contents of their reviews. -/
def scoresAndReviews : List Selection :=
  [.leaf "score", ⟨"reviews", none, none, [.leaf "content"]⟩]

/-- The titles of the books of the publishers that stand inside the books. -/
def publishedBooks : List Selection :=
  [⟨"publisher", none, none, [⟨"books", none, none, [.leaf "title"]⟩]⟩]

/-- Fields that are not kept apart are shown with values that are not theirs. Of reviews that
are selected twice, what the first selection asks for is lost; a column with the name of a
relationship that is selected shows the related rows; and below a document inside a row a
relationship shows nothing. -/
theorem get?_ne_value_of_not_keptApart :
    Catalog.ofConfig bookshopConfig = .ok bookshop.catalog ∧
      bookshop.catalog.cacheTtl? book = none ∧
      ∀ selection ∈ [contentsAndRatings, scoresAndReviews, publishedBooks], Distinct selection ∧
        ∃ q body, bookshop.compile (booksBy selection) .anonymous = .ok q ∧
          q.answer bookshop.tables = .ok body ∧
          (bookshop.read (booksBy selection) .anonymous).1 = .ok body.compact ∧
          ∃ item ∈ itemsOf body, ∃ s ∈ selection, ∀ row ∈ bookshop.tables.rows "books",
            item.get? s.output ≠
              some (s.value bookshop.catalog bookshop.tables.resolver (some book) row) := by
  have hcontents : Distinct contentsAndRatings := by
    refine .mk (by decide) ?_
    simp only [contentsAndRatings, List.forall_mem_cons]
    exact ⟨.leaf "content", .leaf "rating", by simp⟩
  have hscores : Distinct scoresAndReviews := by
    refine .mk (by decide) ?_
    simp only [scoresAndReviews, List.forall_mem_cons]
    exact ⟨.nil, .leaf "content", by simp⟩
  have hpublished : Distinct publishedBooks := by
    refine .mk (by decide) ?_
    simp only [publishedBooks, List.forall_mem_cons]
    exact ⟨.mk (by decide) (List.forall_mem_cons.2 ⟨.leaf "title", by simp⟩), by simp⟩
  have hrow : ∀ row ∈ bookshop.tables.rows "books", row = dune := fun row hrow =>
    List.mem_singleton.1 (show row ∈ [dune] from hrow)
  refine ⟨rfl, rfl, fun selection hselection => ?_⟩
  simp only [List.mem_cons, List.not_mem_nil, or_false] at hselection
  -- in each of the three answers it is the first field of the first item
  -- that has another value
  rcases hselection with rfl | rfl | rfl
  · refine ⟨hcontents, _, _, rfl, rfl, rfl, _, List.mem_cons_self, _, List.mem_cons_self, ?_⟩
    intro row hmem heq
    obtain rfl := hrow row hmem
    cases heq
  · refine ⟨hscores, _, _, rfl, rfl, rfl, _, List.mem_cons_self, _, List.mem_cons_self, ?_⟩
    intro row hmem heq
    obtain rfl := hrow row hmem
    cases heq
  · refine ⟨hpublished, _, _, rfl, rfl, rfl, _, List.mem_cons_self, _, List.mem_cons_self, ?_⟩
    intro row hmem heq
    obtain rfl := hrow row hmem
    cases heq

end Service

end RoleQuery
