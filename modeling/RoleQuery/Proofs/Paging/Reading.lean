import RoleQuery.Proofs.Catalog.Examples
import RoleQuery.Proofs.Paging.Page
import Mathlib.Algebra.Order.Floor.Div

/-!
# Reading page after page

A client asks for a page, and then with the cursor of each page for the one after it, until a
page has no cursor. It has then received every row that it asked for, each once and in order,
and every page but the last was full.
-/
namespace RoleQuery

/-- The items that an answer shows. -/
def itemsOf (body : Json) : List Json :=
  match body.get? "items" with
  | some (.list items) => items
  | _ => []

/-- The answers show the items in pages of one size: no more pages than it takes, but at least
one; all full but the last; and only the last says that no other follows. -/
structure ArePages (size : Nat) (items bodies : List Json) : Prop where
  length : bodies.length = max 1 (items.length ⌈/⌉ size)
  full : ∀ body ∈ bodies.dropLast,
    body.get? "hasNextPage" = some (.bool true) ∧ (itemsOf body).length = size
  last : ∀ body ∈ bodies.getLast?, body.get? "hasNextPage" = some (.bool false)
  concat : bodies.flatMap itemsOf = items

/-- A single page that is not overfull. -/
theorem ArePages.single {size : Nat} (hsize : 1 ≤ size) {body : Json}
    (hitems : (itemsOf body).length ≤ size)
    (hlast : body.get? "hasNextPage" = some (.bool false)) :
    ArePages size (itemsOf body) [body] where
  length := by
    have hceil : (itemsOf body).length ⌈/⌉ size ≤ 1 := by
      rw [ceilDiv_le_iff_le_mul (by omega)]
      omega
    rw [List.length_singleton, max_eq_left hceil]
  full := by simp
  last := by simpa using hlast
  concat := by simp

/-- There is at least one page. -/
theorem ArePages.ne_nil {size : Nat} {items bodies : List Json} (h : ArePages size items bodies) :
    bodies ≠ [] := by
  intro hnil
  have hlength := h.length
  rw [hnil, List.length_nil] at hlength
  omega

/-- A full page before others. -/
theorem ArePages.cons {size : Nat} (hsize : 1 ≤ size) {body : Json} {items bodies : List Json}
    (hfull : (itemsOf body).length = size)
    (hnext : body.get? "hasNextPage" = some (.bool true)) (hitems : items ≠ [])
    (h : ArePages size items bodies) : ArePages size (itemsOf body ++ items) (body :: bodies) where
  length := by
    have hpos : 0 < items.length := List.length_pos_iff.2 hitems
    have hone : 1 ≤ items.length ⌈/⌉ size := by
      by_contra hzero
      have hle : items.length ⌈/⌉ size ≤ 0 := by omega
      rw [ceilDiv_le_iff_le_mul (by omega)] at hle
      omega
    have hceil : (itemsOf body ++ items).length ⌈/⌉ size = items.length ⌈/⌉ size + 1 := by
      rw [List.length_append, hfull, Nat.ceilDiv_eq_add_pred_div, Nat.ceilDiv_eq_add_pred_div,
        ← Nat.add_div_right _ (by omega)]
      congr 1
      omega
    rw [List.length_cons, h.length, hceil, max_eq_right hone, max_eq_right (by omega)]
  full := by
    rw [List.dropLast_cons_of_ne_nil h.ne_nil]
    intro other ho
    rcases List.mem_cons.1 ho with rfl | ho
    · exact ⟨hnext, hfull⟩
    · exact h.full other ho
  last := by
    rw [List.getLast?_cons_of_ne_nil h.ne_nil]
    exact h.last
  concat := by rw [List.flatMap_cons, h.concat]

namespace Service

/-- The service answers a read with a body: it gives the text of the
body, and stays as it is. -/
def Answers (s : Service) (caller : Caller) (request : ReadRequest) (body : Json) : Prop :=
  (do let q ← s.compile request caller; q.answer s.tables) = .ok body ∧
    s.read request caller = (.ok body.compact, s)

/-- The answers that a client receives who asks for a page and then, as long as there is a
cursor, for the page after it. -/
inductive Reading (s : Service) (caller : Caller) : ReadRequest → List Json → Prop where
  | last {request : ReadRequest} {body : Json} (answers : s.Answers caller request body)
      (ended : body.get? "endCursor" = some .null) : Reading s caller request [body]
  | more {request : ReadRequest} {body : Json} {cursor : String} {rest : List Json}
      (answers : s.Answers caller request body)
      (continued : body.get? "endCursor" = some (.str cursor))
      (reading : Reading s caller (request.after (some cursor)) rest) :
      Reading s caller request (body :: rest)

/-- A client receives no other answers. -/
theorem Reading.unique {s : Service} {caller : Caller} {request : ReadRequest}
    {bodies others : List Json} (h : s.Reading caller request bodies)
    (ho : s.Reading caller request others) : others = bodies := by
  induction h generalizing others with
  | last answers ended =>
    cases ho with
    | last answers' _ => rw [Except.ok.inj (answers'.1.symm.trans answers.1)]
    | more answers' continued _ =>
      rw [Except.ok.inj (answers'.1.symm.trans answers.1), ended] at continued
      cases continued
  | more answers continued _ ih =>
    cases ho with
    | last answers' ended =>
      rw [Except.ok.inj (answers'.1.symm.trans answers.1), continued] at ended
      cases ended
    | more answers' continued' reading' =>
      have hbody := Except.ok.inj (answers'.1.symm.trans answers.1)
      rw [hbody, continued] at continued'
      cases continued'
      rw [hbody, ih reading']

/-- Where results are not kept, a read is fetched from the tables. -/
theorem read_eq_fetch {s : Service} {caller : Caller} {request : ReadRequest} {q : CompiledRead}
    {e : Entity} (hentity : s.catalog.entity? request.entity = some e)
    (hcache : s.catalog.cacheTtl? e = none) (hcompile : s.compile request caller = .ok q)
    (hname : q.plan.entity = e.name) : s.read request caller = (q.fetch s.tables, s) := by
  have hfound : s.catalog.requireEntity q.plan.entity = .ok e := by
    have hfind := hentity
    rw [Catalog.entity?] at hfind
    have he : e.name = request.entity := by simpa using List.find?_some hfind
    rw [hname, Catalog.requireEntity_eq_ok_iff, he]
    exact hentity
  rw [read, hcompile]
  simp only [bind, Except.bind, pure, Except.pure, hfound, hcache]

/-- Where results are not kept, a read is answered from the tables. -/
theorem answers_of_answer {s : Service} {caller : Caller} {request : ReadRequest} {q : CompiledRead}
    {e : Entity} {body : Json} (hentity : s.catalog.entity? request.entity = some e)
    (hcache : s.catalog.cacheTtl? e = none) (hcompile : s.compile request caller = .ok q)
    (hname : q.plan.entity = e.name) (hanswer : q.answer s.tables = .ok body) :
    s.Answers caller request body := by
  refine ⟨by rw [hcompile]; exact hanswer, ?_⟩
  rw [read_eq_fetch hentity hcache hcompile hname, CompiledRead.fetch, hanswer]
  rfl

open Tables (Paged Pageable)

section Run

variable {s : Service} {caller : Caller} {e : Entity}

/-- What an item of the answer shows of a row. -/
def shown (t : Tables) (plan : QueryPlan) (row : Json) : Json :=
  plan.mask.shape (t.fetchRow plan row)

theorem itemsOf_body (mask : FieldMask) (page : Page) :
    itemsOf (CompiledRead.body mask page) = page.items.map mask.shape := by
  simp [itemsOf, CompiledRead.body, Json.get?, Members.get?]

theorem hasNextPage_body (mask : FieldMask) (page : Page) :
    (CompiledRead.body mask page).get? "hasNextPage" = some (.bool page.hasNextPage) := by
  simp [CompiledRead.body, Json.get?, Members.get?]

theorem endCursor_body (mask : FieldMask) (page : Page) :
    (CompiledRead.body mask page).get? "endCursor" = some (Json.ofText? page.endCursor) := by
  simp [CompiledRead.body, Json.get?, Members.get?]

/-- Whoever starts after so many rows and reads page after page is shown
the rows that follow. -/
theorem exists_reading (hcache : s.catalog.cacheTtl? e = none) (request : ReadRequest)
    (q : CompiledRead) (start : Nat) (hentity : s.catalog.entity? request.entity = some e)
    (hcompile : s.compile request caller = .ok q) (hname : q.plan.entity = e.name)
    (h : Paged s.tables e q.plan)
    (hoffset : Tables.offset (s.tables.matching q.plan) q.plan.pagination.order
      q.plan.pagination.continuation = .ok start)
    (hstart : start ≤ (s.tables.matching q.plan).length) :
    ∃ bodies, s.Reading caller request bodies ∧
      ArePages q.plan.pagination.pageSize.toNat
        (((s.tables.matching q.plan).drop start).map (shown s.tables q.plan)) bodies := by
  -- Every page leaves fewer rows to read.
  induction hleft : (s.tables.matching q.plan).length - start using Nat.strong_induction_on
    generalizing request q start with
  | _ left ih =>
    have hminimum := h.minimum
    have hbody := h.answer_eq hoffset hstart q.statement
    have hanswers := answers_of_answer hentity hcache hcompile hname hbody
    have hitems : itemsOf (CompiledRead.body q.plan.mask (s.tables.pageAt q.plan start)) =
        (((s.tables.matching q.plan).drop start).take q.plan.pagination.pageSize.toNat).map
          (shown s.tables q.plan) := by
      rw [itemsOf_body, Tables.pageAt, List.map_map]
      rfl
    by_cases hmore : start + q.plan.pagination.pageSize.toNat < (s.tables.matching q.plan).length
    · have hpositive : 0 < start + q.plan.pagination.pageSize.toNat := by omega
      obtain ⟨c, hc, hoffset'⟩ := Tables.offset_cursorAt h.backend h.pageable h.key hpositive
        hmore.le
      obtain ⟨statement, hcompile'⟩ := Catalog.compileRead_after hentity hcompile hc
      have hmatching : s.tables.matching (q.plan.continueAt c) = s.tables.matching q.plan := rfl
      have hrest := ih ((s.tables.matching q.plan).length -
          (start + q.plan.pagination.pageSize.toNat)) (by omega)
        (request.after (some (s.tables.cursorAt q.plan (start + q.plan.pagination.pageSize.toNat))))
        ⟨q.plan.continueAt c, statement⟩ (start + q.plan.pagination.pageSize.toNat) hentity
          hcompile' hname (h.continueAt c)
      rw [hmatching] at hrest
      obtain ⟨rest, hreading, hpages⟩ := hrest hoffset' hmore.le rfl
      refine ⟨_, .more hanswers ?_ hreading, ?_⟩
      · rw [endCursor_body, Tables.pageAt, if_pos hmore]
        rfl
      · have hsplit : ((s.tables.matching q.plan).drop start).map (shown s.tables q.plan) =
            itemsOf (CompiledRead.body q.plan.mask (s.tables.pageAt q.plan start)) ++
              ((s.tables.matching q.plan).drop
                (start + q.plan.pagination.pageSize.toNat)).map (shown s.tables q.plan) := by
          rw [hitems, ← List.map_append, ← List.drop_drop, List.take_append_drop]
        rw [hsplit]
        refine ArePages.cons h.minimum ?_ ?_ ?_ hpages
        · rw [hitems, List.length_map, List.length_take, List.length_drop]
          omega
        · rw [hasNextPage_body, Tables.pageAt]
          simp [hmore]
        · simpa using hmore
    · refine ⟨_, .last hanswers ?_, ?_⟩
      · rw [endCursor_body, Tables.pageAt, if_neg hmore]
        rfl
      · have hall : ((s.tables.matching q.plan).drop start).take q.plan.pagination.pageSize.toNat =
            (s.tables.matching q.plan).drop start := by
          apply List.take_of_length_le
          rw [List.length_drop]
          omega
        rw [hall] at hitems
        rw [← hitems]
        refine ArePages.single h.minimum ?_ ?_
        · rw [hitems, List.length_map, List.length_drop]
          omega
        · rw [hasNextPage_body, Tables.pageAt]
          simp [hmore]

/-- Pages concatenate to the full result. A client who starts without a cursor and reads
page after page receives certain answers and no others: pages of the size that the
request resolves to, which together show every row that is asked for, each once and in
the order of the request. -/
theorem reading_pages {request : ReadRequest} {q : CompiledRead}
    (hentity : s.catalog.entity? request.entity = some e)
    (hcompile : s.compile request caller = .ok q) (hafter : request.paging.after = none)
    (hcache : s.catalog.cacheTtl? e = none) (hnames : (e.fields.map (·.name)).Nodup)
    (hselected : ∀ field ∈ q.plan.mask.fields, field.relationship?.isSome →
      ∀ key ∈ q.plan.pagination.order, field.name ≠ key.column)
    (hminimum : 1 ≤ q.plan.pagination.pageSize.toNat)
    (hmaximum : q.plan.pagination.pageSize.toNat < 2 ^ 32 - 1)
    (htable : Pageable e q.plan.pagination.order (s.tables.rows e.object)) :
    (s.tables.matching q.plan).Perm (s.tables.asked q.plan) ∧
      (s.tables.matching q.plan).Pairwise
        (fun a b => compareRows a b q.plan.pagination.order = .lt) ∧
      ∃ bodies, (∀ others, s.Reading caller request others ↔ others = bodies) ∧
        ArePages q.plan.pagination.pageSize.toNat
          ((s.tables.matching q.plan).map (shown s.tables q.plan)) bodies := by
  have hcompiled := hcompile
  rw [compile, Catalog.compileRead] at hcompiled
  obtain ⟨plan, hplan, hcompiled⟩ := Except.bind_eq_ok_iff.1 hcompiled
  obtain ⟨statement, hstatement, hcompiled⟩ := Except.bind_eq_ok_iff.1 hcompiled
  cases hcompiled
  obtain ⟨hname, hobject, hbackend, hresolve, selections, hfields⟩ :=
    Catalog.planRead_spec hentity hplan
  have hkey : ∀ f ∈ e.key, ∃ key ∈ plan.pagination.order, key.column = f.column := fun f hf =>
    Pagination.exists_key_of_resolveOrder hnames (Pagination.order_of_resolve hresolve) hf
  have hpageable : Pageable e plan.pagination.order (s.tables.asked plan) := by
    apply htable.sublist
    rw [Tables.asked, hobject]
    exact List.filter_sublist
  have hpaged : Paged s.tables e plan := by
    refine ⟨hbackend, Pagination.backend_of_resolve hresolve, hminimum, hmaximum, hpageable,
      hkey, ?_⟩
    intro field hfield hr key hmem
    rw [FieldMask.column_eq_name_of_fieldsOf hfields hfield hr]
    exact hselected field hfield hr key hmem
  have hcontinuation : plan.pagination.continuation = .start := by
    have hc := Pagination.continuation_of_resolve hresolve
    rw [hafter] at hc
    exact (Except.ok.inj hc).symm
  have hoffset : Tables.offset (s.tables.matching plan) plan.pagination.order
      plan.pagination.continuation = .ok 0 := by
    rw [hcontinuation]
    rfl
  obtain ⟨bodies, hreading, hpages⟩ := exists_reading hcache request ⟨plan, statement⟩ 0 hentity
    hcompile hname hpaged hoffset (Nat.zero_le _)
  rw [List.drop_zero] at hpages
  refine ⟨Tables.matching_perm _ _, ?_, bodies, ?_, hpages⟩
  · rw [Tables.matching_eq]
    exact sortRows_pairwise hpageable.toOneKind (hpageable.level hkey)
  · intro others
    exact ⟨hreading.unique, fun h => h ▸ hreading⟩

/-- A library with five books, one of them without a year, of which anyone
may read the first four. -/
def readingRoom : Service :=
  .start
    (Examples.library.withPermissions
      (PermissionTable.empty.grant "Book" anonymousRole .read
        ⟨.all, .empty, some (.group [.scalar "id" .lt (.integer 5)] none none)⟩))
    (Tables.empty.put "books"
      [.object [("id", .int 1), ("book_title", .str "Maria"), ("publication_year", .int 1905)],
        .object [("id", .int 2), ("book_title", .str "Anna")],
        .object [("id", .int 3), ("book_title", .str "Berta"), ("publication_year", .int 1905)],
        .object [("id", .int 4), ("book_title", .str "Clara"), ("publication_year", .int 1907)],
        .object [("id", .int 5), ("book_title", .str "Dora"), ("publication_year", .int 1909)]])

/-- The titles of the books but one, two on a page, the latest first. -/
def latestTitles : ReadRequest where
  entity := "Book"
  filter := some (.object [("title", .object [("neq", .str "Clara")])])
  selection := [⟨"title", some "called", none, []⟩]
  paging := { orderBy := [⟨"year", .desc⟩], first := some 2 }

def latestTitlesPlan : QueryPlan where
  entity := "Book"
  object := "books"
  backend := .relational
  predicate := some (.and [.leaf ⟨.root, ["book_title"]⟩ .neq (some (.text "Clara")),
    .leaf ⟨.root, ["id"]⟩ .lt (some (.integer 5))])
  mask := ⟨some "Book", some "books", [.plain "title" "called" "book_title" none]⟩
  pagination :=
    ⟨.relational, [⟨"year", "publication_year", .desc, true⟩, ⟨"id", "id", .asc, false⟩], 2, .start⟩
  nextAlias := 1

/-- The books have different keys, and integers in the columns of the ordering. -/
theorem pageable_books :
    Pageable Examples.book latestTitlesPlan.pagination.order
      (readingRoom.tables.rows "books") where
  oneKind := by
    have hcells : ∀ key ∈ latestTitlesPlan.pagination.order,
        ∀ row ∈ readingRoom.tables.rows "books",
          Value.ofJson? ((row.get? key.column).getD .null) = some .null ∨
            ∃ n ∈ [1, 2, 3, 4, 5, 1905, 1907, 1909],
              Value.ofJson? ((row.get? key.column).getD .null) = some (.integer n) := by
      decide
    intro key hkey
    refine ⟨.integer, by simp, fun row hrow => ?_⟩
    rcases hcells key hkey row hrow with h | ⟨n, -, h⟩
    · exact ⟨_, h, .inl rfl, trivial⟩
    · exact ⟨_, h, .inr rfl, trivial⟩
  distinct := by decide
  length := by decide
  keys := by
    refine ⟨by decide, ?_⟩
    unfold Wire.fits
    decide

/-- Two pages show the three books that the filter and the grant admit: first those of one
year in the order of their keys, and then the one without a year. -/
theorem reading_pages_latestTitles :
    ∃ bodies, (∀ others, readingRoom.Reading .anonymous latestTitles others ↔ others = bodies) ∧
      bodies.length = 2 ∧
      bodies.flatMap itemsOf = [.object [("called", .str "Maria")],
        .object [("called", .str "Berta")], .object [("called", .str "Anna")]] := by
  obtain ⟨statement, hcompile⟩ : ∃ statement,
      readingRoom.compile latestTitles .anonymous = .ok ⟨latestTitlesPlan, statement⟩ := ⟨_, rfl⟩
  have hselected : ∀ field ∈ latestTitlesPlan.mask.fields, field.relationship?.isSome →
      ∀ key ∈ latestTitlesPlan.pagination.order, field.name ≠ key.column := by decide
  obtain ⟨-, -, bodies, hreading, hpages⟩ := reading_pages (e := Examples.book) rfl hcompile rfl rfl
    (by decide) hselected (show 1 ≤ 2 by decide) (show 2 < 2 ^ 32 - 1 by decide) pageable_books
  have hlength : bodies.length = max 1 (3 ⌈/⌉ 2) := hpages.length
  refine ⟨bodies, hreading, ?_, hpages.concat⟩
  rw [hlength, Nat.ceilDiv_eq_add_pred_div]
  rfl

end Run

end Service

end RoleQuery
