import RoleQuery.Proofs.Catalog.Examples
import RoleQuery.Proofs.Paging.Page

/-!
# Cursors are bound to their ordering

A cursor is accepted where the place that it tells means the same as where it was issued.
The position of a row means the same under an ordering with the same fields and directions,
one by one, whatever columns and whichever entity stand behind them; a token means something
to a document source only.
-/
namespace RoleQuery

def OrderKey.sorts (key : OrderKey) : String × SortDirection := (key.field, key.direction)

namespace Pagination

theorem matchFields_eq_ok_iff {fields : List CursorField} {order : List OrderKey}
    (hlength : fields.length = order.length) {values : List Value} :
    matchFields fields order = .ok values ↔
      order.map OrderKey.sorts = fields.map (fun f => (f.field, f.direction)) ∧
        values = fields.map (·.value) := by
  induction fields generalizing order values with
  | nil =>
    cases order with
    | nil => simp [matchFields, eq_comm]
    | cons key keys => cases hlength
  | cons f fields ih =>
    cases order with
    | nil => cases hlength
    | cons key keys =>
      have hrest : fields.length = keys.length := Nat.succ.inj hlength
      rw [matchFields]
      simp only [List.map_cons, List.cons.injEq, OrderKey.sorts, Prod.mk.injEq]
      split_ifs with hsorts
      · rw [Except.map_eq_ok_iff]
        constructor
        · rintro ⟨rest, hmatch, rfl⟩
          obtain ⟨hkeys, rfl⟩ := (ih hrest).1 hmatch
          exact ⟨⟨⟨hsorts.1.symm, hsorts.2.symm⟩, hkeys⟩, rfl⟩
        · rintro ⟨⟨-, hkeys⟩, rfl⟩
          exact ⟨_, (ih hrest).2 ⟨hkeys, rfl⟩, rfl⟩
      · constructor
        · intro h
          cases h
        · rintro ⟨⟨⟨hfield, hdirection⟩, -⟩, -⟩
          exact absurd ⟨hfield.symm, hdirection.symm⟩ hsorts

/-- A position is matched by the orderings with its fields and directions,
and gives its values. -/
theorem matchKeyset_eq_ok_iff {fields : List CursorField} {order : List OrderKey}
    {values : List Value} :
    matchKeyset fields order = .ok values ↔
      order.map OrderKey.sorts = fields.map (fun f => (f.field, f.direction)) ∧
        values = fields.map (·.value) := by
  rw [matchKeyset]
  split_ifs with hlength
  · constructor
    · intro h
      cases h
    · rintro ⟨hsorts, -⟩
      have hcount := congrArg List.length hsorts
      rw [List.length_map, List.length_map] at hcount
      exact absurd hcount.symm hlength
  · exact matchFields_eq_ok_iff (not_not.1 hlength)

/-- A position that does not match is refused as a cursor. -/
theorem matchKeyset_eq_ok_or_error (fields : List CursorField) (order : List OrderKey) :
    (∃ values, matchKeyset fields order = .ok values) ∨
      ∃ fault, matchKeyset fields order = .error (.cursor fault) := by
  have hmatch : (∃ values, matchFields fields order = .ok values) ∨
      ∃ fault, matchFields fields order = .error (.cursor fault) := by
    fun_induction matchFields fields order with
    | case1 f fields key keys h ih =>
      rcases ih with ⟨values, hvalues⟩ | ⟨fault, hfault⟩
      · exact .inl ⟨_, Except.map_eq_ok_iff.2 ⟨values, hvalues, rfl⟩⟩
      · exact .inr ⟨fault, by rw [hfault]; rfl⟩
    | case2 => exact .inr ⟨_, rfl⟩
    | case3 => exact .inl ⟨_, rfl⟩
  rw [matchKeyset]
  split_ifs
  · exact .inr ⟨_, rfl⟩
  · exact hmatch

/-- The position of a row repeats the ordering, with the scalars that the
row has in its columns. -/
theorem of_positionOf {row : Json} {order : List OrderKey} {fields : List CursorField}
    (h : positionOf row order = .ok fields) :
    fields.map (fun f => (f.field, f.direction)) = order.map OrderKey.sorts ∧
      order.map (fun key => Value.ofJson? ((row.get? key.column).getD .null)) =
        (fields.map (·.value)).map some := by
  induction order generalizing fields with
  | nil => cases h; exact ⟨rfl, rfl⟩
  | cons key rest ih =>
    rw [positionOf] at h
    split at h
    · cases h
    next v hv =>
    obtain ⟨others, hothers, rfl⟩ := Except.map_eq_ok_iff.1 h
    obtain ⟨hsorts, hvalues⟩ := ih hothers
    rw [List.map_cons, List.map_cons, List.map_cons, List.map_cons, List.map_cons, hsorts, hvalues,
      hv]
    exact ⟨rfl, rfl⟩

variable {settings : Settings} {e : Entity} {request : PageRequest} {pageSize : UInt32}
  {order : List OrderKey}

/-- The start that a payload tells on a backend, under an ordering of the named entity. -/
def startOf (entity : String) (order : List OrderKey) :
    CursorPayload → Backend → Except RequestError Continuation
  | .keyset fields, .relational => (matchKeyset fields order).map .after
  | .continuation token, .hierarchical => .ok (.token token)
  | _, _ => .error (.cursor (.foreign entity))

theorem resolveContinuation_of_decode {cursor : String} {payload : CursorPayload}
    (h : CursorPayload.decode cursor = .ok payload) :
    resolveContinuation e order (some cursor) = startOf e.name order payload e.backend := by
  rw [resolveContinuation, h]
  rfl

/-- A cursor that tells no start is refused as one. -/
theorem resolveContinuation_eq_ok_or_error (e : Entity) (order : List OrderKey) (cursor : String) :
    (∃ c, resolveContinuation e order (some cursor) = .ok c) ∨
      ∃ fault, resolveContinuation e order (some cursor) = .error (.cursor fault) := by
  rcases CursorPayload.decode_eq_ok_or_error cursor with ⟨payload, hdecode⟩ | ⟨fault, hdecode⟩
  · rw [resolveContinuation_of_decode hdecode]
    fun_cases startOf e.name order payload e.backend
    · next fields =>
      rcases matchKeyset_eq_ok_or_error fields order with ⟨values, h⟩ | ⟨fault, h⟩
      · exact .inl ⟨_, by rw [h]; rfl⟩
      · exact .inr ⟨fault, by rw [h]; rfl⟩
    · exact .inl ⟨_, rfl⟩
    · exact .inr ⟨_, rfl⟩
  · exact .inr ⟨fault, by rw [resolveContinuation, hdecode]; rfl⟩

/-- A request of which the size and the ordering are valid is resolved if its start is. -/
theorem resolve_eq_map (hsize : resolvePageSize settings request.first = .ok pageSize)
    (horder : resolveOrder e request.orderBy = .ok order) :
    resolve settings e request =
      (resolveContinuation e order request.after).map fun c => ⟨e.backend, order, pageSize, c⟩ := by
  simp only [resolve, hsize, horder]
  rfl

end Pagination

namespace Page

/-- The lengths in the cursor of a page can be written: those of its ordering, of the texts in
its rows and of the token. -/
structure Writable (p : Pagination) (page : Page) (token : Option String) : Prop where
  keys : p.order.length < 2 ^ 64 ∧ ∀ key ∈ p.order, Wire.fits key.field
  values : ∀ row ∈ page.items, ∀ key ∈ p.order, ∀ v,
    Value.ofJson? ((row.get? key.column).getD .null) = some v → Wire.valueFits v
  token : ∀ t ∈ token, Wire.fits t

/-- Where the cursor of a page leads to, in a later request on a backend under an ordering. -/
inductive Continues (p : Pagination) (page : Page) (token : Option String) (backend : Backend)
    (order : List OrderKey) : Continuation → Prop where
  /-- After the last row of the page, under an ordering with the same
  fields and directions. -/
  | position {last : Json} {values : List Value} (hissued : p.backend = .relational)
      (hbackend : backend = .relational)
      (horder : order.map OrderKey.sorts = p.order.map OrderKey.sorts)
      (hlast : page.items.getLast? = some last)
      (hvalues : p.order.map (fun key => Value.ofJson? ((last.get? key.column).getD .null)) =
        values.map some) :
      Continues p page token backend order (.after values)
  /-- Where the token says. -/
  | token {t : String} (hissued : p.backend = .hierarchical) (hbackend : backend = .hierarchical)
      (htoken : token = some t) : Continues p page token backend order (.token t)

end Page

namespace Pagination

variable {settings : Settings} {e : Entity} {request : PageRequest} {pageSize : UInt32}
  {order : List OrderKey} {p : Pagination} {rows : List Json} {token : Option String} {page : Page}
  {cursor : String}

/-- The position of a row of the page can be written. -/
theorem fits_of_positionOf (hwritable : page.Writable p token) {row : Json}
    (hrow : row ∈ page.items) {fields : List CursorField}
    (h : positionOf row p.order = .ok fields) : (CursorPayload.keyset fields).fits := by
  obtain ⟨hsorts, -⟩ := of_positionOf h
  have hlength := congrArg List.length hsorts
  rw [List.length_map, List.length_map] at hlength
  refine ⟨by rw [hlength]; exact hwritable.keys.1, fun f hf => ?_⟩
  obtain ⟨key, hkey, hfield, hvalue⟩ := exists_key_of_positionOf h hf
  exact ⟨hfield ▸ hwritable.keys.2 key hkey, hwritable.values row hrow key hkey _ hvalue⟩

/-- The start that the cursor of a page is resolved to is where it leads to. -/
theorem resolveContinuation_issued_iff (hpage : Page.assemble p rows token = .ok page)
    (hcursor : page.endCursor = some cursor) (hwritable : page.Writable p token)
    {c : Continuation} :
    resolveContinuation e order (some cursor) = .ok c ↔
      page.Continues p token e.backend order c := by
  rcases Page.cursor_of_assemble hpage hcursor with
    ⟨hissued, last, fields, hlast, hfields, rfl⟩ | ⟨hissued, t, ht, rfl⟩
  · obtain ⟨hsorts, hvalues⟩ := of_positionOf hfields
    rw [resolveContinuation_of_decode (CursorPayload.decode_encode
      (fits_of_positionOf hwritable (List.mem_of_getLast? hlast) hfields))]
    cases hbackend : e.backend with
    | relational =>
      rw [startOf, Except.map_eq_ok_iff]
      constructor
      · rintro ⟨values, hmatch, rfl⟩
        obtain ⟨horder, rfl⟩ := matchKeyset_eq_ok_iff.1 hmatch
        exact .position hissued rfl (horder.trans hsorts) hlast hvalues
      · rintro (⟨-, -, horder, hother, hfound⟩ | ⟨htoken, -, -⟩)
        · cases hlast.symm.trans hother
          have hsame := List.map_injective_iff.2 (fun _ _ => Option.some.inj)
            (hvalues.symm.trans hfound)
          exact ⟨_, matchKeyset_eq_ok_iff.2 ⟨horder.trans hsorts.symm, hsame.symm⟩, rfl⟩
        · cases hissued.symm.trans htoken
    | hierarchical =>
      constructor
      · rintro ⟨⟩
      · rintro (⟨-, hother, -⟩ | ⟨hother, -⟩)
        · cases hother
        · cases hissued.symm.trans hother
  · rw [resolveContinuation_of_decode
      (CursorPayload.decode_encode (p := .continuation t) (hwritable.token t ht))]
    cases hbackend : e.backend with
    | relational =>
      constructor
      · rintro ⟨⟩
      · rintro (⟨hother, -⟩ | ⟨-, hother, -⟩)
        · cases hissued.symm.trans hother
        · cases hother
    | hierarchical =>
      constructor
      · rintro ⟨⟩
        exact .token hissued rfl ht
      · rintro (⟨-, hother, -⟩ | ⟨-, -, hother⟩)
        · cases hother
        · cases ht.symm.trans hother
          rfl

/-- **A cursor is bound to its ordering and to its kind of backend.** A later request on
any entity, of which the size and the ordering are valid, accepts the cursor of a page
exactly if the cursor leads somewhere in it, and then starts there; otherwise it is refused
because of the cursor. -/
theorem resolve_issued (hpage : Page.assemble p rows token = .ok page)
    (hcursor : page.endCursor = some cursor) (hwritable : page.Writable p token)
    (hsize : resolvePageSize settings request.first = .ok pageSize)
    (horder : resolveOrder e request.orderBy = .ok order) (hafter : request.after = some cursor) :
    (∀ q, resolve settings e request = .ok q ↔
      ∃ c, page.Continues p token e.backend order c ∧ q = ⟨e.backend, order, pageSize, c⟩) ∧
    ((∀ c, ¬page.Continues p token e.backend order c) →
      ∃ fault, resolve settings e request = .error (.cursor fault)) := by
  have hissued (c : Continuation) : resolveContinuation e order (some cursor) = .ok c ↔
      page.Continues p token e.backend order c :=
    resolveContinuation_issued_iff hpage hcursor hwritable
  rw [resolve_eq_map hsize horder, hafter]
  constructor
  · intro q
    rw [Except.map_eq_ok_iff]
    simp only [hissued, eq_comm (a := q)]
  · intro hnone
    rcases resolveContinuation_eq_ok_or_error e order cursor with ⟨c, hc⟩ | ⟨fault, hfault⟩
    · exact absurd ((hissued c).1 hc) (hnone c)
    · exact ⟨fault, by rw [hfault]; rfl⟩

open Examples

/-- One book on a page, the latest first. -/
def latestFirst : Pagination where
  backend := .relational
  order := [⟨"year", "publication_year", .desc, true⟩, ⟨"id", "id", .asc, false⟩]
  pageSize := 1
  continuation := .start

/-- Two books that are fetched for a page of one. -/
def latestBooks : List Json :=
  [.object [("publication_year", .int 1999), ("id", .int 7)], .object [("id", .int 8)]]

/-- The cursor after the book of 1999 leads to the books after it if the latest are read
first, and is refused if the earliest are. -/
theorem resolve_issued_latestFirst :
    ∃ page cursor, Page.assemble latestFirst latestBooks none = .ok page ∧
      page.endCursor = some cursor ∧
      resolve .default book
        { orderBy := [⟨"year", .desc⟩], first := some 1, after := some cursor } =
        .ok (latestFirst.continueAt (.after [.integer 1999, .integer 7])) ∧
      ∃ fault, resolve .default book { orderBy := [⟨"year", .asc⟩], after := some cursor } =
        .error (.cursor fault) := by
  obtain ⟨page, cursor, hpage, hcursor, hitems⟩ : ∃ page cursor,
      Page.assemble latestFirst latestBooks none = .ok page ∧ page.endCursor = some cursor ∧
        page.items = [.object [("publication_year", .int 1999), ("id", .int 7)]] :=
    ⟨_, _, rfl, rfl, rfl⟩
  have hwritable : page.Writable latestFirst none := by
    refine ⟨⟨by decide, ?_⟩, ?_, by simp⟩
    · unfold Wire.fits
      decide
    · rw [hitems]
      simp only [latestFirst, List.forall_mem_cons, List.not_mem_nil, false_implies, implies_true,
        and_true]
      constructor <;> rintro v ⟨⟩ <;> trivial
  refine ⟨page, cursor, hpage, hcursor, ?_, ?_⟩
  · have hsize : resolvePageSize .default (some 1) = .ok 1 := rfl
    have horder : resolveOrder book [⟨"year", .desc⟩] = .ok latestFirst.order := rfl
    exact ((resolve_issued hpage hcursor hwritable hsize horder rfl).1 _).2
      ⟨_, .position rfl rfl rfl (by rw [hitems]; rfl) rfl, rfl⟩
  · have hsize : resolvePageSize .default none = .ok 100 := rfl
    have horder : resolveOrder book [⟨"year", .asc⟩] =
        .ok [⟨"year", "publication_year", .asc, true⟩, ⟨"id", "id", .asc, false⟩] := rfl
    refine (resolve_issued hpage hcursor hwritable hsize horder rfl).2 ?_
    rintro c (⟨-, -, hsame, -, -⟩ | ⟨hother, -, -⟩)
    · exact absurd hsame (by decide)
    · cases hother

end Pagination

end RoleQuery
