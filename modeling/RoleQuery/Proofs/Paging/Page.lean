import RoleQuery.Service.Basic
import RoleQuery.Proofs.Paging.FollowUp

/-!
# One page of a table

A page that starts after so many rows holds the rows that follow, as many as fit.
It says that another page follows exactly if there are more, and its cursor then
leads to the rows after it.
-/
namespace RoleQuery

namespace Tables

/-- What the rows of a table must be like so that their pages can be told apart: the
columns of the ordering hold values of one kind and no floating-point numbers, and no
two rows have the same primary key. The number of the rows and the lengths of the texts
have sixty-four bits. -/
structure Pageable (e : Entity) (order : List OrderKey) (rows : List Json) : Prop where
  oneKind : ∀ key ∈ order, ∃ k, k ≠ Value.Kind.float ∧ ∀ row ∈ rows, ∃ v,
    Value.ofJson? ((row.get? key.column).getD .null) = some v ∧ v.isOf k ∧ Wire.valueFits v
  distinct : rows.Pairwise fun a b => ∃ f ∈ e.key, sortValue a f.column ≠ sortValue b f.column
  length : rows.length < 2 ^ 64
  keys : order.length < 2 ^ 64 ∧ ∀ key ∈ order, Wire.fits key.field

/-- The rows that a read asks for, in the order of the table. -/
def asked (t : Tables) (plan : QueryPlan) : List Json :=
  (t.rows plan.object).filter fun row => plan.predicate.all fun p => p.holds t.resolver row

theorem matching_eq (t : Tables) (plan : QueryPlan) :
    t.matching plan = sortRows plan.pagination.order (t.asked plan) := by
  rw [matching, asked]
  congr 2
  funext row
  cases plan.predicate <;> rfl

theorem matching_perm (t : Tables) (plan : QueryPlan) : (t.matching plan).Perm (t.asked plan) := by
  rw [matching_eq]
  exact sortRows_perm _ _

section Pageable

variable {e : Entity} {order : List OrderKey} {rows : List Json}

theorem Pageable.sublist (h : Pageable e order rows) {part : List Json}
    (hsub : part.Sublist rows) : Pageable e order part where
  oneKind := by
    intro key hkey
    obtain ⟨k, hk, hrows⟩ := h.oneKind key hkey
    exact ⟨k, hk, fun row hrow => hrows row (hsub.subset hrow)⟩
  distinct := h.distinct.sublist hsub
  length := by
    have hlength := hsub.length_le
    have hrows := h.length
    omega
  keys := h.keys

theorem Pageable.toOneKind (h : Pageable e order rows) : OneKind order rows := by
  intro key hkey
  obtain ⟨k, hk, hrows⟩ := h.oneKind key hkey
  refine ⟨k, hk, fun row hrow => ?_⟩
  obtain ⟨v, hv, hkind, -⟩ := hrows row hrow
  rw [Pagination.sortValue_of_ofJson? hv]
  exact hkind

/-- No two rows are level in an ordering that the primary key is part of. -/
theorem Pageable.level (h : Pageable e order rows)
    (hkey : ∀ f ∈ e.key, ∃ key ∈ order, key.column = f.column) :
    rows.Pairwise fun a b => compareRows a b order ≠ .eq := by
  refine h.distinct.imp_of_mem ?_
  rintro a b ha hb ⟨f, hf, hne⟩ heq
  obtain ⟨key, hmem, hcolumn⟩ := hkey f hf
  have hsame := (compareRows_eq_iff ha hb h.toOneKind).1 heq key hmem
  rw [hcolumn] at hsame
  exact hne hsame

/-- The position of a row can be written into a cursor. -/
theorem Pageable.fits_cursorFields (h : Pageable e order rows) {row : Json} (hrow : row ∈ rows) :
    (CursorPayload.keyset (Pagination.cursorFields row order)).fits := by
  refine ⟨by simpa [Pagination.cursorFields] using h.keys.1, ?_⟩
  intro f hf
  obtain ⟨key, hkey, rfl⟩ := List.mem_map.1 hf
  obtain ⟨k, -, hrows⟩ := h.oneKind key hkey
  obtain ⟨v, hv, -, hfits⟩ := hrows row hrow
  refine ⟨h.keys.2 key hkey, ?_⟩
  rw [Pagination.sortValue_of_ofJson? hv]
  exact hfits

end Pageable

/-- What is fetched of a row has the position of the row. -/
theorem positionOf_fetchRow {e : Entity} {plan : QueryPlan} {rows : List Json}
    (h : Pageable e plan.pagination.order rows) {row : Json} (hrow : row ∈ rows) (t : Tables)
    (hselected : ∀ field ∈ plan.mask.fields, field.relationship?.isSome →
      ∀ key ∈ plan.pagination.order, field.column ≠ key.column) :
    Pagination.positionOf (t.fetchRow plan row) plan.pagination.order =
      .ok (Pagination.cursorFields row plan.pagination.order) := by
  have hfetch : ∀ key ∈ plan.pagination.order, (t.fetchRow plan row).get? key.column =
      some ((row.get? key.column).getD .null) := fun key hkey =>
    get?_fetchRow t hkey (fun field hfield hr => hselected field hfield hr key hkey) row
  have hvalue : ∀ key ∈ plan.pagination.order, ∃ v,
      Value.ofJson? (((t.fetchRow plan row).get? key.column).getD .null) = some v ∧
        sortValue row key.column = v := by
    intro key hkey
    obtain ⟨k, -, hrows⟩ := h.oneKind key hkey
    obtain ⟨v, hv, -⟩ := hrows row hrow
    refine ⟨v, ?_, Pagination.sortValue_of_ofJson? hv⟩
    rw [hfetch key hkey]
    exact hv
  rw [Pagination.positionOf_eq fun key hkey => by
    obtain ⟨v, hv, -⟩ := hvalue key hkey
    rw [hv]
    rfl]
  congr 1
  apply List.map_congr_left
  intro key hkey
  obtain ⟨v, hv, hsort⟩ := hvalue key hkey
  rw [Pagination.sortValue_of_ofJson? hv, hsort]

/-! ## Where a page starts -/

/-- The cursor that leads to the rows after the first so many. -/
def cursorAt (t : Tables) (plan : QueryPlan) (start : Nat) : String :=
  match plan.backend with
  | .relational =>
    (CursorPayload.keyset
      (Pagination.cursorFields ((t.matching plan).getD (start - 1) .null)
        plan.pagination.order)).encode
  | .hierarchical => (CursorPayload.continuation (toString start)).encode

/-- The cursor after some rows is resolved to a start, and leads to the rows after them. -/
theorem offset_cursorAt {e : Entity} {t : Tables} {plan : QueryPlan}
    (hbackend : plan.backend = e.backend)
    (h : Pageable e plan.pagination.order (t.asked plan))
    (hkey : ∀ f ∈ e.key, ∃ key ∈ plan.pagination.order, key.column = f.column) {start : Nat}
    (hpos : 0 < start) (hstart : start ≤ (t.matching plan).length) :
    ∃ c, Pagination.resolveContinuation e plan.pagination.order (some (t.cursorAt plan start)) =
        .ok c ∧
      offset (t.matching plan) plan.pagination.order c = .ok start := by
  have hmem : ∀ row ∈ t.matching plan, row ∈ t.asked plan := fun row hrow =>
    (matching_perm t plan).mem_iff.1 hrow
  cases hb : plan.backend with
  | hierarchical =>
    have hlength := (matching_perm t plan).length_eq
    have hlt : start < 2 ^ 64 := by
      have hrows := h.length
      omega
    refine ⟨.token (toString start), ?_, ?_⟩
    · rw [cursorAt, hb]
      exact Pagination.resolveContinuation_token (hbackend ▸ hb) (fits_toString hlt)
    · rw [offset, tokenOffset?_toString hlt]
  | relational =>
    have hsorted := sortRows_pairwise h.toOneKind (h.level hkey)
    rw [← matching_eq] at hsorted
    -- the last row before the start
    obtain ⟨before, row, after, hsplit, hlength⟩ : ∃ before row after,
        t.matching plan = before ++ row :: after ∧ before.length + 1 = start := by
      have hindex : start - 1 < (t.matching plan).length := by omega
      refine ⟨(t.matching plan).take (start - 1), (t.matching plan)[start - 1],
        (t.matching plan).drop (start - 1 + 1), ?_, ?_⟩
      · rw [← List.drop_eq_getElem_cons hindex, List.take_append_drop]
      · rw [List.length_take]
        omega
    have hlast : (t.matching plan).getD (start - 1) .null = row := by
      simp [hsplit, ← hlength]
    rw [hsplit] at hmem hsorted
    refine ⟨.after (plan.pagination.order.map fun key => sortValue row key.column), ?_, ?_⟩
    · rw [cursorAt, hb, hlast]
      exact Pagination.resolveContinuation_keyset (hbackend ▸ hb)
        (h.fits_cursorFields (hmem row (by simp)))
    · rw [offset, hsplit, takeWhile_compareToPosition h.toOneKind hmem hsorted]
      simp [hlength]

/-! ## What a page holds -/

/-- The page that starts after so many rows. -/
def pageAt (t : Tables) (plan : QueryPlan) (start : Nat) : Page where
  items :=
    (((t.matching plan).drop start).take plan.pagination.pageSize.toNat).map (t.fetchRow plan)
  endCursor :=
    if start + plan.pagination.pageSize.toNat < (t.matching plan).length then
      some (t.cursorAt plan (start + plan.pagination.pageSize.toNat))
    else none
  hasNextPage :=
    decide (start + plan.pagination.pageSize.toNat < (t.matching plan).length)

/-- As many rows are fetched as the page holds, and one more where that
tells of another page. -/
theorem fetchLimit_toNat {p : Pagination} (hmax : p.pageSize.toNat < 2 ^ 32 - 1) :
    p.fetchLimit.toNat =
      match p.backend with
      | .relational => p.pageSize.toNat + 1
      | .hierarchical => p.pageSize.toNat := by
  rw [Pagination.fetchLimit]
  cases p.backend with
  | hierarchical => rfl
  | relational =>
    have hne : p.pageSize ≠ 0xFFFFFFFF := by
      intro heq
      rw [heq] at hmax
      exact absurd hmax (by decide)
    simp only [if_neg hne, UInt32.toNat_add, UInt32.reduceToNat]
    exact Nat.mod_eq_of_lt (by omega)

/-- Cutting off what is fetched beyond the page leaves the rows of the page. -/
theorem take_fetched {α : Type} (rows : List α) {start limit size : Nat} (h : size ≤ limit) :
    ((rows.take (min (start + limit) rows.length)).drop start).take size =
      (rows.drop start).take size := by
  rw [List.drop_take, List.take_take, List.take_eq_take_iff, List.length_drop]
  omega

/-- The last of the elements that are taken after a start. -/
theorem getLast?_take_drop {α : Type} {l : List α} {start size : Nat} (hmin : 1 ≤ size)
    (h : start + size ≤ l.length) :
    ((l.drop start).take size).getLast? = l[start + size - 1]? := by
  rw [List.getLast?_eq_getElem?, List.getElem?_take, List.getElem?_drop, List.length_take,
    List.length_drop, if_pos (by omega)]
  congr 1
  omega

section Answer

variable {t : Tables} {plan : QueryPlan} {start : Nat}

/-- What is fetched for a page that starts after so many rows. -/
theorem query_eq (hoffset : offset (t.matching plan) plan.pagination.order
      plan.pagination.continuation = .ok start) (hstart : start ≤ (t.matching plan).length) :
    t.query plan = .ok
      { rows := (((t.matching plan).take (min (start + plan.pagination.fetchLimit.toNat)
          (t.matching plan).length)).drop start).map (t.fetchRow plan)
        continuation :=
          if plan.backend = .hierarchical ∧
              start + plan.pagination.fetchLimit.toNat < (t.matching plan).length then
            some (toString (start + plan.pagination.fetchLimit.toNat))
          else none } := by
  rw [query, hoffset]
  simp only [bind, Except.bind, pure, Except.pure, Nat.min_eq_left hstart]
  congr 2
  by_cases hlt : start + plan.pagination.fetchLimit.toNat < (t.matching plan).length
  · rw [Nat.min_eq_left hlt.le]
  · rw [Nat.min_eq_right (by omega), if_neg (by simp), if_neg (by simp [hlt])]

/-- A document source says itself whether another page follows. -/
theorem assemble_hierarchical {p : Pagination} (hbackend : p.backend = .hierarchical)
    (rows : List Json) (continuation : Option String) :
    Page.assemble p rows continuation =
      .ok ⟨rows.take p.pageSize.toNat,
        continuation.map fun token => (CursorPayload.continuation token).encode,
        continuation.isSome⟩ := by
  rw [Page.assemble, hbackend]
  simp

theorem answer_hierarchical (hbackend : plan.backend = .hierarchical)
    (hpagination : plan.pagination.backend = .hierarchical)
    (hmax : plan.pagination.pageSize.toNat < 2 ^ 32 - 1)
    (hoffset : offset (t.matching plan) plan.pagination.order
      plan.pagination.continuation = .ok start) (hstart : start ≤ (t.matching plan).length)
    (statement : Statement) :
    CompiledRead.answer t ⟨plan, statement⟩ =
      .ok (CompiledRead.body plan.mask (t.pageAt plan start)) := by
  have hlimit := fetchLimit_toNat hmax
  rw [hpagination] at hlimit
  simp only at hlimit
  rw [CompiledRead.answer, query_eq hoffset hstart, hlimit]
  simp only [Except.mapError, bind, Except.bind, assemble_hierarchical hpagination, pure,
    Except.pure, hbackend, true_and, ← List.map_take, take_fetched _ (Nat.le_refl _)]
  congr 2
  rw [pageAt]
  congr 1
  · split_ifs with h
    · rw [cursorAt, hbackend]
      rfl
    · rfl
  · split_ifs with h <;> simp [h]

/-- A page of a table is followed by another if more rows were fetched than it holds. -/
theorem assemble_relational {p : Pagination} (hbackend : p.backend = .relational)
    {rows : List Json} {fields : List CursorField}
    (hlast : p.pageSize.toNat < rows.length → ∃ last,
      (rows.take p.pageSize.toNat).getLast? = some last ∧
        Pagination.positionOf last p.order = .ok fields) (continuation : Option String) :
    Page.assemble p rows continuation =
      .ok ⟨rows.take p.pageSize.toNat,
        if p.pageSize.toNat < rows.length then some (CursorPayload.keyset fields).encode else none,
        decide (p.pageSize.toNat < rows.length)⟩ := by
  rw [Page.assemble, hbackend]
  by_cases hmore : p.pageSize.toNat < rows.length
  · obtain ⟨last, hgetLast, hposition⟩ := hlast hmore
    simp [hmore, hgetLast, hposition, Except.map]
  · cases (rows.take p.pageSize.toNat).getLast? <;> simp [hmore]

theorem answer_relational {e : Entity} (hbackend : plan.backend = .relational)
    (hpagination : plan.pagination.backend = .relational)
    (hmin : 1 ≤ plan.pagination.pageSize.toNat)
    (hmax : plan.pagination.pageSize.toNat < 2 ^ 32 - 1)
    (h : Pageable e plan.pagination.order (t.asked plan))
    (hselected : ∀ field ∈ plan.mask.fields, field.relationship?.isSome →
      ∀ key ∈ plan.pagination.order, field.column ≠ key.column)
    (hoffset : offset (t.matching plan) plan.pagination.order
      plan.pagination.continuation = .ok start) (hstart : start ≤ (t.matching plan).length)
    (statement : Statement) :
    CompiledRead.answer t ⟨plan, statement⟩ =
      .ok (CompiledRead.body plan.mask (t.pageAt plan start)) := by
  have hlimit := fetchLimit_toNat hmax
  rw [hpagination] at hlimit
  simp only at hlimit
  rw [CompiledRead.answer, query_eq hoffset hstart, hlimit]
  have hfetched : plan.pagination.pageSize.toNat <
      ((((t.matching plan).take (min (start + (plan.pagination.pageSize.toNat + 1))
        (t.matching plan).length)).drop start).map (t.fetchRow plan)).length ↔
      start + plan.pagination.pageSize.toNat < (t.matching plan).length := by
    simp only [List.length_map, List.length_drop, List.length_take]
    omega
  have hlast : start + plan.pagination.pageSize.toNat < (t.matching plan).length → ∃ last,
      (((t.matching plan).drop start).take plan.pagination.pageSize.toNat |>.map
        (t.fetchRow plan)).getLast? = some last ∧
      Pagination.positionOf last plan.pagination.order = .ok (Pagination.cursorFields
        ((t.matching plan).getD (start + plan.pagination.pageSize.toNat - 1) .null)
          plan.pagination.order) := by
    intro hmore
    have hindex : start + plan.pagination.pageSize.toNat - 1 < (t.matching plan).length := by omega
    have hrow : (t.matching plan)[start + plan.pagination.pageSize.toNat - 1] ∈ t.asked plan :=
      (matching_perm t plan).mem_iff.1 (List.getElem_mem hindex)
    refine ⟨t.fetchRow plan (t.matching plan)[start + plan.pagination.pageSize.toNat - 1], ?_, ?_⟩
    · rw [List.getLast?_map, getLast?_take_drop hmin hmore.le, List.getElem?_eq_getElem hindex]
      rfl
    · rw [List.getD_eq_getElem?_getD, List.getElem?_eq_getElem hindex]
      exact positionOf_fetchRow h hrow t hselected
  simp only [Except.mapError, bind, Except.bind]
  rw [assemble_relational hpagination (by
    intro hmore
    rw [← List.map_take, take_fetched _ (Nat.le_succ _)]
    exact hlast (hfetched.1 hmore))]
  simp only [hfetched, ← List.map_take, take_fetched _ (Nat.le_succ _), pure, Except.pure]
  rw [pageAt, cursorAt, hbackend]

end Answer

/-- A read of an entity in pages that can be told apart. -/
structure Paged (t : Tables) (e : Entity) (plan : QueryPlan) : Prop where
  backend : plan.backend = e.backend
  pagination : plan.pagination.backend = e.backend
  minimum : 1 ≤ plan.pagination.pageSize.toNat
  maximum : plan.pagination.pageSize.toNat < 2 ^ 32 - 1
  pageable : Pageable e plan.pagination.order (t.asked plan)
  key : ∀ f ∈ e.key, ∃ key ∈ plan.pagination.order, key.column = f.column
  selected : ∀ field ∈ plan.mask.fields, field.relationship?.isSome →
    ∀ key ∈ plan.pagination.order, field.column ≠ key.column

variable {t : Tables} {e : Entity} {plan : QueryPlan}

theorem Paged.continueAt (h : Paged t e plan) (c : Continuation) : Paged t e (plan.continueAt c) :=
  ⟨h.backend, h.pagination, h.minimum, h.maximum, h.pageable, h.key, h.selected⟩

/-- A read that starts after so many rows answers with the page that starts there. -/
theorem Paged.answer_eq (h : Paged t e plan) {start : Nat}
    (hoffset : offset (t.matching plan) plan.pagination.order
      plan.pagination.continuation = .ok start) (hstart : start ≤ (t.matching plan).length)
    (statement : Statement) :
    CompiledRead.answer t ⟨plan, statement⟩ =
      .ok (CompiledRead.body plan.mask (t.pageAt plan start)) := by
  cases hbackend : e.backend with
  | relational =>
    exact answer_relational (h.backend.trans hbackend) (h.pagination.trans hbackend) h.minimum
      h.maximum h.pageable h.selected hoffset hstart statement
  | hierarchical =>
    exact answer_hierarchical (h.backend.trans hbackend) (h.pagination.trans hbackend) h.maximum
      hoffset hstart statement

end Tables

/-! ## What an answer is made of -/

/-- The items of a page are the first of the fetched rows, as many as the page holds. -/
theorem Page.items_of_assemble {p : Pagination} {rows : List Json} {continuation : Option String}
    {page : Page} (h : assemble p rows continuation = .ok page) :
    page.items = rows.take p.pageSize.toNat := by
  cases hbackend : p.backend with
  | hierarchical =>
    rw [Tables.assemble_hierarchical hbackend] at h
    cases h
    rfl
  | relational =>
    rw [assemble, hbackend] at h
    cases hlast : (rows.take p.pageSize.toNat).getLast? with
    | none =>
      simp only [hlast] at h
      cases h
      rfl
    | some last =>
      simp only [hlast] at h
      split_ifs at h
      · obtain ⟨fields, -, rfl⟩ := Except.map_eq_ok_iff.1 h
        rfl
      · cases h
        rfl

/-- The cursor of a page of a table is the position of its last row, and that of a page of
documents is the token that the backend gave. -/
theorem Page.cursor_of_assemble {p : Pagination} {rows : List Json} {continuation : Option String}
    {page : Page} (h : assemble p rows continuation = .ok page) {cursor : String}
    (hcursor : page.endCursor = some cursor) :
    (p.backend = .relational ∧ ∃ last fields, page.items.getLast? = some last ∧
      Pagination.positionOf last p.order = .ok fields ∧
      cursor = (CursorPayload.keyset fields).encode) ∨
    (p.backend = .hierarchical ∧ ∃ token ∈ continuation,
      cursor = (CursorPayload.continuation token).encode) := by
  cases hbackend : p.backend with
  | hierarchical =>
    rw [Tables.assemble_hierarchical hbackend] at h
    cases h
    obtain ⟨token, htoken, rfl⟩ := Option.map_eq_some_iff.1 hcursor
    exact .inr ⟨rfl, token, htoken, rfl⟩
  | relational =>
    have hitems := items_of_assemble h
    rw [assemble, hbackend] at h
    cases hlast : (rows.take p.pageSize.toNat).getLast? with
    | none =>
      simp only [hlast] at h
      cases h
      cases hcursor
    | some last =>
      simp only [hlast] at h
      split_ifs at h
      · obtain ⟨fields, hfields, rfl⟩ := Except.map_eq_ok_iff.1 h
        cases hcursor
        exact .inl ⟨rfl, last, fields, hlast, hfields, rfl⟩
      · cases h
        cases hcursor

/-- A page is made of fetched rows. Its cursor is the position of one of them, or the token
that the backend gave. -/
theorem Page.of_assemble {p : Pagination} {rows : List Json} {continuation : Option String}
    {page : Page} (h : assemble p rows continuation = .ok page) :
    (∀ item ∈ page.items, item ∈ rows) ∧ ∀ cursor ∈ page.endCursor,
      (∃ last ∈ rows, ∃ fields, Pagination.positionOf last p.order = .ok fields ∧
        cursor = (CursorPayload.keyset fields).encode) ∨
      ∃ token ∈ continuation, cursor = (CursorPayload.continuation token).encode := by
  have hmem : ∀ item ∈ page.items, item ∈ rows := fun item hitem =>
    List.mem_of_mem_take (items_of_assemble h ▸ hitem)
  refine ⟨hmem, fun cursor hcursor => ?_⟩
  rcases cursor_of_assemble h hcursor with ⟨-, last, fields, hlast, hfields⟩ | ⟨-, htoken⟩
  · exact .inl ⟨last, hmem last (List.mem_of_getLast? hlast), fields, hfields⟩
  · exact .inr htoken

/-- What is fetched stems from rows that are asked for, and a token is
the number of some rows. -/
theorem Tables.of_query {t : Tables} {plan : QueryPlan} {fetched : Fetched}
    (h : t.query plan = .ok fetched) :
    (∀ document ∈ fetched.rows, ∃ row ∈ t.matching plan, t.fetchRow plan row = document) ∧
      ∀ token ∈ fetched.continuation, ∃ n : Nat, token = toString n := by
  rw [query] at h
  obtain ⟨start, -, h⟩ := Except.bind_eq_ok_iff.1 h
  cases h
  refine ⟨fun document hdocument => ?_, fun token htoken => ?_⟩
  · obtain ⟨row, hrow, hfetch⟩ := List.mem_map.1 hdocument
    exact ⟨row, List.mem_of_mem_take (List.mem_of_mem_drop hrow), hfetch⟩
  · simp only at htoken
    split_ifs at htoken
    · exact ⟨_, (Option.some.inj htoken).symm⟩
    · cases htoken

/-- An answer shows the page of what is fetched. -/
theorem CompiledRead.of_answer {t : Tables} {q : CompiledRead} {body : Json}
    (h : q.answer t = .ok body) : ∃ fetched page, t.query q.plan = .ok fetched ∧
      Page.assemble q.plan.pagination fetched.rows fetched.continuation = .ok page ∧
      body = CompiledRead.body q.plan.mask page := by
  rw [answer] at h
  obtain ⟨fetched, hfetched, h⟩ := Except.bind_eq_ok_iff.1 h
  obtain ⟨page, hpage, h⟩ := Except.bind_eq_ok_iff.1 h
  cases h
  cases hquery : t.query q.plan with
  | error fault => rw [hquery] at hfetched; cases hfetched
  | ok other =>
    rw [hquery] at hfetched
    cases hfetched
    exact ⟨fetched, page, rfl, hpage, rfl⟩

end RoleQuery
