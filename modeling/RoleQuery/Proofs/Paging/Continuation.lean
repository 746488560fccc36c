import RoleQuery.Tables.Run
import RoleQuery.Proofs.Catalog.Columns
import RoleQuery.Proofs.Paging.Cursor
import RoleQuery.Proofs.Tables.Order
import Mathlib.Data.List.Nodup

/-!
# Continuing after a page

The cursor of a page is resolved to the place that the page ended at. For a table it holds the
position of the last row, which is what the ordering finds in the row itself; for a document
source it holds the number of the rows up to there.
-/
namespace RoleQuery

namespace Tables

theorem toList_toString (n : Nat) : (toString n).toList = Nat.toDigits 10 n :=
  Nat.toList_repr

/-- The token of an offset is read as the offset. -/
theorem tokenOffset?_toString {n : Nat} (h : n < 2 ^ 64) : tokenOffset? (toString n) = some n := by
  have hdigits : ∀ c ∈ Nat.toDigits 10 n, c.isDigit := fun c hc =>
    Nat.isDigit_of_mem_toDigits (by omega) (by omega) hc
  have hvalue : (Nat.toDigits 10 n).foldl (fun n c => 10 * n + (c.toNat - 48)) 0 = n :=
    Nat.ofDigitChars_eq_foldl.symm.trans Nat.ofDigitChars_ten_toDigits
  have hempty : (Nat.toDigits 10 n).isEmpty = false := by simp
  have hall : (Nat.toDigits 10 n).all Char.isDigit = true := List.all_eq_true.2 hdigits
  have hsize : n < UInt64.size := h
  unfold tokenOffset?
  rw [toList_toString]
  split
  · next rest heq =>
    have hplus := hdigits '+' (by rw [heq]; exact List.mem_cons_self)
    cases hplus
  · simp only [hempty, hall, hvalue, hsize]
    rfl

/-- The token of an offset can be written into a cursor. -/
theorem fits_toString {n : Nat} (h : n < 2 ^ 64) : Wire.fits (toString n) := by
  have hlength : (toString n).toList.length ≤ 20 := by
    rw [toList_toString, Nat.length_toDigits_le_iff (by omega) (by omega)]
    omega
  have hbytes := Utf8.length_encode_le (toString n)
  rw [Wire.fits]
  omega

end Tables

namespace Pagination

/-- Keys that stem from fields. -/
def KeysOf (fields : List Field) (keys : List OrderKey) : Prop :=
  ∀ key ∈ keys, ∃ f ∈ fields, key.field = f.name ∧ key.column = f.column

/-- A key of one of the fields may be added. -/
theorem KeysOf.append {fields : List Field} {keys : List OrderKey} (h : KeysOf fields keys)
    {f : Field} (hf : f ∈ fields) (direction : SortDirection) (nullable : Bool) :
    KeysOf fields (keys ++ [⟨f.name, f.column, direction, nullable⟩]) := by
  intro key hkey
  rcases List.mem_append.1 hkey with hkey | hkey
  · exact h key hkey
  · rw [List.mem_singleton] at hkey
    subst hkey
    exact ⟨f, hf, rfl, rfl⟩

theorem keysOf_requestedKeys {e : Entity} {fields : List Field} {orderBy : List OrderBy}
    {keys order : List OrderKey} (hkeys : KeysOf fields keys)
    (hfields : ∀ requested ∈ orderBy, ∀ f ∈ e.field? requested.field, f ∈ fields)
    (h : requestedKeys e keys orderBy = .ok order) : KeysOf fields order := by
  induction orderBy generalizing keys with
  | nil => cases h; exact hkeys
  | cons requested rest ih =>
    have hrest : ∀ requested ∈ rest, ∀ f ∈ e.field? requested.field, f ∈ fields :=
      fun other ho => hfields other (List.mem_cons_of_mem requested ho)
    rw [requestedKeys] at h
    cases hf : e.field? requested.field with
    | none => rw [hf] at h; cases h
    | some f =>
      rw [hf] at h
      simp only at h
      split_ifs at h with hkind hany
      · exact ih hkeys hrest h
      · exact ih (hkeys.append (hfields requested List.mem_cons_self f hf) _ _) hrest h

theorem keysOf_withPrimaryKey {fields primary : List Field} {keys : List OrderKey}
    (hkeys : KeysOf fields keys) (hprimary : ∀ f ∈ primary, f ∈ fields) :
    KeysOf fields (withPrimaryKey keys primary) := by
  induction primary generalizing keys with
  | nil => exact hkeys
  | cons f rest ih =>
    have hrest : ∀ g ∈ rest, g ∈ fields := fun g hg => hprimary g (List.mem_cons_of_mem f hg)
    rw [withPrimaryKey]
    split_ifs
    · exact ih hkeys hrest
    · exact ih (hkeys.append (hprimary f List.mem_cons_self) _ _) hrest

/-- Adding the primary key keeps the keys there are. -/
theorem mem_withPrimaryKey {fields : List Field} {keys : List OrderKey} {key : OrderKey}
    (h : key ∈ keys) : key ∈ withPrimaryKey keys fields := by
  induction fields generalizing keys with
  | nil => exact h
  | cons f rest ih =>
    rw [withPrimaryKey]
    apply ih
    split_ifs
    · exact h
    · exact List.mem_append_left _ h

/-- Every field of the primary key has a key with its column, if names tell fields apart. -/
theorem exists_key_withPrimaryKey {e : Entity}
    (hnames : (e.fields.map (·.name)).Nodup) {fields : List Field}
    (hfields : ∀ f ∈ fields, f ∈ e.fields) {keys : List OrderKey} (hkeys : KeysOf e.fields keys)
    {f : Field} (hf : f ∈ fields) : ∃ key ∈ withPrimaryKey keys fields, key.column = f.column := by
  induction fields generalizing keys with
  | nil => cases hf
  | cons first rest ih =>
    rw [withPrimaryKey]
    have hfirst := hfields first List.mem_cons_self
    have hrest : ∀ g ∈ rest, g ∈ e.fields := fun g hg => hfields g (List.mem_cons_of_mem first hg)
    rcases List.mem_cons.1 hf with rfl | hf
    · by_cases hany : keys.any (·.field = f.name)
      · rw [if_pos hany]
        obtain ⟨key, hkey, hname⟩ := List.any_eq_true.1 hany
        obtain ⟨g, hg, hgname, hgcolumn⟩ := hkeys key hkey
        have hfg : g = f :=
          List.inj_on_of_nodup_map hnames hg hfirst (hgname.symm.trans (of_decide_eq_true hname))
        exact ⟨key, mem_withPrimaryKey hkey, hfg ▸ hgcolumn⟩
      · rw [if_neg hany]
        exact ⟨_, mem_withPrimaryKey (List.mem_append_right _ (List.mem_singleton_self _)), rfl⟩
    · refine ih hrest ?_ hf
      split_ifs
      · exact hkeys
      · exact hkeys.append hfirst _ _

/-- The columns of the primary key are part of every ordering, if names tell fields apart. -/
theorem exists_key_of_resolveOrder {e : Entity}
    (hnames : (e.fields.map (·.name)).Nodup) {orderBy : List OrderBy}
    {order : List OrderKey} (h : resolveOrder e orderBy = .ok order) {f : Field} (hf : f ∈ e.key) :
    ∃ key ∈ order, key.column = f.column := by
  rw [resolveOrder] at h
  cases hkeys : requestedKeys e [] orderBy with
  | error error => rw [hkeys] at h; cases h
  | ok keys =>
    rw [hkeys] at h
    cases h
    have hfields : ∀ requested ∈ orderBy, ∀ f ∈ e.field? requested.field, f ∈ e.fields :=
      fun _ _ _ => Entity.mem_fields_of_field?
    exact exists_key_withPrimaryKey hnames (fun g hg => (List.mem_filter.1 hg).1)
      (keysOf_requestedKeys (by simp [KeysOf]) hfields hkeys) hf

/-- A key of an ordering stems from a field that is requested or part of the primary key. -/
theorem exists_field_of_resolveOrder {e : Entity} {orderBy : List OrderBy} {order : List OrderKey}
    (h : resolveOrder e orderBy = .ok order) {key : OrderKey} (hkey : key ∈ order) :
    ∃ f ∈ e.fields, (f.isKey ∨ f.name ∈ orderBy.map (·.field)) ∧
      key.field = f.name ∧ key.column = f.column := by
  rw [resolveOrder] at h
  cases hkeys : requestedKeys e [] orderBy with
  | error error => rw [hkeys] at h; cases h
  | ok keys =>
    rw [hkeys] at h
    cases h
    let fields := e.fields.filter fun f => f.isKey ∨ f.name ∈ orderBy.map (·.field)
    have hrequested : ∀ requested ∈ orderBy, ∀ f ∈ e.field? requested.field, f ∈ fields := by
      intro requested hmem f hf
      have hname : f.name ∈ orderBy.map (·.field) :=
        List.mem_map.2 ⟨requested, hmem, (Entity.name_of_field? hf).symm⟩
      exact List.mem_filter.2 ⟨Entity.mem_fields_of_field? hf, decide_eq_true (.inr hname)⟩
    have hprimary : ∀ f ∈ e.key, f ∈ fields := by
      intro f hf
      obtain ⟨hf, hisKey⟩ := List.mem_filter.1 hf
      exact List.mem_filter.2 ⟨hf, decide_eq_true (.inl hisKey)⟩
    obtain ⟨f, hf, hfield, hcolumn⟩ := keysOf_withPrimaryKey
      (keysOf_requestedKeys (by simp [KeysOf]) hrequested hkeys) hprimary key hkey
    obtain ⟨hf, hstems⟩ := List.mem_filter.1 hf
    exact ⟨f, hf, of_decide_eq_true hstems, hfield, hcolumn⟩

/-! ## Positions -/

/-- The values of a position are those of a row in the columns of the ordering. -/
theorem exists_key_of_positionOf {row : Json} {order : List OrderKey}
    {fields : List CursorField} (h : positionOf row order = .ok fields) {c : CursorField}
    (hc : c ∈ fields) : ∃ key ∈ order, c.field = key.field ∧
      Value.ofJson? ((row.get? key.column).getD .null) = some c.value := by
  induction order generalizing fields with
  | nil =>
    cases h
    cases hc
  | cons key rest ih =>
    rw [positionOf] at h
    cases hvalue : Value.ofJson? ((row.get? key.column).getD .null) with
    | none => rw [hvalue] at h; cases h
    | some value =>
      rw [hvalue] at h
      obtain ⟨others, hothers, rfl⟩ := Except.map_eq_ok_iff.1 h
      rcases List.mem_cons.1 hc with rfl | hc
      · exact ⟨key, List.mem_cons_self, rfl, hvalue⟩
      · obtain ⟨other, hother, hfound⟩ := ih hothers hc
        exact ⟨other, List.mem_cons_of_mem key hother, hfound⟩

/-- The position of a row, by the values that the ordering finds in it. -/
def cursorFields (row : Json) (order : List OrderKey) : List CursorField :=
  order.map fun key => ⟨key.field, sortValue row key.column, key.direction⟩

/-- The ordering finds the scalar that a column holds. -/
theorem sortValue_of_ofJson? {row : Json} {column : String} {v : Value}
    (h : Value.ofJson? ((row.get? column).getD .null) = some v) : sortValue row column = v := by
  rw [sortValue]
  cases hget : row.get? column with
  | none => rw [hget] at h; cases h; rfl
  | some j => rw [hget] at h; exact congrArg (·.getD .null) h

/-- A row with a scalar in each column of the ordering has a position. -/
theorem positionOf_eq {row : Json} {order : List OrderKey}
    (h : ∀ key ∈ order, (Value.ofJson? ((row.get? key.column).getD .null)).isSome) :
    positionOf row order = .ok (cursorFields row order) := by
  induction order with
  | nil => rfl
  | cons key rest ih =>
    have hrest := ih fun other hother => h other (List.mem_cons_of_mem key hother)
    obtain ⟨v, hv⟩ := Option.isSome_iff_exists.1 (h key List.mem_cons_self)
    rw [positionOf, hv]
    simp only [hrest, Except.map, cursorFields, List.map_cons, sortValue_of_ofJson? hv]

/-- A position matches the ordering it was taken from. -/
theorem matchKeyset_cursorFields (row : Json) (order : List OrderKey) :
    matchKeyset (cursorFields row order) order =
      .ok (order.map fun key => sortValue row key.column) := by
  have hmatch : matchFields (cursorFields row order) order =
      .ok (order.map fun key => sortValue row key.column) := by
    induction order with
    | nil => rfl
    | cons key rest ih =>
      rw [cursorFields, List.map_cons, matchFields, if_pos ⟨rfl, rfl⟩]
      exact congrArg (Except.map _) ih
  rw [matchKeyset, if_neg (by simp [cursorFields]), hmatch]

/-- The cursor after a row of a table is resolved to the position of the row. -/
theorem resolveContinuation_keyset {e : Entity} (he : e.backend = .relational) {row : Json}
    {order : List OrderKey} (hfits : (CursorPayload.keyset (cursorFields row order)).fits) :
    resolveContinuation e order (some (CursorPayload.keyset (cursorFields row order)).encode) =
      .ok (.after (order.map fun key => sortValue row key.column)) := by
  simp only [resolveContinuation, CursorPayload.decode_encode hfits, he]
  change (matchKeyset (cursorFields row order) order).map _ = _
  rw [matchKeyset_cursorFields]
  rfl

/-- The cursor with a token of a document source is resolved to the token. -/
theorem resolveContinuation_token {e : Entity} (he : e.backend = .hierarchical) {token : String}
    {order : List OrderKey} (hfits : Wire.fits token) :
    resolveContinuation e order (some (CursorPayload.continuation token).encode) =
      .ok (.token token) := by
  have hdecode := CursorPayload.decode_encode (p := .continuation token) hfits
  simp only [resolveContinuation, hdecode, he]
  rfl

end Pagination

end RoleQuery
