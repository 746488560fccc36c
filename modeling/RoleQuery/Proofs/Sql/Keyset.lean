import RoleQuery.Proofs.Sql.Meaning
import RoleQuery.Sql.Select
import RoleQuery.Tables.Order

/-!
# The rows after a position

The statement of a page that continues another one selects the rows that sort after a
position. The condition has two forms: a comparison of all columns as one row, where no
null can matter, and otherwise one alternative for each key. In either form it is true of
exactly the rows that come after the position at some key and are level with it on all keys
before, nulls being first ascending and last descending. These are the rows that the order
of the tables in memory puts after the position, and the ordering that the statement asks
for puts nulls at the same ends.
-/
namespace RoleQuery

/-- One value comes after another: nulls are first ascending and last descending, and other
values come in their order. -/
def Value.Comes (direction : SortDirection) (a b : Value) : Prop :=
  match direction with
  | .asc => (¬ a.isNull ∧ b.isNull) ∨ a.compare? b = some .gt
  | .desc => (a.isNull ∧ ¬ b.isNull) ∨ a.compare? b = some .lt

/-- Two values are equal in the order. -/
def Value.Level (a b : Value) : Prop := (a.isNull ∧ b.isNull) ∨ a.compare? b = some .eq

/-- One of two values is null, or they compare. -/
def Value.Placed (a b : Value) : Prop := a.isNull ∨ b.isNull ∨ (a.compare? b).isSome

/-- A row sorts after a position: at some key its value comes after that of the position, and
it is level with the position on all keys before. -/
def SortsAfter (row : Json) : List OrderKey → List Value → Prop
  | key :: keys, value :: values =>
    (sortValue row key.column).Comes key.direction value ∨
      (sortValue row key.column).Level value ∧ SortsAfter row keys values
  | _, _ => False

/-! ## The order in memory -/

theorem Value.compare?_of_isNull {a b : Value} (h : a.isNull ∨ b.isNull) : a.compare? b = none := by
  cases a <;> cases b <;> simp_all [Value.compare?, Value.isNull]

theorem Value.comes_iff {a b : Value} (h : a.Placed b) (direction : SortDirection) :
    a.Comes direction b ↔ compareValues a b direction = .gt := by
  unfold Value.Comes compareValues
  cases ha : a.isNull <;> cases hb : b.isNull
  case false.false =>
    obtain ⟨order, horder⟩ := Option.isSome_iff_exists.1
      (h.resolve_left (by simp [ha]) |>.resolve_left (by simp [hb]))
    rw [horder]
    cases direction <;> cases order <;> simp
  all_goals
    rw [Value.compare?_of_isNull (by simp [ha, hb])]
    cases direction <;> simp

theorem Value.level_iff {a b : Value} (h : a.Placed b) (direction : SortDirection) :
    a.Level b ↔ compareValues a b direction = .eq := by
  unfold Value.Level compareValues
  cases ha : a.isNull <;> cases hb : b.isNull
  case false.false =>
    obtain ⟨order, horder⟩ := Option.isSome_iff_exists.1
      (h.resolve_left (by simp [ha]) |>.resolve_left (by simp [hb]))
    rw [horder]
    cases direction <;> cases order <;> simp
  all_goals
    rw [Value.compare?_of_isNull (by simp [ha, hb])]
    cases direction <;> simp

/-- The order in memory puts a row after a position if it sorts after it. -/
theorem sortsAfter_iff_compareToPosition {row : Json} {keys : List OrderKey} {values : List Value}
    (h : ∀ kv ∈ keys.zip values, (sortValue row kv.1.column).Placed kv.2) :
    SortsAfter row keys values ↔ compareToPosition row values keys = .gt := by
  induction keys generalizing values with
  | nil => cases values <;> simp [SortsAfter, compareToPosition]
  | cons key keys ih =>
    cases values with
    | nil => simp [SortsAfter, compareToPosition]
    | cons value values =>
      rw [List.zip_cons_cons, List.forall_mem_cons] at h
      rw [SortsAfter, compareToPosition, Value.comes_iff h.1, Value.level_iff h.1 key.direction,
        ih h.2, Ordering.then_eq_gt]

namespace Sql

variable {rows : Subrows} {read : Reading}

/-! ## One key -/

theorem signAdmits_afterSign (direction : SortDirection) (order : Ordering) :
    signAdmits (afterSign direction) order = true ↔
      order = match direction with
        | .asc => .gt
        | .desc => .lt := by
  cases direction <;> cases order <;> decide

/-- A comparison with a value that is no null is true of the values that come
after it, nulls aside. -/
theorem truth_compare_afterSign {column : Column} {value : Value} (hvalue : ¬ value.isNull)
    (direction : SortDirection) :
    truth rows read (.atom (.compare column (afterSign direction) value)) = some true ↔
      ¬ (read column).isNull ∧ (read column).Comes direction value := by
  have hnull : (read column).isNull → (read column).compare? value = none := fun h =>
    Value.compare?_of_isNull (.inl h)
  rw [truth, Atom.truth, Option.map_eq_some_iff]
  simp only [signAdmits_afterSign]
  cases direction <;> cases h : (read column).isNull <;> simp_all [Value.Comes]

/-- The condition of one key is true of the values that come after the position. A null that
is last is excluded, and so is a null in a column that holds none. -/
theorem truth_afterKey {column : Column} {key : OrderKey} {value : Value}
    (hlast : ¬ (key.direction = .desc ∧ value.isNull))
    (hnullable : key.nullable = false → ¬ (read column).isNull) :
    truth rows read (afterKey column key value) = some true ↔
      (read column).Comes key.direction value := by
  unfold afterKey
  by_cases hvalue : value.isNull
  · have hasc : key.direction = .asc := by
      cases hd : key.direction with
      | asc => rfl
      | desc => exact absurd ⟨hd, hvalue⟩ hlast
    rw [if_pos hvalue, hasc]
    simp [truth, Atom.truth, Value.Comes, hvalue, Value.compare?_of_isNull]
  · rw [if_neg hvalue]
    by_cases hdesc : key.direction = .desc ∧ key.nullable
    · rw [if_pos hdesc, truth_chain_or]
      simp only [List.mem_cons, List.not_mem_nil, or_false, exists_eq_or_imp, exists_eq_left,
        truth_compare_afterSign hvalue, hdesc.1]
      cases h : (read column).isNull <;> simp [truth, Atom.truth, Value.Comes, h, hvalue]
    · rw [if_neg hdesc, truth_compare_afterSign hvalue, and_iff_right_iff_imp]
      intro hcomes hnull
      cases hd : key.direction with
      | asc => simp [hd, Value.Comes, hnull, Value.compare?_of_isNull] at hcomes
      | desc =>
        have hnot : key.nullable = false := by
          cases hn : key.nullable with
          | false => rfl
          | true => exact absurd ⟨hd, hn⟩ hdesc
        exact hnullable hnot hnull

/-- The condition of a key before is true of the values that are level with the position. -/
theorem truth_atKey {column : Column} {value : Value} :
    truth rows read (atKey column value) = some true ↔ (read column).Level value := by
  unfold atKey
  by_cases hvalue : value.isNull
  · simp [truth, Atom.truth, Value.Level, hvalue, Value.compare?_of_isNull]
  · rw [if_neg hvalue]
    simp [truth, Atom.truth, Value.Level, hvalue, signAdmits]

/-! ## All keys -/

theorem alternatives_cons (level : List Condition) (key : OrderKey) (keys : List OrderKey)
    (value : Value) (values : List Value) :
    alternatives level (key :: keys) (value :: values) =
      if key.direction = .desc ∧ value.isNull then
        alternatives (level ++ [atKey (keyColumn key) value]) keys values
      else
        allTerms (level ++ [afterKey (keyColumn key) key value]) ::
          alternatives (level ++ [atKey (keyColumn key) value]) keys values := rfl

/-- Some alternative holds if the conditions so far hold and the row sorts after the position
on the keys that remain. -/
theorem exists_alternatives_iff {row : Json} {level : List Condition} {keys : List OrderKey}
    {values : List Value} (hlength : values.length = keys.length)
    (hread : ∀ key ∈ keys, read (keyColumn key) = sortValue row key.column)
    (hnullable : ∀ key ∈ keys, key.nullable = false → ¬ (sortValue row key.column).isNull) :
    (∃ c ∈ alternatives level keys values, truth rows read c = some true) ↔
      (∀ c ∈ level, truth rows read c = some true) ∧ SortsAfter row keys values := by
  induction keys generalizing level values with
  | nil => simp [alternatives, SortsAfter]
  | cons key keys ih =>
    obtain _ | ⟨value, values⟩ := values
    · cases hlength
    rw [List.forall_mem_cons] at hread hnullable
    have hrest : (∃ c ∈ alternatives (level ++ [atKey (keyColumn key) value]) keys values,
        truth rows read c = some true) ↔ _ := ih (Nat.succ.inj hlength) hread.2 hnullable.2
    simp only [List.forall_mem_append, List.forall_mem_singleton, truth_atKey, hread.1] at hrest
    rw [alternatives_cons, SortsAfter]
    by_cases hlast : key.direction = .desc ∧ value.isNull
    · -- Nothing comes after a null that is last.
      have hcomes : ¬ (sortValue row key.column).Comes key.direction value := by
        simp [hlast.1, hlast.2, Value.Comes, Value.compare?_of_isNull]
      rw [if_pos hlast, hrest, or_iff_right hcomes, and_assoc]
    · have hkey : truth rows read (afterKey (keyColumn key) key value) = some true ↔
          (sortValue row key.column).Comes key.direction value := by
        rw [← hread.1] at hnullable ⊢
        exact truth_afterKey hlast hnullable.1
      rw [if_neg hlast, List.exists_mem_cons_iff, truth_allTerms, List.forall_mem_append,
        List.forall_mem_singleton, hkey, hrest, and_assoc, ← and_or_left]

/-- If all keys have one direction and no null matters, rows sort after a position as they
compare with it as a whole. -/
theorem rowOrder?_iff_sortsAfter {row : Json} {direction : SortDirection} {keys : List OrderKey}
    {values : List Value} (hlength : values.length = keys.length)
    (hdirection : ∀ key ∈ keys, key.direction = direction)
    (hvalues : ∀ value ∈ values, ¬ value.isNull)
    (hnulls : direction = .desc → ∀ key ∈ keys, ¬ (sortValue row key.column).isNull) :
    (rowOrder? ((keys.map fun key => sortValue row key.column).zip values)).map
      (signAdmits (afterSign direction)) = some true ↔ SortsAfter row keys values := by
  induction keys generalizing values with
  | nil => cases direction <;> simp [rowOrder?, SortsAfter] <;> decide
  | cons key keys ih =>
    obtain _ | ⟨value, values⟩ := values
    · cases hlength
    rw [List.forall_mem_cons] at hdirection hvalues
    have hrest := ih (Nat.succ.inj hlength) hdirection.2 hvalues.2 fun h other hother =>
      hnulls h other (List.mem_cons_of_mem key hother)
    have hnull : direction = .desc → ¬ (sortValue row key.column).isNull := fun h =>
      hnulls h key List.mem_cons_self
    rw [SortsAfter, List.map_cons, List.zip_cons_cons, rowOrder?, hdirection.1]
    cases horder : (sortValue row key.column).compare? value with
    | none => cases direction <;> simp_all [Value.Comes, Value.Level]
    | some order =>
      cases order with
      | eq =>
        rw [hrest]
        cases direction <;> simp_all [Value.Comes, Value.Level]
      | _ =>
        simp only [Option.map_some, Option.some.injEq, signAdmits_afterSign]
        cases direction <;> simp_all [Value.Comes, Value.Level]

theorem rowDirection?_eq_some {p : Pagination} {values : List Value} {direction : SortDirection}
    (h : rowDirection? p values = some direction) :
    (∀ key ∈ p.order, key.direction = direction) ∧ (∀ value ∈ values, ¬ value.isNull) ∧
      (direction = .desc → ∀ key ∈ p.order, key.nullable = false) := by
  unfold rowDirection? at h
  cases huniform : p.uniformDirection? with
  | none => simp [huniform] at h
  | some uniform =>
    simp only [huniform, Option.ite_none_left_eq_some, Option.some.injEq, not_or, not_and,
      List.any_eq_true, not_exists] at h
    obtain ⟨⟨hnullable, hvalues⟩, rfl⟩ := h
    refine ⟨?_, fun value hvalue => by simpa using hvalues value hvalue,
      fun hdesc key hkey => by simpa using hnullable hdesc key hkey⟩
    unfold Pagination.uniformDirection? at huniform
    cases horder : p.order with
    | nil => simp
    | cons first rest =>
      rw [horder] at huniform
      simp only [Option.ite_none_right_eq_some, List.all_eq_true, decide_eq_true_eq,
        Option.some.injEq] at huniform
      obtain ⟨hall, rfl⟩ := huniform
      exact List.forall_mem_cons.2 ⟨rfl, hall⟩

/-- The condition of the rows after a position is true of exactly the rows that sort after it,
which are those that the order in memory puts after it. -/
theorem truth_keyset_iff_sortsAfter {p : Pagination} {values : List Value} {row : Json}
    (hposition : p.continuation = .after values) (hlength : values.length = p.order.length)
    (hread : ∀ key ∈ p.order, read (keyColumn key) = sortValue row key.column)
    (hnullable : ∀ key ∈ p.order, key.nullable = false → ¬ (sortValue row key.column).isNull)
    (hplaced : ∀ kv ∈ p.order.zip values, (sortValue row kv.1.column).Placed kv.2) :
    ∃ c, keyset p = some c ∧
      (truth rows read c = some true ↔ SortsAfter row p.order values) ∧
      (truth rows read c = some true ↔ compareToPosition row values p.order = .gt) := by
  have hselects :
      truth rows read (keysetAfter p values) = some true ↔ SortsAfter row p.order values := by
    unfold keysetAfter
    cases hrow : rowDirection? p values with
    | some direction =>
      obtain ⟨hdirection, hvalues, hdesc⟩ := rowDirection?_eq_some hrow
      have hcolumns : (p.order.map keyColumn).map read =
          p.order.map fun key => sortValue row key.column := by
        rw [List.map_map]
        exact List.map_congr_left hread
      simp only [truth, Atom.truth, hcolumns]
      exact rowOrder?_iff_sortsAfter hlength hdirection hvalues fun h key hkey =>
        hnullable key hkey (hdesc h key hkey)
    | none =>
      have hall : (∃ c ∈ alternatives [] p.order values, truth rows read c = some true) ↔ _ :=
        exists_alternatives_iff hlength hread hnullable
      simp only [List.not_mem_nil, false_implies, implies_true, true_and] at hall
      rw [← hall]
      cases halternatives : alternatives [] p.order values with
      | nil => simp [truth]
      | cons first rest => exact truth_chain_or
  refine ⟨keysetAfter p values, by rw [keyset, hposition], hselects, ?_⟩
  rw [hselects, sortsAfter_iff_compareToPosition hplaced]

/-! ## The order that is written -/

/-- An item of the ordering of a statement. -/
structure OrderItem where
  column : Column
  direction : SortDirection
  /-- Whether nulls come first or last; nothing is said of a column that holds none. -/
  nullsFirst? : Option Bool

namespace OrderItem

def text (item : OrderItem) : String :=
  item.column.text ++ " " ++ item.direction.keyword ++
    match item.nullsFirst? with
    | none => ""
    | some true => " NULLS FIRST"
    | some false => " NULLS LAST"

/-- One value comes after another in the order of the item. -/
def After (item : OrderItem) (a b : Value) : Prop :=
  a.compare? b = some (match item.direction with | .asc => .gt | .desc => .lt) ∨
    match item.nullsFirst? with
    | none => False
    | some true => ¬ a.isNull ∧ b.isNull
    | some false => a.isNull ∧ ¬ b.isNull

/-- Nulls are first ascending and last descending. -/
def ofKey (key : OrderKey) : OrderItem :=
  ⟨keyColumn key, key.direction,
    if key.nullable then some (decide (key.direction = .asc)) else none⟩

theorem orderText_eq_text (key : OrderKey) : Select.orderText key = (ofKey key).text := by
  rw [Select.orderText, text, ofKey]
  cases key.nullable <;> cases key.direction <;> rfl

/-- The written order of a key is the one in which rows sort after a position. -/
theorem after_ofKey_iff_comes {key : OrderKey} {a b : Value}
    (hnullable : key.nullable = false → ¬ a.isNull ∧ ¬ b.isNull) :
    (ofKey key).After a b ↔ a.Comes key.direction b := by
  rw [After, ofKey, Value.Comes.eq_def]
  cases hnull : key.nullable with
  | true => cases key.direction <;> exact or_comm
  | false =>
    obtain ⟨ha, hb⟩ := hnullable hnull
    cases key.direction <;> simp [ha, hb]

end OrderItem

/-- Books by shelf and then from the best rating down, after one that has
a rating but no shelf. -/
def bookPage : Pagination where
  backend := .relational
  order := [⟨"shelf", "shelf", .asc, true⟩, ⟨"rating", "rating", .desc, true⟩,
    ⟨"id", "id", .asc, false⟩]
  pageSize := 10
  continuation := .after [.null, .integer 4, .integer 7]

/-- What a row of the queried table holds. -/
def readRow (row : Json) : Reading := fun column => sortValue row column.name

/-- A book without a shelf and without a rating comes later: its rating is last. -/
theorem truth_keyset_bookPage :
    ∃ c, keyset bookPage = some c ∧
      truth (fun _ _ => []) (readRow (.object [("id", .int 3)])) c = some true := by
  have hplaced : ∀ kv ∈ bookPage.order.zip [Value.null, .integer 4, .integer 7],
      (sortValue (.object [("id", .int 3)]) kv.1.column).Placed kv.2 := by
    unfold Value.Placed
    decide
  have hread : ∀ key ∈ bookPage.order, readRow (.object [("id", .int 3)]) (keyColumn key) =
      sortValue (.object [("id", .int 3)]) key.column := fun _ _ => rfl
  obtain ⟨c, hc, -, hafter⟩ := truth_keyset_iff_sortsAfter rfl rfl hread (by decide) hplaced
  exact ⟨c, hc, hafter.2 (by decide)⟩

end Sql

end RoleQuery
