import RoleQuery.Paging.Basic

/-!
# The order of rows

Rows are ordered key by key. Nulls come before everything else, and a descending key reverses
the order. Values that do not compare are level with each other. Sorting inserts one row after
another behind the rows that it does not come before, so rows that are level keep their order.
-/
namespace RoleQuery

/-- The value of a row that an ordering looks at; what is no scalar counts as null. -/
def sortValue (row : Json) (column : String) : Value :=
  ((row.get? column).bind Value.ofJson?).getD .null

/-- The order of two values in a direction. -/
def compareValues (a b : Value) (direction : SortDirection) : Ordering :=
  let order := match a.isNull, b.isNull with
    | true, true => .eq
    | true, false => .lt
    | false, true => .gt
    | false, false => (a.compare? b).getD .eq
  match direction with
  | .asc => order
  | .desc => order.swap

/-- The order of two rows: that of the first key on which they differ. -/
def compareRows (a b : Json) : List OrderKey → Ordering
  | [] => .eq
  | key :: rest =>
    (compareValues (sortValue a key.column) (sortValue b key.column) key.direction).then
      (compareRows a b rest)

/-- The order of a row and a position, which holds a value for each key. -/
def compareToPosition (row : Json) : List Value → List OrderKey → Ordering
  | value :: values, key :: keys =>
    (compareValues (sortValue row key.column) value key.direction).then
      (compareToPosition row values keys)
  | _, _ => .eq

/-- Insert a row into rows that are kept last first, behind those that it
does not come before. -/
def insertRow (order : List OrderKey) (row : Json) : List Json → List Json
  | [] => [row]
  | last :: rest =>
    if compareRows row last order = .lt then last :: insertRow order row rest
    else row :: last :: rest

/-- Rows in order. -/
def sortRows (order : List OrderKey) (rows : List Json) : List Json :=
  (rows.foldl (fun sorted row => insertRow order row sorted) []).reverse

theorem insertRow_perm (order : List OrderKey) (row : Json) (rows : List Json) :
    (insertRow order row rows).Perm (row :: rows) := by
  induction rows with
  | nil => exact .refl _
  | cons last rest ih =>
    rw [insertRow]
    split
    · exact (ih.cons last).trans (.swap row last rest)
    · exact .refl _

theorem sortRows_perm (order : List OrderKey) (rows : List Json) :
    (sortRows order rows).Perm rows := by
  suffices h : ∀ sorted,
      (rows.foldl (fun sorted row => insertRow order row sorted) sorted).Perm (rows ++ sorted) by
    exact (List.reverse_perm _).trans (by simpa using h [])
  induction rows with
  | nil => exact fun sorted => .refl _
  | cons row rest ih =>
    intro sorted
    rw [List.foldl_cons]
    refine (ih _).trans (((insertRow_perm order row sorted).append_left rest).trans ?_)
    exact List.perm_middle

end RoleQuery
