import RoleQuery.Predicate.Evaluation

/-!
# Tables in memory

Tables hold documents in the order in which they were added. Two rows are related
through paired columns if both have every column of a pair, the value is not null,
and the values are equal.

## Main definitions

* `Tables`, with `Tables.rows`, `Tables.put`, `Tables.append`.
* `Tables.related`: the rows of a table that are related to a row.

## Main statements

* `Tables.rows_put_self`, `Tables.rows_put_of_ne`: writing a table changes
  its rows, and no others.
-/
namespace RoleQuery

/-- The rows of each table, at most one entry for a table. -/
structure Tables where
  entries : List (String × List Json)
  deriving Repr, Inhabited

namespace Tables

def empty : Tables := ⟨[]⟩

/-- The rows of a table; a table that was never written has none. -/
def rows (t : Tables) (object : String) : List Json := (t.entries.lookup object).getD []

/-- Replace the rows of a table among entries. -/
def putIn (object : String) (rows : List Json) :
    List (String × List Json) → List (String × List Json)
  | [] => [(object, rows)]
  | (name, old) :: rest =>
    if name = object then (name, rows) :: rest else (name, old) :: putIn object rows rest

/-- Replace the rows of a table. -/
def put (t : Tables) (object : String) (rows : List Json) : Tables :=
  ⟨putIn object rows t.entries⟩

/-- Add rows at the end of a table. -/
def append (t : Tables) (object : String) (rows : List Json) : Tables :=
  t.put object (t.rows object ++ rows)

@[simp] theorem rows_put_self (t : Tables) (object : String) (rs : List Json) :
    (t.put object rs).rows object = rs := by
  suffices h : ∀ es, (putIn object rs es).lookup object = some rs by simp [rows, put, h]
  intro es
  induction es with
  | nil => simp [putIn]
  | cons e rest ih =>
    obtain ⟨name, old⟩ := e
    by_cases h : name = object
    · simp [putIn, h]
    · have h' : (object == name) = false := by simp [Ne.symm h]
      simp [putIn, h, List.lookup_cons, h', ih]

theorem rows_put_of_ne (t : Tables) {object other : String} (rs : List Json)
    (hne : other ≠ object) : (t.put object rs).rows other = t.rows other := by
  suffices h : ∀ es, (putIn object rs es).lookup other = es.lookup other by simp [rows, put, h]
  have hne' : (other == object) = false := by simp [hne]
  intro es
  induction es with
  | nil => simp [putIn, List.lookup_cons, hne']
  | cons e rest ih =>
    obtain ⟨name, old⟩ := e
    by_cases h : name = object
    · subst h
      simp [putIn, List.lookup_cons, hne']
    · simp [putIn, h, List.lookup_cons, ih]

/-- Whether two rows are equal, and not null, in a pair of columns. -/
def paired (parent child : Json) (source target : String) : Bool :=
  match parent.get? source, child.get? target with
  | some a, some b => !a.isNull && a.same b
  | _, _ => false

/-- The rows of a table that are related to a row through paired columns. -/
def related (t : Tables) (object : String) (source target : List String) (parent : Json) :
    List Json :=
  (t.rows object).filter fun child =>
    (source.zip target).all fun (s, c) => paired parent child s c

/-- The rows that links lead to. -/
def resolver (t : Tables) : Resolver := fun link row =>
  t.related link.object link.sourceColumns link.targetColumns row

end Tables

end RoleQuery
