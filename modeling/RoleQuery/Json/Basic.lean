import RoleQuery.Binary64.Basic

/-!
# JSON values

Objects keep the order in which their members were written. A member is found by its name, and
inserting a name that is already there replaces the value and keeps its place. Integers and
floating-point numbers are different values: `1` is not `1.0`.
-/
namespace RoleQuery

/-- A JSON value. -/
inductive Json where
  | null
  | bool (b : Bool)
  /-- A number written without a point and without an exponent. -/
  | int (n : Int)
  | float (x : Binary64)
  | str (s : String)
  | list (items : List Json)
  | object (members : List (String × Json))
  deriving Repr, Inhabited

/-- The members of an object, in order. -/
abbrev Members := List (String × Json)

namespace Members

/-- The value of the member called `name`. -/
def get? : Members → String → Option Json
  | [], _ => none
  | (key, value) :: rest, name => if key = name then some value else get? rest name

/-- Give the member called `name` a value; a new member goes to the end. -/
def insert : Members → String → Json → Members
  | [], name, value => [(name, value)]
  | (key, old) :: rest, name, value =>
    if key = name then (key, value) :: rest else (key, old) :: insert rest name value

/-- The names in order. -/
def names (ms : Members) : List String := ms.map (·.1)

@[simp] theorem get?_insert_self (ms : Members) (name : String) (value : Json) :
    (ms.insert name value).get? name = some value := by
  induction ms with
  | nil => simp [insert, get?]
  | cons m rest ih =>
    obtain ⟨key, old⟩ := m
    by_cases h : key = name <;> simp [insert, get?, h, ih]

theorem get?_insert_of_ne (ms : Members) {name other : String} (value : Json) (h : name ≠ other) :
    (ms.insert name value).get? other = ms.get? other := by
  induction ms with
  | nil => simp [insert, get?, h]
  | cons m rest ih =>
    obtain ⟨key, old⟩ := m
    by_cases hk : key = name
    · subst hk; simp [insert, get?, h]
    · simp [insert, get?, hk, ih]

/-- Insert pairs one after another. -/
def ofList (pairs : List (String × Json)) : Members :=
  pairs.foldl (fun ms pair => ms.insert pair.1 pair.2) []

end Members

namespace Json

/-- The member of an object called `name`; nothing else has members. -/
def get? : Json → String → Option Json
  | .object ms, name => Members.get? ms name
  | _, _ => none

/-- The value at the end of a path of member names. -/
def at? : Json → List String → Option Json
  | j, [] => some j
  | j, name :: path => (j.get? name).bind (·.at? path)

def isNull : Json → Bool
  | .null => true
  | _ => false

mutual

/-- Equality of values: numbers of one kind by value, objects whatever
the order of members. -/
def same : Json → Json → Bool
  | .null, .null => true
  | .bool a, .bool b => a == b
  | .int a, .int b => a == b
  | .float a, .float b => a.same b
  | .str a, .str b => a == b
  | .list as, .list bs => sameItems as bs
  | .object as, .object bs => as.length == bs.length && sameMembers as bs
  | _, _ => false
termination_by structural a => a

def sameItems : List Json → List Json → Bool
  | [], [] => true
  | a :: as, b :: bs => same a b && sameItems as bs
  | _, _ => false
termination_by structural as => as

/-- Every member of the first object is in the second, with an equal value. -/
def sameMembers : List (String × Json) → Members → Bool
  | [], _ => true
  | (name, value) :: rest, bs =>
    (match bs.get? name with
      | some other => same value other
      | none => false) && sameMembers rest bs
termination_by structural as => as

end

/-- An optional text, `null` when absent. -/
def ofText? : Option String → Json
  | some s => .str s
  | none => .null

def ofTexts (texts : List String) : Json := .list (texts.map .str)

end Json

end RoleQuery
