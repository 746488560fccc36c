import RoleQuery.Json.Parser

/-!
# Records in JSON

A record is written as an object, in which unknown members are ignored and no known member
may be repeated, or as a list of its first members in their declared order. Nothing is
converted on the way: an integer is no text, and `1.0` is no integer. Every reader answers
`none` to what it cannot read.
-/
namespace RoleQuery.Json.Raw

/-- A text. -/
def string? : Raw → Option String
  | .str s => some s
  | _ => none

/-- A truth value. -/
def bool? : Raw → Option Bool
  | .bool b => some b
  | _ => none

/-- A natural number below a limit. -/
def natBelow? (limit : Nat) : Raw → Option Nat
  | .int n => if 0 ≤ n ∧ n < limit then some n.toNat else none
  | _ => none

/-- An integer of sixty-four bits. -/
def int64? : Raw → Option Int64
  | .int n =>
    if -0x8000000000000000 ≤ n ∧ n < 0x8000000000000000 then some (Int64.ofInt n) else none
  | _ => none

/-- A list whose items can all be read. -/
def listOf? {α : Type} (read? : Raw → Option α) : Raw → Option (List α)
  | .list items => items.mapM read?
  | _ => none

/-- An object whose values can all be read. -/
def mapOf? {α : Type} (read? : Raw → Option α) : Raw → Option (List (String × α))
  | .object ms => ms.mapM fun m => (read? m.2).map fun value => (m.1, value)
  | _ => none

/-- One of several names, alone or as the only member of an object, with the value `null`. -/
def choice? {α : Type} (options : List (String × α)) : Raw → Option α
  | .str s => options.lookup s
  | .object [(s, .null)] => options.lookup s
  | _ => none

/-- The values given to the declared members of a record. -/
def record? (names : List String) : Raw → Option (List (Option Raw))
  | .list items =>
    if items.length ≤ names.length then
      some (items.map some ++ List.replicate (names.length - items.length) none)
    else none
  | .object ms =>
    names.mapM fun name =>
      match ms.filter (·.1 = name) with
      | [] => some none
      | [m] => some (some m.2)
      | _ => none
  | _ => none

/-- The member must be there. -/
def required? {α : Type} (read? : Raw → Option α) : Option Raw → Option α
  | some r => read? r
  | none => none

/-- The member may be missing or `null`. -/
def optional? {α : Type} (read? : Raw → Option α) : Option Raw → Option (Option α)
  | none | some .null => some none
  | some r => (read? r).map some

/-- The member may be missing, and stands for `default` then. -/
def withDefault? {α : Type} (read? : Raw → Option α) (default : α) : Option Raw → Option α
  | some r => read? r
  | none => some default

end RoleQuery.Json.Raw
