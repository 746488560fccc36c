import RoleQuery.Json.Parser
import RoleQuery.Json.Printer

/-!
# Texts that nest too deep

A value can be nested deeper than its text may be: the text without spaces is then
one that nobody can read back. What stops the reader is the first list or object
inside `Raw.maxDepth` others.
-/
namespace RoleQuery.Json

mutual

/-- How many bytes of the text stand before the first list or object inside `room` others. -/
def bytesBeforeDeep? (room : Nat) : Json → Option Nat
  | .list items =>
    match room with
    | 0 => some 0
    | room + 1 => (bytesBeforeDeepItem? room items).map (1 + ·)
  | .object ms =>
    match room with
    | 0 => some 0
    | room + 1 => (bytesBeforeDeepMember? room ms).map (1 + ·)
  | _ => none
termination_by structural j => j

/-- The same in items that are separated by commas. -/
def bytesBeforeDeepItem? (room : Nat) : List Json → Option Nat
  | [] => none
  | j :: rest =>
    match bytesBeforeDeep? room j with
    | some n => some n
    | none => (bytesBeforeDeepItem? room rest).map (j.compact.utf8ByteSize + 1 + ·)
termination_by structural js => js

/-- The same in members that are separated by commas, each with its name
and a colon before it. -/
def bytesBeforeDeepMember? (room : Nat) : List (String × Json) → Option Nat
  | [] => none
  | (name, j) :: rest =>
    match bytesBeforeDeep? room j with
    | some n => some ((quoted name).utf8ByteSize + 1 + n)
    | none =>
      (bytesBeforeDeepMember? room rest).map
        ((quoted name).utf8ByteSize + 1 + j.compact.utf8ByteSize + 1 + ·)
termination_by structural ms => ms

end

/-- The column, in bytes and counted from one, at which the text without
spaces nests too deep. -/
def tooDeepAt? (j : Json) : Option Nat := (bytesBeforeDeep? Raw.maxDepth j).map (· + 1)

end RoleQuery.Json
