import RoleQuery.DocumentQuery.Basic
import RoleQuery.Sql.Names
import Mathlib.Data.List.Nodup

/-!
# Backslashes in front of characters

A text is written with a backslash in front of each character of some kinds. This may be done
for one kind after another, over and over the whole text, as long as the backslash itself
comes first: a later one would find the backslashes that were put in before it. In this order
it is the same as going through the text once.
-/
namespace RoleQuery

namespace Text

/-- A character with a backslash in front of it if it is one of those given. -/
def marked (cs : List Char) (d : Char) : List Char := if d ∈ cs then ['\\', d] else [d]

/-- Put a backslash in front of a character wherever it stands. -/
def mark (c : Char) (s : List Char) : List Char := s.flatMap (marked [c])

/-- Put backslashes in front of several characters, one character after another. -/
def marks (cs : List Char) (s : List Char) : List Char := cs.foldl (fun s c => mark c s) s

variable {c : Char} {cs done : List Char}

/-- A character that is marked next leaves the backslashes alone that are there already. -/
theorem mark_flatMap_marked (hbackslash : c ≠ '\\') (hc : c ∉ done) (s : List Char) :
    mark c (s.flatMap (marked done)) = s.flatMap (marked (done ++ [c])) := by
  rw [mark, List.flatMap_assoc]
  congr 1
  funext d
  by_cases hd : d ∈ done
  · have hne : d ≠ c := fun h => hc (h ▸ hd)
    simp [marked, hd, hne, hbackslash.symm]
  · by_cases hdc : d = c <;> simp [marked, hd, hdc, hc]

/-- Marking goes on from what is marked. -/
theorem marks_flatMap_marked (hbackslash : '\\' ∉ cs) (hcs : (done ++ cs).Nodup) (s : List Char) :
    marks cs (s.flatMap (marked done)) = s.flatMap (marked (done ++ cs)) := by
  induction cs generalizing done with
  | nil => rw [List.append_nil, marks, List.foldl_nil]
  | cons c cs ih =>
    rw [List.mem_cons, not_or] at hbackslash
    have hc : c ∉ done := by
      intro h
      exact (List.nodup_append.1 hcs).2.2 c h c List.mem_cons_self rfl
    rw [marks, List.foldl_cons, mark_flatMap_marked (Ne.symm hbackslash.1) hc]
    rw [List.append_cons done c cs] at hcs ⊢
    exact ih hbackslash.2 hcs

/-- Characters that are marked in turn are marked once, if the backslash
is the first of them. -/
theorem marks_eq_flatMap (hbackslash : '\\' ∉ cs) (hcs : cs.Nodup) (s : List Char) :
    marks ('\\' :: cs) s = s.flatMap (marked ('\\' :: cs)) := by
  have hnodup : (['\\'] ++ cs).Nodup := List.nodup_cons.2 ⟨hbackslash, hcs⟩
  exact marks_flatMap_marked hbackslash hnodup s

/-- A backslash that comes last marks those of the other characters. -/
example : marks ['%', '\\'] ['%'] = ['\\', '\\', '%'] := by decide

end Text

/-- In a pattern, backslashes, percent signs and underscores are marked. -/
theorem Sql.toList_escapePattern (s : String) :
    (escapePattern s).toList = Text.marks ['\\', '%', '_'] s.toList := by
  rw [Text.marks_eq_flatMap (by decide) (by decide), escapePattern, String.toList_ofList]
  congr 1
  funext c
  simp [escapePatternChar, Text.marked]

/-- In a name in quotes, backslashes and quotes are marked. -/
theorem DocumentQuery.flatMap_escapeNameChar (name : List Char) :
    name.flatMap escapeNameChar = Text.marks ['\\', '"'] name := by
  rw [Text.marks_eq_flatMap (by decide) (by decide)]
  congr 1
  funext c
  simp [escapeNameChar, Text.marked, or_comm]

end RoleQuery
