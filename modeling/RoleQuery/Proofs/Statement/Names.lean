import RoleQuery.Proofs.DocumentQuery.Paths
import RoleQuery.Proofs.Sql.Names

/-!
# Reading names back

What statements write of a name or a text is read back as it was: names and literals in quotes
up to the end of these, and paths of documents step by step. So a name cannot end its quotes
early, and other steps give another path.
-/
namespace RoleQuery

/-- **Names, literals and paths are read back as they were written.** What is read in quotes
is a name, or the inside of a literal, exactly if this was written in quotes and no other
quote follows. What is read as a step of a path is an identifier behind a point, or a name in
brackets and quotes, with what follows. A path is read as its steps before anything that is no
part of a path, and other steps give another path. -/
theorem names_read_back :
    (∀ (name : String) (text rest : List Char),
      Sql.readQuotation '"' text = some (name.toList, rest) ↔
        text = (Sql.quote name).toList ++ rest ∧ rest.head? ≠ some '"') ∧
    (∀ (s : String) (text rest : List Char),
      Sql.readQuotation '\'' text = some (s.toList, rest) ↔
        text = ("'" ++ Sql.escapeLiteral s ++ "'").toList ++ rest ∧ rest.head? ≠ some '\'') ∧
    (∀ text name rest : List Char, DocumentQuery.readStep? text = some (name, rest) ↔
      DocumentQuery.WritesStep name rest text) ∧
    (∀ (base : String) (segments : List String) (rest : List Char), DocumentQuery.EndsPath rest →
      DocumentQuery.readPath? base
        ((DocumentQuery.propertyPath base segments).toList ++ rest) = some (segments, rest)) ∧
    ∀ base : String, Function.Injective (DocumentQuery.propertyPath base) := by
  refine ⟨fun name text rest => ?_, fun s text rest => ?_,
    fun _ _ _ => DocumentQuery.readStep?_eq_some_iff, fun base segments rest hrest => ?_,
    DocumentQuery.propertyPath_injective⟩
  · rw [Sql.toList_quote]
    exact Sql.readQuotation_eq_some_iff
  · rw [Sql.toList_literal]
    exact Sql.readQuotation_eq_some_iff
  · exact DocumentQuery.readPath?_propertyPath base segments hrest

/-- A path whose names hold a space, nothing at all, and a quote, a
backslash and a bracket. -/
theorem names_read_back_awkward :
    DocumentQuery.EndsPath " ASC".toList ∧
      DocumentQuery.propertyPath "c" ["x", "a b", "", "q\"\\]"] =
        "c.x[\"a b\"][\"\"][\"q\\\"\\\\]\"]" ∧
      DocumentQuery.readPath? "c" "c.x[\"a b\"][\"\"][\"q\\\"\\\\]\"] ASC".toList =
        some (["x", "a b", "", "q\"\\]"], " ASC".toList) := by
  have hends : DocumentQuery.EndsPath " ASC".toList := by
    intro c hc
    obtain rfl : ' ' = c := Option.some.inj hc
    decide
  have htext : DocumentQuery.propertyPath "c" ["x", "a b", "", "q\"\\]"] =
      "c.x[\"a b\"][\"\"][\"q\\\"\\\\]\"]" := by decide
  have hread := names_read_back.2.2.2.1 "c" ["x", "a b", "", "q\"\\]"] " ASC".toList hends
  rw [htext, ← String.toList_append] at hread
  exact ⟨hends, htext, hread⟩

end RoleQuery
