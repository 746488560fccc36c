import RoleQuery.Proofs.DocumentQuery.Condition
import RoleQuery.Proofs.Statement.Meaning

/-!
# How queries of documents are read

A path is one word: a name without quotes is made of letters and digits, and a name in quotes
goes on up to the first quote without a backslash. So a comparison of documents is a path, a
sign and a parameter, or a function of a path. A sub-query takes the elements of one list, and
nothing links these to the document but the path of the list.
-/
namespace RoleQuery.DocumentQuery

open Token Expression

/-! ## Paths -/

theorem plain_of_continuesIdentifier {c : Char} (h : continuesIdentifier c) : plain c := by
  rw [continuesIdentifier, Bool.or_eq_true] at h
  rcases h with hstarts | hdigit
  · simp only [plain, Bool.and_eq_true, bne_iff_ne, ne_eq]
    refine ⟨⟨⟨⟨?_, ?_⟩, ?_⟩, ?_⟩, ?_⟩ <;> rintro rfl <;> exact absurd hstarts (by decide)
  · exact plain_of_isDigit hdigit

theorem inside_escapeNameChar (c : Char) : Inside true '"' (escapeNameChar c) := by
  intro w rest
  by_cases hc : c = '"' ∨ c = '\\'
  · simp [escapeNameChar, hc, lex]
  · rw [escapeNameChar, if_neg hc]
    rw [not_or] at hc
    simp [lex, hc]

theorem wordlike_segmentText (name : String) : Wordlike true (segmentText name).toList := by
  rw [segmentText]
  split
  · rename_i hname
    rw [String.toList_append]
    exact (wordlike_of_plain (by decide)).append
      (wordlike_of_plain (List.all_eq_true.2 fun c hc =>
        plain_of_continuesIdentifier (continuesIdentifier_of_isIdentifier hname c hc)))
  · have hopening : Wordlike true "[".toList := wordlike_of_plain (by decide)
    have hclosing : Wordlike true "]".toList := wordlike_of_plain (by decide)
    have hquoted : Wordlike true
        (String.ofList ('"' :: name.toList.flatMap escapeNameChar ++ ['"'])).toList := by
      rw [String.toList_ofList]
      exact wordlike_quotation (.inl rfl) (inside_flatMap fun c _ => inside_escapeNameChar c)
    rw [String.toList_append, String.toList_append]
    exact (hopening.append hquoted).append hclosing

theorem ordinary_aliasName (a : Alias) : Ordinary true (aliasName a) :=
  ordinary_numbered (by decide) rfl (by decide) a.toNat

theorem wordlike_path {path : String} (h : IsPath path) : Wordlike true path.toList := by
  obtain ⟨scope, segments, rfl⟩ := h
  have hscope : Wordlike true (scopeName scope).toList := by
    cases scope with
    | root => exact wordlike_of_plain (by decide)
    | bound a => exact (ordinary_aliasName a).wordlike
  rw [propertyPath, String.toList_append]
  refine hscope.append (wordlike_join fun s hs => ?_)
  obtain ⟨name, -, rfl⟩ := List.mem_map.1 hs
  exact wordlike_segmentText name

theorem head?_aliasName (a : Alias) : (aliasName a).toList.head? = some 't' := by
  rw [aliasName, String.toList_append]
  rfl

theorem head?_path {path : String} (h : IsPath path) :
    path.toList.head? = some 'c' ∨ path.toList.head? = some 't' := by
  obtain ⟨scope, segments, rfl⟩ := h
  rw [propertyPath, String.toList_append]
  cases scope with
  | root => exact .inl rfl
  | bound a =>
    refine .inr ?_
    rw [scopeName, List.head?_append, head?_aliasName]
    rfl

/-- A path is one word. -/
theorem ordinary_path {path : String} (h : IsPath path) : Ordinary true path := by
  rcases head?_path h with hhead | hhead
  · exact ordinary_of_head (wordlike_path h) hhead (by decide)
  · exact ordinary_of_head (wordlike_path h) hhead (by decide)

/-- So is a path before a comma. -/
theorem ordinary_path_comma {path : String} (h : IsPath path) : Ordinary true (path ++ ",") := by
  have hword : Wordlike true (path ++ ",").toList := by
    rw [String.toList_append]
    exact (wordlike_path h).append (wordlike_of_plain (by decide))
  have hhead : ∀ c, path.toList.head? = some c → (path ++ ",").toList.head? = some c := by
    intro c hc
    rw [String.toList_append, List.head?_append, hc]
    rfl
  rcases head?_path h with hc | hc
  · exact ordinary_of_head hword (hhead _ hc) (by decide)
  · exact ordinary_of_head hword (hhead _ hc) (by decide)

/-! ## The dialect -/

/-- Queries of documents write the source of a sub-query as a name for
the elements of a list. -/
def phrasing : Phrasing Elements where
  escapes := true
  source e := "SELECT VALUE 1 FROM " ++ e.name ++ " IN " ++ e.list
  links _ := []

/-- A comparison of the value at a path reads as such. -/
theorem reads_compare {path : String} (h : IsPath path) {sign : String} (hsign : Ordinary true sign)
    (v : Value) (n : Nat) :
    Reads true (Piece.chars n (Atom.compare path sign v).pieces)
      (phrasing.comparison (Piece.chars n (Atom.compare path sign v).pieces)) := by
  have htext : Piece.chars n (Atom.compare path sign v).pieces =
      spaced [path, sign, Piece.parameterName n] := by
    simp [Piece.chars, Atom.pieces, Piece.render, spaced]
  have hone : path ≠ "1" := by
    rintro rfl
    rcases head?_path h with hhead | hhead <;> exact absurd hhead (by decide)
  rw [htext]
  refine reads_words ?_ hone
  simp only [List.forall_mem_cons]
  exact ⟨ordinary_path h, hsign, ordinary_parameterName n, List.forall_mem_nil _⟩

theorem reads_function {path : String} (h : IsPath path) {function : String}
    (hfunction : Ordinary true function) (hone : function ≠ "1") (v : Value) (n : Nat) :
    Reads true (Piece.chars n (Atom.call function path v).pieces)
      (phrasing.comparison (Piece.chars n (Atom.call function path v).pieces)) := by
  refine reads_call [path ++ ",", Piece.parameterName n] hfunction hone ?_ ?_
  · simp only [List.forall_mem_cons]
    exact ⟨ordinary_path_comma h, ordinary_parameterName n, List.forall_mem_nil _⟩
  · simp [Piece.chars, Atom.pieces, Piece.render, spaced]

theorem reads_isNull {path : String} (h : IsPath path) (n : Nat) :
    Reads true (Piece.chars n (Atom.isNull path).pieces)
      (phrasing.comparison (Piece.chars n (Atom.isNull path).pieces)) := by
  refine reads_call (w := "IS_NULL") [path] (ordinary_of_plain (by decide)) (by decide) ?_ ?_
  · simpa using ordinary_path h
  · simp [Piece.chars, Atom.pieces, Piece.render, spaced]

/-- Queries of documents write constants, comparisons and sub-queries so that
they are read as such. -/
theorem phrased_dialect : dialect.Phrased phrasing where
  truth b := by
    cases b with
    | true => exact reads_const "true" [] (by simpa using ordinary_of_plain (by decide)) rfl
    | false => exact reads_const "false" [] (by simpa using ordinary_of_plain (by decide)) rfl
  atom := by
    intro path c operand a n ha
    have hpath : IsPath (propertyPath (scopeName path.scope) path.segments) := ⟨_, _, rfl⟩
    simp only [dialect, ofLeaf] at ha
    split at ha <;> cases ha
    · exact reads_isNull hpath n
    · exact reads_function hpath (ordinary_sign (by decide)) (by decide) _ n
    · exact reads_function hpath (ordinary_sign (by decide)) (by decide) _ n
    · exact reads_function hpath (ordinary_sign (by decide)) (by decide) _ n
    · exact reads_compare hpath (ordinary_sign (by assumption)) _ n
  head := by
    intro via e _ he
    have hliteral : "EXISTS (" ++ "SELECT VALUE 1 FROM " = "EXISTS (SELECT VALUE 1 FROM " := by
      decide
    simp only [phrasing, List.map_nil, ← String.append_assoc, hliteral]
    exact (String.append_empty).symm
  source := by
    intro via e he
    obtain ⟨-, rfl⟩ := elementsOf_eq_ok he
    refine ⟨["SELECT", "VALUE", "1", "FROM", aliasName via.binder, "IN",
      propertyPath (scopeName via.parent) via.path], ?_, ?_⟩
    · simp [phrasing, spaced]
    · simp only [List.forall_mem_cons]
      exact ⟨ordinary_of_plain (by decide), ordinary_of_plain (by decide),
        ordinary_of_plain (by decide), ordinary_of_plain (by decide), ordinary_aliasName _,
        ordinary_of_plain (by decide), ordinary_path ⟨_, _, rfl⟩, List.forall_mem_nil _⟩
  link := by
    rintro via e - link ⟨⟩

end RoleQuery.DocumentQuery
