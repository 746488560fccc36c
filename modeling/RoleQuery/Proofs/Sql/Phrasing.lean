import RoleQuery.Proofs.Sql.Condition
import RoleQuery.Proofs.Statement.Meaning

/-!
# How SQL is read

A name in double quotes is one word, whatever is in it, and so are the name of an object,
whose parts are quoted one by one, and a column, which begins with its table. So a comparison
in SQL is a column, a sign and a parameter, with spaces between them. A sub-query takes the
rows of one object under the alias of a table, and its links are pairs of equal columns.
-/
namespace RoleQuery.Sql

open Token Expression

/-! ## Names -/

theorem wordlike_quote (name : String) : Wordlike false (quote name).toList := by
  have hdouble : ∀ c, Inside false '"' (double '"' c) := by
    intro c w rest
    by_cases hc : c = '"'
    · simp [double, hc, lex]
    · simp [double, hc, lex]
  rw [quote, String.toList_ofList]
  exact wordlike_quotation (.inl rfl) (inside_flatMap fun c _ => hdouble c)

theorem head?_quote (name : String) : (quote name).toList.head? = some '"' := by
  rw [quote, String.toList_ofList]
  rfl

/-- The name of an object is one word. -/
theorem ordinary_quoteObject (object : String) : Ordinary false (quoteObject object) := by
  have hparts : ∀ s ∈ (splitAtPoints object.toList).map fun part => quote (String.ofList part),
      Wordlike false s.toList := by
    intro s hs
    obtain ⟨part, -, rfl⟩ := List.mem_map.1 hs
    exact wordlike_quote _
  have hword : Wordlike false (quoteObject object).toList :=
    wordlike_intercalate (wordlike_of_plain (by decide)) hparts
  refine ordinary_of_head (c := '"') hword ?_ (by decide)
  obtain ⟨part, parts, hsplit⟩ := List.exists_cons_of_ne_nil (splitAtPoints_ne_nil object.toList)
  rw [quoteObject, hsplit]
  cases parts with
  | nil => exact head?_quote _
  | cons next parts =>
    rw [List.map_cons, List.map_cons, String.intercalate_cons_cons, String.toList_append,
      String.toList_append, List.append_assoc, List.head?_append, head?_quote]
    rfl

theorem ordinary_table {table : String} (h : IsTable table) : Ordinary false table := by
  obtain ⟨a, rfl⟩ := h
  exact ordinary_numbered (by decide) rfl (by decide) a.toNat

theorem head?_table {table : String} (h : IsTable table) : table.toList.head? = some 't' := by
  obtain ⟨a, rfl⟩ := h
  rw [aliasName, String.toList_append]
  rfl

theorem head?_column {c : Column} (h : IsTable c.table) : c.text.toList.head? = some 't' := by
  rw [Column.text, String.toList_append, String.toList_append, List.append_assoc, List.head?_append,
    head?_table h]
  rfl

/-- A column is one word. -/
theorem ordinary_column {c : Column} (h : IsTable c.table) : Ordinary false c.text := by
  refine ordinary_of_head ?_ (head?_column h) (by decide)
  rw [Column.text, String.toList_append, String.toList_append]
  exact ((ordinary_table h).wordlike.append (wordlike_of_plain (by decide))).append
    (wordlike_quote _)

/-- Words that begin with a column are a comparison. -/
theorem reads_column {c : Column} (h : IsTable c.table) {text : List Char} (w : String)
    (ws : List String) (htext : text = spaced (c.text :: w :: ws))
    (hws : ∀ s ∈ w :: ws, Ordinary false s) :
    Reads false text (.comparison (ofText false text)) := by
  rw [htext]
  refine reads_words (List.forall_mem_cons.2 ⟨ordinary_column h, hws⟩) fun hone => ?_
  have hhead := head?_column h
  rw [hone] at hhead
  exact absurd hhead (by decide)

/-! ## The dialect -/

/-- SQL writes the source of a sub-query as a table under an alias, and its
links as equal columns. -/
def phrasing : Phrasing Related where
  escapes := false
  source r := "SELECT 1 FROM " ++ quoteObject r.object ++ " AS " ++ r.table
  links r := r.on.map equalText

/-- A comparison of a column reads as such. -/
theorem reads_compare {column : Column} (h : IsTable column.table) {sign : String}
    (hsign : Ordinary false sign) (v : Value) (n : Nat) :
    Reads false (Piece.chars n (Atom.compare column sign v).pieces)
      (phrasing.comparison (Piece.chars n (Atom.compare column sign v).pieces)) := by
  refine reads_column h sign [Piece.parameterName n] ?_ ?_
  · simp [Piece.chars, Atom.pieces, Piece.render, spaced]
  · simp only [List.forall_mem_cons]
    exact ⟨hsign, ordinary_parameterName n, List.forall_mem_nil _⟩

theorem reads_like {column : Column} (h : IsTable column.table) (p : String) (n : Nat) :
    Reads false (Piece.chars n (Atom.like column p).pieces)
      (phrasing.comparison (Piece.chars n (Atom.like column p).pieces)) := by
  refine reads_column h "LIKE" [Piece.parameterName n, "ESCAPE", "'\\'"] ?_ ?_
  · simp [Piece.chars, Atom.pieces, Piece.render, spaced]
  · have hinside : Inside false '\'' ['\\'] := fun w rest => by simp [lex]
    have hescape : Ordinary false "'\\'" :=
      ⟨⟨wordlike_quotation (.inr rfl) hinside, by decide⟩, by decide⟩
    simp only [List.forall_mem_cons]
    exact ⟨ordinary_of_plain (by decide), ordinary_parameterName n, ordinary_of_plain (by decide),
      hescape, List.forall_mem_nil _⟩

theorem reads_isNull {column : Column} (h : IsTable column.table) (n : Nat) :
    Reads false (Piece.chars n (Atom.isNull column).pieces)
      (phrasing.comparison (Piece.chars n (Atom.isNull column).pieces)) := by
  refine reads_column h "IS" ["NULL"] ?_ ?_
  · simp [Piece.chars, Atom.pieces, Piece.render, spaced]
  · simp only [List.forall_mem_cons]
    exact ⟨ordinary_of_plain (by decide), ordinary_of_plain (by decide), List.forall_mem_nil _⟩

/-- A pair of equal columns reads as a comparison. -/
theorem reads_equalText {pair : Column × Column} (h : BetweenTables pair) :
    Reads false (equalText pair).toList (phrasing.comparison (equalText pair).toList) := by
  refine reads_column h.1 "=" [pair.2.text] ?_ ?_
  · simp [equalText, spaced]
  · simp only [List.forall_mem_cons]
    exact ⟨ordinary_of_plain (by decide), ordinary_column h.2, List.forall_mem_nil _⟩

theorem related_of_ofTraversal {via : Traversal} {r : Related}
    (h : dialect.ofTraversal via = .ok r) :
    ∃ link, via.link = some link ∧ r = related via link := by
  obtain ⟨link, hlink, rfl⟩ := Except.map_eq_ok_iff.1 h
  exact ⟨link, requireLink_eq_ok hlink, rfl⟩

/-- A separator between texts and after the last is one after each. -/
theorem intercalate_append_separator (separator : String) {ss : List String} (h : ss ≠ []) :
    separator.intercalate ss ++ separator = String.join (ss.map (· ++ separator)) := by
  induction ss with
  | nil => exact absurd rfl h
  | cons s ss ih =>
    cases ss with
    | nil => simp
    | cons next ss =>
      rw [String.intercalate_cons_cons, String.append_assoc, ih (by simp)]
      exact String.join_cons.symm

/-- SQL writes constants, comparisons and sub-queries so that they are read as such. -/
theorem phrased_dialect : dialect.Phrased phrasing where
  truth b := by
    have hwords : ∀ s ∈ ["1", "=", "0"], Ordinary false s := by
      simp only [List.forall_mem_cons]
      exact ⟨ordinary_of_plain (by decide), ordinary_of_plain (by decide),
        ordinary_of_plain (by decide), List.forall_mem_nil _⟩
    cases b with
    | true => exact reads_const "1" ["=", "1"] (fun s hs => hwords s (by simp at hs ⊢; tauto)) rfl
    | false => exact reads_const "1" ["=", "0"] hwords rfl
  atom := by
    intro path c operand a n ha
    simp only [dialect, ofLeaf] at ha
    split at ha
    · have htable : IsTable (tableName path.scope) := isTable_tableName path.scope
      split at ha <;> cases ha
      · exact reads_isNull htable n
      · exact reads_like htable _ n
      · exact reads_like htable _ n
      · exact reads_like htable _ n
      · exact reads_compare htable (ordinary_sign (by assumption)) _ n
    · cases ha
  head := by
    intro via r hvia hr
    obtain ⟨link, hlink, rfl⟩ := related_of_ofTraversal hr
    obtain ⟨hsource, htarget⟩ := hvia link hlink
    have hon : (related via link).on.map equalText ≠ [] := by
      simp [related, correlation, hsource, htarget]
    have hlinks := intercalate_append_separator " AND " hon
    have hliteral : "EXISTS (" ++ "SELECT 1 FROM " = "EXISTS (SELECT 1 FROM " := by decide
    simp only [phrasing, ← hlinks, ← String.append_assoc, hliteral]
    rfl
  source := by
    intro via r hr
    obtain ⟨link, hlink, rfl⟩ := related_of_ofTraversal hr
    have hwords :
        ∀ s ∈ ["SELECT", "1", "FROM", quoteObject link.object, "AS", aliasName via.binder],
        Ordinary false s := by
      simp only [List.forall_mem_cons]
      exact ⟨ordinary_of_plain (by decide), ordinary_of_plain (by decide),
        ordinary_of_plain (by decide), ordinary_quoteObject _, ordinary_of_plain (by decide),
        ordinary_table ⟨via.binder, rfl⟩, List.forall_mem_nil _⟩
    refine ⟨_, ?_, hwords⟩
    simp [phrasing, related, spaced]
  link := by
    intro via r hr link hlink
    obtain ⟨found, -, rfl⟩ := related_of_ofTraversal hr
    obtain ⟨pair, hpair, rfl⟩ := List.mem_map.1 hlink
    exact reads_equalText
      (betweenTables_correlation (isTable_tableName via.parent) (isTable_aliasName via.binder)
        pair hpair)

end RoleQuery.Sql
