import RoleQuery.Sql.Names
import RoleQuery.Proofs.Statement.Reading
import Mathlib.Data.List.Zip

/-!
# Reading names in SQL

A name or a literal in quotes can be read from the beginning of a text: up to the first quote
that does not stand twice. So no name can end its quotes early. The table of an alias is a
word, and a column is a table and a quoted name. Each of them can be told from the text in
front of anything that a statement goes on with.
-/
namespace RoleQuery.Sql

open Cell

/-- The text goes on with something other than a character. -/
abbrev Without (c : Char) : List Cell → Prop := Stops (· = c)

variable {n : Nat} {k l : List Cell}

/-! ## Quotations -/

/-- A text in quotes, with the quote itself written twice. -/
def quoted (q : Char) (cs : List Char) : List Char := q :: cs.flatMap (double q) ++ [q]

/-- The inside of a quotation, and what follows. A quote that stands twice is one quote, and
any other quote is the end. -/
def readInside (q : Char) : List Char → Option (List Char × List Char)
  | [] => none
  | [c] => if c = q then some ([], []) else none
  | c :: d :: rest =>
    if c ≠ q then (readInside q (d :: rest)).map fun (cs, rest) => (c :: cs, rest)
    else if d = q then (readInside q rest).map fun (cs, rest) => (q :: cs, rest)
    else some ([], d :: rest)

/-- What stands in quotes at the beginning of a text, and what follows. -/
def readQuotation (q : Char) : List Char → Option (List Char × List Char)
  | [] => none
  | c :: rest => if c = q then readInside q rest else none

section

variable {q : Char} {cs rest text : List Char}

theorem readInside_cons_of_ne {c : Char} (hc : c ≠ q) :
    readInside q (c :: text) = (readInside q text).map fun (cs, rest) => (c :: cs, rest) := by
  cases text <;> simp [readInside, hc]

theorem readInside_flatMap_double (hrest : rest.head? ≠ some q) :
    readInside q (cs.flatMap (double q) ++ q :: rest) = some (cs, rest) := by
  induction cs with
  | nil =>
    cases rest with
    | nil => simp [readInside]
    | cons d rest =>
      have hd : d ≠ q := by simpa using hrest
      simp [readInside, hd]
  | cons c cs ih =>
    rw [List.flatMap_cons, List.append_assoc]
    by_cases hc : c = q
    · simp [double, hc, readInside, ih]
    · rw [double, if_neg hc, List.singleton_append, readInside_cons_of_ne hc, ih]
      rfl

theorem eq_of_readInside (h : readInside q text = some (cs, rest)) :
    text = cs.flatMap (double q) ++ q :: rest ∧ rest.head? ≠ some q := by
  fun_induction readInside q text generalizing cs with
  | case1 => cases h
  | case2 =>
    cases h
    simp
  | case3 => cases h
  | case4 c d text hc ih =>
    obtain ⟨⟨cs, rest⟩, hread, heq⟩ := Option.map_eq_some_iff.1 h
    cases heq
    obtain ⟨htext, hrest⟩ := ih hread
    rw [htext]
    simp [double, hc, hrest]
  | case5 c text hc ih =>
    obtain ⟨⟨cs, rest⟩, hread, heq⟩ := Option.map_eq_some_iff.1 h
    cases heq
    obtain ⟨htext, hrest⟩ := ih hread
    rw [htext, not_not.1 hc]
    simp [double, hrest]
  | case6 c d text hc hd =>
    cases h
    rw [not_not.1 hc]
    exact ⟨rfl, by simpa using hd⟩

/-- What is read was written in quotes, and no other quote follows. -/
theorem readQuotation_eq_some_iff :
    readQuotation q text = some (cs, rest) ↔ text = quoted q cs ++ rest ∧ rest.head? ≠ some q := by
  constructor
  · intro h
    cases text with
    | nil => cases h
    | cons c text =>
      rw [readQuotation] at h
      split at h
      · rename_i hc
        obtain ⟨htext, hrest⟩ := eq_of_readInside h
        exact ⟨by simp [quoted, hc, htext], hrest⟩
      · cases h
  · rintro ⟨rfl, hrest⟩
    have hread := @readInside_flatMap_double q cs rest hrest
    simpa [quoted, readQuotation] using hread

end

theorem toList_quote (name : String) : (quote name).toList = quoted '"' name.toList := by
  rw [quote, String.toList_ofList, quoted]

theorem toList_literal (s : String) :
    ("'" ++ escapeLiteral s ++ "'").toList = quoted '\'' s.toList := by
  simp [escapeLiteral, quoted]

theorem legible_quoted (q : Char) :
    Legible (fun _ => True) (Without q) fun cs => ofChars (quoted q cs) :=
  legible_of_read fun _ _ _ hrest => readQuotation_eq_some_iff.2 ⟨rfl, fun hq => hrest q hq rfl⟩

/-- A quoted name is legible unless another double quote follows. -/
theorem legible_quote :
    Legible (fun _ => True) (Without '"') fun name => ofString (quote name) := by
  intro n a b k l _ _ hk hl h
  simp only [ofString, toList_quote] at h
  exact String.toList_inj.1 (legible_quoted '"' trivial trivial hk hl h)

/-- A literal is legible unless another single quote follows. -/
theorem legible_literal :
    Legible (fun _ => True) (Without '\'') fun s => ofString ("'" ++ escapeLiteral s ++ "'") := by
  intro n a b k l _ _ hk hl h
  simp only [ofString, toList_literal] at h
  exact String.toList_inj.1 (legible_quoted '\'' trivial trivial hk hl h)

/-! ## Tables and columns -/

/-- A name that statements give to a table. -/
def IsTable (table : String) : Prop := ∃ a, table = aliasName a

theorem isTable_rootName : IsTable rootName := ⟨0, rfl⟩

theorem isTable_aliasName (a : Alias) : IsTable (aliasName a) := ⟨a, rfl⟩

theorem isTable_tableName (scope : Scope) : IsTable (tableName scope) := by
  cases scope with
  | root => exact isTable_rootName
  | bound a => exact isTable_aliasName a

theorem ofString_aliasName (a : Alias) :
    ofString (aliasName a) = .char 't' :: ofChars (Nat.toDigits 10 a.toNat) := by
  simp [aliasName, ofString, Nat.toList_repr]

/-- A table is legible before anything but a digit. -/
theorem legible_table :
    Legible IsTable (Stops fun c => c.isDigit) fun table => ofString table := by
  rintro n _ _ k l ⟨a, rfl⟩ ⟨b, rfl⟩ hk hl h
  simp only [ofString_aliasName, List.cons_append, alike_char_char, true_and] at h
  rw [eq_of_alike_digits hk hl h]

theorem aliasName_injective : Function.Injective aliasName := by
  intro a b h
  have hcells := congrArg ofString h
  rw [ofString_aliasName, ofString_aliasName, List.cons.injEq] at hcells
  have hnil : Stops (fun c => c.isDigit) [] := by simp [Stops, text]
  refine eq_of_alike_digits (n := 0) hnil hnil ?_
  rw [hcells.2]
  exact ⟨rfl, rfl⟩

/-- A column is legible unless another double quote follows. -/
theorem legible_column :
    Legible (fun c : Column => IsTable c.table) (Without '"') fun c => ofString c.text := by
  rintro n ⟨table, name⟩ ⟨table', name'⟩ k l ha hb hk hl h
  simp only [Column.text, ofString_append, List.append_assoc] at h
  have hpoint : ∀ x, Stops (fun c => c.isDigit) (ofString "." ++ x) := by simp [ofString]
  obtain ⟨rfl, m, hrest⟩ := legible_table.read ha hb (hpoint _) (hpoint _) h
  rw [alike_ofString_append] at hrest
  rw [legible_quote trivial trivial hk hl hrest]

/-- A column begins like a table. -/
theorem exists_ofString_column {c : Column} (hc : IsTable c.table) :
    ∃ x, ofString c.text = .char 't' :: x := by
  obtain ⟨a, ha⟩ := hc
  rw [Column.text, ha, ofString_append, ofString_append, ofString_aliasName]
  exact ⟨_, rfl⟩

/-! ## Objects -/

theorem splitAtPoints_ne_nil (cs : List Char) : splitAtPoints cs ≠ [] := by
  induction cs with
  | nil => simp [splitAtPoints]
  | cons c rest ih =>
    rw [splitAtPoints]
    split
    · simp
    · split <;> simp

/-- The parts of a name, with points between them, are the name. -/
theorem intercalate_splitAtPoints (cs : List Char) :
    (['.'] : List Char).intercalate (splitAtPoints cs) = cs := by
  induction cs with
  | nil => rfl
  | cons c rest ih =>
    rw [splitAtPoints]
    split
    · rename_i hnil
      exact absurd hnil (splitAtPoints_ne_nil rest)
    · rename_i part parts hparts
      rw [hparts] at ih
      split
      · rename_i hc
        rw [← ih, hc]
        simp [List.intercalate]
      · rw [← ih]
        cases parts <;> simp [List.intercalate]

/-- The name of an object is legible unless another double quote or a point follows. -/
theorem legible_quoteObject :
    Legible (fun _ => True) (Stops fun c => c = '"' ∨ c = '.')
      fun object => ofString (quoteObject object) := by
  intro n a b k l _ _ hk hl h
  have hobject : ∀ object, ofString (quoteObject object) = separated "."
      (fun part => ofString (quote (String.ofList part))) (splitAtPoints object.toList) :=
    fun object => ofString_intercalate "." (fun part => quote (String.ofList part)) _
  have hpart : Legible (fun _ => True) (Without '"')
      fun part => ofString (quote (String.ofList part)) := by
    intro n a b k l _ _ hk hl h
    exact String.ofList_inj.1 (legible_quote trivial trivial hk hl h)
  have hends : ∀ {j : List Cell}, (Stops fun c => c = '"' ∨ c = '.') j →
      Ends (fun _ => True) (Without '"') (fun part => ofString (quote (String.ofList part))) j := by
    intro j hj
    refine ⟨fun n c hc => fun h => hj n c hc (.inl h), fun n part x _ => ?_⟩
    rw [ofString, toList_quote]
    exact hj.not_alike_char (.inl rfl)
  have hends' : ∀ {j : List Cell}, (Stops fun c => c = '"' ∨ c = '.') j →
      Ends (fun _ => True) (Without '"')
        (fun part => ofString "." ++ ofString (quote (String.ofList part))) j := by
    intro j hj
    exact ⟨fun n c hc => fun h => hj n c hc (.inl h),
      fun n part x _ => hj.not_alike_char (.inr rfl)⟩
  simp only [hobject] at h
  have hparts := hpart.separated (fun x => by simp [ofString]) (fun _ _ => trivial)
    (fun _ _ => trivial) (hends hk) (hends hl) (hends' hk) (hends' hl) h
  rw [← String.toList_inj, ← intercalate_splitAtPoints a.toList, hparts,
    intercalate_splitAtPoints]

/-! ## Correlations -/

/-- Both columns are columns of tables that statements name. -/
def BetweenTables (pair : Column × Column) : Prop := IsTable pair.1.table ∧ IsTable pair.2.table

theorem betweenTables_correlation {source target : List String} {parent child : String}
    (hparent : IsTable parent) (hchild : IsTable child) :
    ∀ pair ∈ correlation source target parent child, BetweenTables pair := by
  intro pair hpair
  obtain ⟨columns, -, rfl⟩ := List.mem_map.1 hpair
  exact ⟨hchild, hparent⟩

/-- Pairs of columns in tables tell the pairs of their names. -/
theorem map_names_correlation (source target : List String) (parent child : String) :
    (correlation source target parent child).map (fun pair => (pair.2.name, pair.1.name)) =
      source.zip target := by
  rw [correlation, List.map_map, ← List.zip_swap target source]
  rfl

def equalText (pair : Column × Column) : String := pair.1.text ++ " = " ++ pair.2.text

theorem legible_equal :
    Legible BetweenTables (Without '"') fun pair => ofString (equalText pair) := by
  intro n pair pair' k l ha hb hk hl h
  simp only [equalText, ofString_append, List.append_assoc] at h
  have hsign : ∀ x, Without '"' (ofString " = " ++ x) := by simp [ofString]
  obtain ⟨hchild, m, hrest⟩ := legible_column.read ha.1 hb.1 (hsign _) (hsign _) h
  rw [alike_ofString_append] at hrest
  exact Prod.ext hchild (legible_column ha.2 hb.2 hk hl hrest)

/-- A continuation that cannot be taken for another pair of columns. -/
structure EndsPairs (k : List Cell) : Prop where
  first : Ends BetweenTables (Without '"') (fun pair => ofString (equalText pair)) k
  next : Ends BetweenTables (Without '"')
    (fun pair => ofString " AND " ++ ofString (equalText pair)) k

/-- A pair of equal columns begins like a table. -/
theorem exists_ofString_equalText {pair : Column × Column} (h : BetweenTables pair) :
    ∃ x, ofString (equalText pair) = .char 't' :: x := by
  obtain ⟨x, hx⟩ := exists_ofString_column h.1
  rw [equalText, ofString_append, ofString_append, hx]
  exact ⟨_, rfl⟩

theorem endsPairs_of_first (hk : Without '"' k)
    (ht : ∀ n x, ¬ Alike n k (.char 't' :: x))
    (hand : ∀ n x, ¬ Alike n k (ofString " AND " ++ x)) : EndsPairs k where
  first := ⟨hk, fun n pair x hpair h => by
    obtain ⟨z, hz⟩ := exists_ofString_equalText hpair
    rw [hz] at h
    exact ht n _ h⟩
  next := ⟨hk, fun n pair x _ h => by
    rw [List.append_assoc] at h
    exact hand n _ h⟩

theorem ofString_correlationText (pairs : List (Column × Column)) :
    ofString (correlationText pairs) =
      separated " AND " (fun pair => ofString (equalText pair)) pairs := by
  rw [correlationText, ← ofString_intercalate]
  rfl

/-- A table with its alias and the pairs that relate its rows are legible. -/
theorem read_source {object object' table table' word : String} {on on' : List (Column × Column)}
    (hword : ∀ x, Stops (fun c => c.isDigit) (ofString word ++ x)) (htable : IsTable table)
    (htable' : IsTable table') (hon : ∀ pair ∈ on, BetweenTables pair)
    (hon' : ∀ pair ∈ on', BetweenTables pair) (hk : EndsPairs k) (hl : EndsPairs l)
    (h : Alike n
      (ofString (quoteObject object ++ " AS " ++ table ++ word ++ correlationText on) ++ k)
      (ofString (quoteObject object' ++ " AS " ++ table' ++ word ++ correlationText on') ++ l)) :
    object = object' ∧ table = table' ∧ on = on' ∧ ∃ m, Alike m k l := by
  simp only [ofString_append, ofString_correlationText, List.append_assoc] at h
  have hspace : ∀ z, Stops (fun c => c = '"' ∨ c = '.') (ofString " AS " ++ z) := by
    simp [ofString]
  obtain ⟨rfl, m, h⟩ := legible_quoteObject.read trivial trivial (hspace _) (hspace _) h
  rw [alike_ofString_append] at h
  obtain ⟨rfl, m, h⟩ := legible_table.read htable htable' (hword _) (hword _) h
  rw [alike_ofString_append] at h
  obtain rfl := legible_equal.separated (fun z => by simp [ofString]) hon hon' hk.first hl.first
    hk.next hl.next h
  exact ⟨rfl, rfl, rfl, h.append_left⟩

end RoleQuery.Sql
