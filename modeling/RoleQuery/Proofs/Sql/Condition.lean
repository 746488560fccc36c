import RoleQuery.Proofs.Predicate.Scoping
import RoleQuery.Proofs.Sql.Names
import RoleQuery.Proofs.Statement.Condition
import RoleQuery.Sql.Condition

/-!
# Reading conditions in SQL

A comparison begins with its column, and a word tells which comparison it is. Only the
comparison of several columns at once begins with a parenthesis, as a list of terms does; it
has a comma where any term has a space. The correlation of a sub-query is followed by a
condition, which is told from a further pair of equal columns by its operand.
-/
namespace RoleQuery.Sql

open Cell

variable {n : Nat} {k l x y : List Cell}

/-! ## Comparisons -/

/-- A comparison that is written in one way only. A comparison of one column is not
written as one of several. -/
def Atom.Regular : Atom → Prop
  | .compare column sign _ => IsTable column.table ∧ sign ∈ signs
  | .like column _ | .isNull column | .isNotNull column => IsTable column.table
  | .compareRow columns sign operands =>
    (∀ c ∈ columns, IsTable c.table) ∧ 2 ≤ columns.length ∧ operands.length = columns.length ∧
      sign ∈ signs

/-- A column and the word behind it are legible. -/
theorem read_column_word {c c' : Column} {word word' : String} (hc : IsTable c.table)
    (hc' : IsTable c'.table) (hword : ' ' ∉ word.toList) (hword' : ' ' ∉ word'.toList)
    (h : Alike n (ofString (c.text ++ " " ++ word ++ " ") ++ x)
      (ofString (c'.text ++ " " ++ word' ++ " ") ++ y)) :
    c = c' ∧ word = word' ∧ ∃ m, Alike m x y := by
  simp only [ofString_append, List.append_assoc] at h
  have hspace : ∀ z, Without '"' (ofString " " ++ z) := by simp [ofString]
  obtain ⟨rfl, m, hrest⟩ := legible_column.read hc hc' (hspace _) (hspace _) h
  rw [alike_ofString_append] at hrest
  refine ⟨rfl, read_word hword hword' (n := m) ?_⟩
  simpa only [ofString_append, List.append_assoc] using hrest

/-- The columns of a comparison of several are legible before their end. -/
theorem read_columns {cs cs' : List Column} (hcs : ∀ c ∈ cs, IsTable c.table)
    (hcs' : ∀ c ∈ cs', IsTable c.table)
    (h : Alike n (separated ", " (fun c : Column => ofString c.text) cs ++ (ofString ") " ++ x))
      (separated ", " (fun c : Column => ofString c.text) cs' ++ (ofString ") " ++ y))) :
    cs = cs' ∧ ∃ m, Alike m x y := by
  have hends : ∀ z, Ends (fun c : Column => IsTable c.table) (Without '"')
      (fun c => ofString c.text) (ofString ") " ++ z) := by
    intro z
    refine ⟨by simp [ofString], fun n c w hc halike => ?_⟩
    obtain ⟨rest, hrest⟩ := exists_ofString_column hc
    rw [hrest] at halike
    simp [ofString] at halike
  have hends' : ∀ z, Ends (fun c : Column => IsTable c.table) (Without '"')
      (fun c => ofString ", " ++ ofString c.text) (ofString ") " ++ z) := by
    intro z
    refine ⟨by simp [ofString], fun n c w hc halike => ?_⟩
    simp [ofString] at halike
  obtain rfl := legible_column.separated (fun z => by simp [ofString]) hcs hcs' (hends x) (hends y)
    (hends' x) (hends' y) h
  obtain ⟨m, hrest⟩ := h.append_left
  exact ⟨rfl, m, alike_ofString_append.1 hrest⟩

/-- The holes of a comparison of several columns are legible before their end. -/
theorem read_holes {vs vs' : List Value}
    (h : Alike n (separated ", " (fun v => [.hole v]) vs ++ (ofString ")" ++ x))
      (separated ", " (fun v => [.hole v]) vs' ++ (ofString ")" ++ y))) : vs = vs' := by
  have hhole : Legible (fun _ : Value => True) (fun _ => True) fun v => [.hole v] := by
    intro n v w k l _ _ _ _ halike
    exact (alike_hole_hole.1 halike).1
  have hends : ∀ z, Ends (fun _ : Value => True) (fun _ => True) (fun v => [.hole v])
      (ofString ")" ++ z) := by
    intro z
    refine ⟨trivial, fun n v w _ halike => ?_⟩
    simp [ofString] at halike
  have hends' : ∀ z, Ends (fun _ : Value => True) (fun _ => True)
      (fun v => ofString ", " ++ [.hole v]) (ofString ")" ++ z) := by
    intro z
    refine ⟨trivial, fun n v w _ halike => ?_⟩
    simp [ofString] at halike
  exact hhole.separated (fun _ => trivial) (fun _ _ => trivial) (fun _ _ => trivial) (hends x)
    (hends y) (hends' x) (hends' y) h

/-- The cells of a comparison of several columns. -/
theorem cells_compareRow {columns : List Column} {sign : String} {operands : List Value}
    (h : 2 ≤ columns.length) :
    Piece.cells (Atom.compareRow columns sign operands).pieces =
      ofString "(" ++ (separated ", " (fun c : Column => ofString c.text) columns ++
        (ofString ") " ++ (ofString (sign ++ " ") ++ (ofString "(" ++
          (separated ", " (fun v => [.hole v]) operands ++ ofString ")"))))) := by
  have hpieces : (Atom.compareRow columns sign operands).pieces =
      .text ("(" ++ ", ".intercalate (columns.map Column.text) ++ ") " ++ sign ++ " (") ::
        Piece.intercalate ", " (operands.map fun v => [.operand v]) ++ [.text ")"] := by
    match columns, h with
    | _ :: _ :: _, _ => rfl
  rw [hpieces, List.cons_append, Piece.cells, Piece.cells_append, Piece.cells_intercalate,
    separated_map]
  simp only [ofString_append, ofString_intercalate ", " Column.text columns, Piece.cells,
    List.append_assoc, List.append_nil]
  simp [ofString]

def Atom.column? : Atom → Option Column
  | .compare column _ _ | .like column _ | .isNull column | .isNotNull column => some column
  | .compareRow _ _ _ => none

/-- The word behind the column of a comparison. -/
def Atom.word : Atom → String
  | .compare _ sign _ => sign
  | .like _ _ => "LIKE"
  | .isNull _ | .isNotNull _ => "IS"
  | .compareRow _ _ _ => ""

/-- What stands behind the word of a comparison. -/
def Atom.rest : Atom → List Cell
  | .compare _ _ v => [.hole v]
  | .like _ pattern => .hole (.text pattern) :: ofString " ESCAPE '\\'"
  | .isNull _ => ofString "NULL"
  | .isNotNull _ => ofString "NOT NULL"
  | .compareRow _ _ _ => []

theorem cells_of_column? {a : Atom} {column : Column} (h : a.column? = some column) :
    Piece.cells a.pieces = ofString (column.text ++ " " ++ a.word ++ " ") ++ a.rest := by
  cases a with
  | compareRow columns sign operands => cases h
  | _ =>
    simp only [Atom.column?, Option.some.injEq] at h
    simp [Atom.pieces, Atom.word, Atom.rest, Piece.cells, ofString, h]

theorem Atom.Regular.isTable {a : Atom} {column : Column} (ha : a.Regular)
    (h : a.column? = some column) : IsTable column.table := by
  cases a with
  | compare c sign v => exact Option.some.inj h ▸ ha.1
  | like c pattern => exact Option.some.inj h ▸ ha
  | isNull c => exact Option.some.inj h ▸ ha
  | isNotNull c => exact Option.some.inj h ▸ ha
  | compareRow columns sign operands => cases h

theorem Atom.Regular.not_mem_word {a : Atom} (ha : a.Regular) : ' ' ∉ a.word.toList := by
  cases a with
  | compare c sign v => exact not_mem_of_mem_signs ha.2
  | like c pattern => simp [Atom.word]
  | isNull c => simp [Atom.word]
  | isNotNull c => simp [Atom.word]
  | compareRow columns sign operands => simp [Atom.word]

/-- Comparisons of one column are told by the word behind it and what follows. -/
theorem eq_of_word {a b : Atom} {column : Column} (ha : a.Regular) (hb : b.Regular)
    (hcolumn : a.column? = some column) (hcolumn' : b.column? = some column)
    (hword : a.word = b.word) (h : Alike n (a.rest ++ k) (b.rest ++ l)) : a = b := by
  have hlike : "LIKE" ∉ signs := by decide
  have his : "IS" ∉ signs := by decide
  -- a sign is neither of the two words, and `IS` is followed by one of two texts
  cases a <;> cases b <;> simp only [Atom.column?, Atom.word, Atom.rest, Option.some.injEq,
    reduceCtorEq] at hcolumn hcolumn' hword h
  all_goals subst hcolumn hcolumn'
  case compare.compare c sign v sign' v' =>
    obtain rfl := hword
    rw [(alike_hole_hole.1 h).1]
  case compare.like => exact absurd (hword ▸ ha.2) hlike
  case compare.isNull => exact absurd (hword ▸ ha.2) his
  case compare.isNotNull => exact absurd (hword ▸ ha.2) his
  case like.compare => exact absurd (hword ▸ hb.2) hlike
  case like.like =>
    have hpattern := (alike_hole_hole.1 h).1
    rw [Value.text.inj hpattern]
  case isNull.compare => exact absurd (hword ▸ hb.2) his
  case isNotNull.compare => exact absurd (hword ▸ hb.2) his
  all_goals simp [ofString] at hword h ⊢

/-- A comparison of one column begins with a table. -/
theorem exists_cells_of_column? {a : Atom} {column : Column} (ha : a.Regular)
    (h : a.column? = some column) : ∃ z, Piece.cells a.pieces = .char 't' :: z := by
  obtain ⟨z, hz⟩ := exists_ofString_column (ha.isTable h)
  rw [cells_of_column? h, String.append_assoc, String.append_assoc, ofString_append, hz]
  exact ⟨_, rfl⟩

/-- A comparison of several columns begins with a parenthesis and a table. -/
theorem exists_cells_compareRow {a : Atom} (ha : a.Regular) (h : a.column? = none) :
    ∃ z, Piece.cells a.pieces = .char '(' :: .char 't' :: z := by
  cases a with
  | compareRow columns sign operands =>
    obtain ⟨hcolumns, hlength, -⟩ := ha
    rw [cells_compareRow hlength]
    cases columns with
    | nil => cases hlength
    | cons c rest =>
      obtain ⟨z, hz⟩ := exists_ofString_column (hcolumns c List.mem_cons_self)
      rw [separated, hz]
      exact ⟨_, rfl⟩
  | compare c sign v => cases h
  | like c pattern => cases h
  | isNull c => cases h
  | isNotNull c => cases h

/-- Comparisons are legible. -/
theorem legible_atom :
    Legible Atom.Regular (fun _ => True) fun a => Piece.cells a.pieces := by
  intro n a b k l ha hb _ _ h
  cases hcolumn : a.column? with
  | some column =>
    cases hcolumn' : b.column? with
    | some column' =>
      simp only [cells_of_column? hcolumn, cells_of_column? hcolumn', List.append_assoc] at h
      obtain ⟨rfl, hword, m, hrest⟩ := read_column_word (ha.isTable hcolumn) (hb.isTable hcolumn')
        ha.not_mem_word hb.not_mem_word h
      exact eq_of_word ha hb hcolumn hcolumn' hword hrest
    | none =>
      obtain ⟨z, hz⟩ := exists_cells_of_column? ha hcolumn
      obtain ⟨z', hz'⟩ := exists_cells_compareRow hb hcolumn'
      simp [hz, hz'] at h
  | none =>
    cases hcolumn' : b.column? with
    | some column' =>
      obtain ⟨z, hz⟩ := exists_cells_compareRow ha hcolumn
      obtain ⟨z', hz'⟩ := exists_cells_of_column? hb hcolumn'
      simp [hz, hz'] at h
    | none =>
      cases a with
      | compareRow columns sign operands =>
        cases b with
        | compareRow columns' sign' operands' =>
          simp only [cells_compareRow ha.2.1, cells_compareRow hb.2.1, List.append_assoc,
            alike_ofString_append] at h
          obtain ⟨rfl, m, hsign⟩ := read_columns ha.1 hb.1 h
          obtain ⟨rfl, m', hoperands⟩ := read_word (not_mem_of_mem_signs ha.2.2.2)
            (not_mem_of_mem_signs hb.2.2.2) hsign
          rw [alike_ofString_append] at hoperands
          rw [read_holes hoperands]
        | compare c' sign' v' => cases hcolumn'
        | like c' pattern' => cases hcolumn'
        | isNull c' => cases hcolumn'
        | isNotNull c' => cases hcolumn'
      | compare c sign v => cases hcolumn
      | like c pattern => cases hcolumn
      | isNull c => cases hcolumn
      | isNotNull c => cases hcolumn

/-! ## Sub-queries -/

theorem requireLink_eq_ok {via : Traversal} {link : Link} (h : requireLink via = .ok link) :
    via.link = some link := by
  rw [requireLink] at h
  cases hlink : via.link with
  | none =>
    rw [hlink] at h
    cases h
  | some other =>
    rw [hlink] at h
    cases h
    rfl

/-- A sub-query whose tables are tables that statements name. -/
def Related.Regular (r : Related) : Prop := IsTable r.table ∧ ∀ pair ∈ r.on, BetweenTables pair

theorem Related.eq_of_parts {r r' : Related} (hobject : r.object = r'.object)
    (htable : r.table = r'.table) (hon : r.on = r'.on) : r = r' := by
  cases r
  cases r'
  cases hobject
  cases htable
  cases hon
  rfl

/-- A condition of regular comparisons and sub-queries. -/
abbrev Regular (c : Condition) : Prop :=
  RoleQuery.Condition.Regular Atom.Regular Related.Regular c

theorem ofString_head (r : Related) :
    ofString (dialect.head r) = ofString "EXISTS (SELECT 1 FROM " ++
      (ofString (quoteObject r.object ++ " AS " ++ r.table ++ " WHERE " ++ correlationText r.on) ++
        ofString " AND ") := by
  have hhead : dialect.head r = "EXISTS (SELECT 1 FROM " ++ quoteObject r.object ++ " AS " ++
      r.table ++ " WHERE " ++ correlationText r.on ++ " AND " := rfl
  simp only [hhead, ofString_append, List.append_assoc]

/-- What begins with a column is a comparison of that column. -/
theorem exists_atom_of_alike_column {c : Condition} {column : Column} (hc : Regular c)
    (hcolumn : IsTable column.table) (hx : Without '"' x)
    (h : Alike n (Piece.cells (c.pieces dialect) ++ k) (ofString column.text ++ x)) :
    ∃ (a : Atom) (m : Nat), a.Regular ∧ a.column?.isSome ∧
      Alike m (ofString " " ++ (ofString (a.word ++ " ") ++ (a.rest ++ k))) x := by
  obtain ⟨z, hz⟩ := exists_ofString_column hcolumn
  cases c with
  | const b =>
    rw [RoleQuery.Condition.cells_const, hz] at h
    cases b <;> simp [dialect, ofString] at h
  | atom a =>
    rw [RoleQuery.Condition.cells_atom] at h
    cases hcolumn' : a.column? with
    | none =>
      obtain ⟨z', hz'⟩ := exists_cells_compareRow hc hcolumn'
      have hcells : Piece.cells (dialect.atom a) = _ := hz'
      simp [hcells, hz] at h
    | some column' =>
      have hcells : Piece.cells (dialect.atom a) = _ := cells_of_column? hcolumn'
      simp only [hcells, ofString_append, List.append_assoc] at h
      have hspace : ∀ z, Without '"' (ofString " " ++ z) := by simp [ofString]
      obtain ⟨-, m, hrest⟩ :=
        legible_column.read (Atom.Regular.isTable hc hcolumn') hcolumn (hspace _) hx h
      refine ⟨a, m, hc, by rw [hcolumn']; rfl, ?_⟩
      simpa only [ofString_append, List.append_assoc] using hrest
  | chain connective terms =>
    cases terms with
    | nil => exact (hc.1 rfl).elim
    | cons t rest =>
      rw [RoleQuery.Condition.cells_chain, hz] at h
      simp [ofString] at h
  | not inner => exact hc.elim
  | notParen inner =>
    rw [RoleQuery.Condition.cells_notParen, hz] at h
    simp [ofString] at h
  | subquery r inner =>
    rw [RoleQuery.Condition.cells_subquery, ofString_head, hz] at h
    simp [ofString] at h

/-- No condition begins like a pair of equal columns: it has an operand where
the pair has a table. -/
theorem not_alike_equal {c : Condition} {pair : Column × Column} (hc : Regular c)
    (hpair : BetweenTables pair) :
    ¬ Alike n (Piece.cells (c.pieces dialect) ++ k) (ofString (equalText pair) ++ x) := by
  intro h
  obtain ⟨z, hz⟩ := exists_ofString_column hpair.2
  rw [equalText, ofString_append, ofString_append, List.append_assoc, List.append_assoc] at h
  obtain ⟨a, m, ha, hcolumn, hrest⟩ :=
    exists_atom_of_alike_column hc hpair.1 (by simp [ofString]) h
  have hsign : Alike m (ofString " " ++ (ofString (a.word ++ " ") ++ (a.rest ++ k)))
      (ofString " " ++ (ofString ("=" ++ " ") ++ (ofString pair.2.text ++ x))) := by
    simpa [ofString] using hrest
  rw [alike_ofString_append] at hsign
  obtain ⟨hword, m', hrest'⟩ := read_word ha.not_mem_word (by simp) hsign
  cases a with
  | compare column sign v => simp [Atom.rest, hz] at hrest'
  | like column pattern => simp [Atom.word] at hword
  | isNull column => simp [Atom.word] at hword
  | isNotNull column => simp [Atom.word] at hword
  | compareRow columns sign operands => simp [Atom.column?] at hcolumn

/-- What follows the pairs of a sub-query is no further pair. -/
theorem endsPairs_condition {c : Condition} (hc : Regular c) :
    EndsPairs (ofString " AND " ++ (Piece.cells (c.pieces dialect) ++ k)) where
  first := by
    refine ⟨by simp [ofString], fun n pair w hpair h => ?_⟩
    obtain ⟨z, hz⟩ := exists_ofString_equalText hpair
    rw [hz] at h
    simp [ofString] at h
  next := by
    refine ⟨by simp [ofString], fun n pair w hpair h => ?_⟩
    rw [List.append_assoc, alike_ofString_append] at h
    exact not_alike_equal hc hpair h

/-- Sub-queries are legible before a condition. -/
theorem legible_head {r r' : Related} {c c' : Condition} (hr : r.Regular) (hr' : r'.Regular)
    (hc : Regular c) (hc' : Regular c')
    (h : Alike n (ofString (dialect.head r) ++ (Piece.cells (c.pieces dialect) ++ k))
      (ofString (dialect.head r') ++ (Piece.cells (c'.pieces dialect) ++ l))) : r = r' := by
  rw [ofString_head, ofString_head, List.append_assoc, List.append_assoc, List.append_assoc,
    List.append_assoc, alike_ofString_append] at h
  obtain ⟨hobject, htable, hon, -⟩ := read_source (by simp [ofString]) hr.1 hr'.1 hr.2 hr'.2
    (endsPairs_condition hc) (endsPairs_condition hc') h
  exact Related.eq_of_parts hobject htable hon

/-- A comparison begins with a table, with or without a parenthesis before it. -/
theorem exists_cells_atom {a : Atom} (ha : a.Regular) :
    ∃ z, Piece.cells (dialect.atom a) = .char 't' :: z ∨
      Piece.cells (dialect.atom a) = .char '(' :: .char 't' :: z := by
  cases hcolumn : a.column? with
  | some column =>
    obtain ⟨z, hz⟩ := exists_cells_of_column? ha hcolumn
    exact ⟨z, .inl hz⟩
  | none =>
    obtain ⟨z, hz⟩ := exists_cells_compareRow ha hcolumn
    exact ⟨z, .inr hz⟩

/-- A comparison of several columns is no list of terms: no term has a
comma behind its column. -/
theorem not_alike_paren {a : Atom} {c : Condition} (ha : a.Regular) (hc : Regular c) :
    ¬ Alike n (Piece.cells (dialect.atom a) ++ k)
      (ofString "(" ++ (Piece.cells (c.pieces dialect) ++ l)) := by
  intro h
  cases hcolumn : a.column? with
  | some column =>
    obtain ⟨z, hz⟩ := exists_cells_of_column? ha hcolumn
    have hcells : Piece.cells (dialect.atom a) = _ := hz
    rw [hcells] at h
    simp [ofString] at h
  | none =>
    cases a with
    | compareRow columns sign operands =>
      obtain ⟨hcolumns, hlength, -⟩ := ha
      have hcells : Piece.cells (dialect.atom (.compareRow columns sign operands)) = _ :=
        cells_compareRow hlength
      rcases columns with _ | ⟨c₀, _ | ⟨c₁, rest⟩⟩
      · simp at hlength
      · simp at hlength
      · simp only [hcells, separated, List.flatMap_cons, List.append_assoc,
          alike_ofString_append] at h
        obtain ⟨b, m, -, -, hrest⟩ := exists_atom_of_alike_column hc
          (hcolumns c₀ List.mem_cons_self) (by simp [ofString]) h.symm
        simp [ofString] at hrest
    | compare column sign v => cases hcolumn
    | like column pattern => cases hcolumn
    | isNull column => cases hcolumn
    | isNotNull column => cases hcolumn

/-- Comparisons and sub-queries in SQL can be told apart. -/
theorem legible_dialect : dialect.Legible Atom.Regular Related.Regular where
  truth := by
    intro n b b' k l _ _ _ _ h
    cases b <;> cases b' <;> simp [dialect, ofString] at h ⊢
  atom := legible_atom
  head := fun _ _ _ _ _ _ _ hr hr' hc hc' h => legible_head hr hr' hc hc' h
  truth_atom := by
    intro n b a k l ha h
    obtain ⟨z, hz | hz⟩ := exists_cells_atom ha <;> rw [hz] at h <;> cases b <;>
      simp [dialect, ofString] at h
  truth_head := by
    intro n b r k l _ h
    rw [ofString_head] at h
    cases b <;> simp [dialect, ofString] at h
  truth_paren := by
    intro n b k l h
    cases b <;> simp [dialect, ofString] at h
  truth_not := by
    intro n b k l h
    cases b <;> simp [dialect, ofString] at h
  atom_head := by
    intro n a r k l ha _ h
    rw [ofString_head] at h
    obtain ⟨z, hz | hz⟩ := exists_cells_atom ha <;> rw [hz] at h <;> simp [ofString] at h
  atom_paren := fun _ _ _ _ _ ha hc => not_alike_paren ha hc
  atom_not := by
    intro n a k l ha h
    obtain ⟨z, hz | hz⟩ := exists_cells_atom ha <;> rw [hz] at h <;> simp [ofString] at h
  head_paren := by
    intro n r k l _ h
    rw [ofString_head] at h
    simp [ofString] at h
  head_not := by
    intro n r k l _ h
    rw [ofString_head] at h
    simp [ofString] at h

/-! ## The rows after a position -/

theorem afterSign_mem_signs (direction : SortDirection) : afterSign direction ∈ signs := by
  cases direction <;> decide

theorem isTable_keyColumn (key : OrderKey) : IsTable (keyColumn key).table := isTable_rootName

theorem regular_afterKey {column : Column} (hcolumn : IsTable column.table) (key : OrderKey)
    (value : Value) : Regular (afterKey column key value) := by
  have hcompare : Regular (.atom (.compare column (afterSign key.direction) value)) :=
    ⟨hcolumn, afterSign_mem_signs key.direction⟩
  rw [afterKey]
  split
  · exact hcolumn
  · split
    · exact ⟨by simp, fun _ => rfl, hcompare, hcolumn, trivial⟩
    · exact hcompare

theorem regular_atKey {column : Column} (hcolumn : IsTable column.table) (value : Value) :
    Regular (atKey column value) := by
  rw [atKey]
  split
  · exact hcolumn
  · exact ⟨hcolumn, by decide⟩

theorem regular_allTerms {terms : List Condition} (hne : terms ≠ [])
    (hterms : ∀ c ∈ terms, Regular c) : Regular (allTerms terms) := by
  match terms, hne, hterms with
  | [c], _, hterms => exact hterms c List.mem_cons_self
  | c :: c' :: rest, _, hterms =>
    exact ⟨by simp, by simp, RoleQuery.Condition.regularAll_iff.2 hterms⟩

theorem regular_alternatives {level : List Condition} (hlevel : ∀ c ∈ level, Regular c)
    (keys : List OrderKey) (values : List Value) :
    ∀ c ∈ alternatives level keys values, Regular c := by
  induction keys generalizing level values with
  | nil =>
    intro c hc
    rw [alternatives] at hc
    cases hc
  | cons key keys ih =>
    have hat := regular_atKey (isTable_keyColumn key) (values.headD .null)
    have hnext : ∀ c ∈ level ++ [atKey (keyColumn key) (values.headD .null)], Regular c := by
      intro c hc
      rcases List.mem_append.1 hc with hc | hc
      · exact hlevel c hc
      · rw [List.mem_singleton.1 hc]
        exact hat
    intro c hc
    rw [alternatives] at hc
    split at hc
    · exact ih hnext values.tail c hc
    · rcases List.mem_cons.1 hc with rfl | hc
      · refine regular_allTerms (by simp) fun c hc => ?_
        rcases List.mem_append.1 hc with hc | hc
        · exact hlevel c hc
        · rw [List.mem_singleton.1 hc]
          exact regular_afterKey (isTable_keyColumn key) key _
      · exact ih hnext values.tail c hc

/-- The rows after a position are selected by a regular condition, if the position has a value
for each key. A single key is compared as one column. -/
theorem exists_regular_keysetAfter (p : Pagination) {values : List Value}
    (h : values.length = p.order.length) :
    ∃ c : Condition, Regular c ∧ c.pieces dialect = (keysetAfter p values).pieces dialect := by
  rw [keysetAfter]
  cases hrow : rowDirection? p values with
  | some direction =>
    match horder : p.order, values, h with
    | [], [], _ => simp [rowDirection?, Pagination.uniformDirection?, horder] at hrow
    | [key], [v], _ =>
      exact ⟨.atom (.compare (keyColumn key) (afterSign direction) v),
        ⟨isTable_keyColumn key, afterSign_mem_signs direction⟩, rfl⟩
    | key :: key' :: rest, v :: v' :: vs, h =>
      refine ⟨.atom (.compareRow ((key :: key' :: rest).map keyColumn) (afterSign direction)
        (v :: v' :: vs)), ⟨?_, by simp, by simpa using h, afterSign_mem_signs direction⟩, rfl⟩
      intro c hc
      obtain ⟨key, -, rfl⟩ := List.mem_map.1 hc
      exact isTable_keyColumn key
  | none =>
    have hall : ∀ c ∈ alternatives [] p.order values, Regular c :=
      regular_alternatives (by simp) p.order values
    refine ⟨_, ?_, rfl⟩
    simp only
    split
    · trivial
    · rename_i hne
      exact ⟨hne, fun _ => rfl, RoleQuery.Condition.regularAll_iff.2 hall⟩

end RoleQuery.Sql
