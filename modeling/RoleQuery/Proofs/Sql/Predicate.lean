import RoleQuery.Proofs.Predicate.Written
import RoleQuery.Proofs.Sql.Condition
import RoleQuery.Proofs.Sql.Pattern
import RoleQuery.Tables.Basic

/-!
# What SQL conditions tell about predicates

A comparison in SQL tells its column and, up to patterns that match the same texts, its
operand. A sub-query tells the table and the columns by which its rows are related to the row
outside. Both are written in one way only.
-/
namespace RoleQuery.Sql

/-- What SQL makes of a comparison of a column. -/
inductive LeafForm (column : Column) : Comparison → Option Value → Atom → Prop
  | isNull : LeafForm column .isNull none (.isNull column)
  | like {c : Comparison} {x p : String} (hc : c ∈ textComparisons) (hp : p = pattern c (.text x)) :
      LeafForm column c (some (.text x)) (.like column p)
  | compare {c : Comparison} {v : Value} {sign : String} (hc : c ∈ valueComparisons)
      (hsign : sign = c.sign) : LeafForm column c (some v) (.compare column sign v)

/-- A comparison in SQL has one of the forms, and its column is the
one segment of its path. -/
theorem exists_leafForm {path : ColumnPath} {c : Comparison} {operand : Option Value} {a : Atom}
    (htakes : c.Takes operand) (h : ofLeaf path c operand = .ok a) :
    ∃ name, path.segments = [name] ∧ LeafForm ⟨tableName path.scope, name⟩ c operand a := by
  rw [ofLeaf] at h
  split at h
  · rename_i name hsegments
    refine ⟨name, hsegments, ?_⟩
    rcases htakes.cases with ⟨rfl, rfl⟩ | ⟨hc, s, rfl⟩ | ⟨hc, v, rfl⟩
    · cases h
      exact .isNull
    · cases c <;> first | exact absurd hc (by decide) | (cases h; exact .like hc rfl)
    · cases c <;> first | exact absurd hc (by decide) | (cases h; exact .compare hc rfl)
  · cases h

theorem LeafForm.regular {column : Column} {c : Comparison} {operand : Option Value} {a : Atom}
    (h : LeafForm column c operand a) (hcolumn : IsTable column.table) : a.Regular := by
  cases h with
  | isNull => exact hcolumn
  | like hc hp => exact hcolumn
  | compare hc hsign =>
    exact ⟨hcolumn, hsign ▸ List.mem_map_of_mem hc⟩

/-- A form tells its column. -/
theorem LeafForm.column_eq {column column' : Column} {c c' : Comparison}
    {operand operand' : Option Value} {a : Atom} (h : LeafForm column c operand a)
    (h' : LeafForm column' c' operand' a) : column = column' := by
  cases h <;> cases h' <;> rfl

/-- A form tells what its comparison says of a value. -/
theorem LeafForm.test_eq {column column' : Column} {c c' : Comparison}
    {operand operand' : Option Value} {a : Atom} (h : LeafForm column c operand a)
    (h' : LeafForm column' c' operand' a) (found : Option Json) :
    c.test found operand = c'.test found operand' := by
  cases h with
  | isNull =>
    cases h'
    rfl
  | @like c x p hc hp =>
    cases h' with
    | @like c' x' _ hc' hp' =>
      have hcompare : ∀ actual, c.compare? actual (.text x) = c'.compare? actual (.text x') := by
        intro actual
        rw [compare?_eq_matchesPattern hc, compare?_eq_matchesPattern hc', ← hp, ← hp']
      have hne : ∀ c ∈ textComparisons, c ≠ .isNull := by decide
      rw [Comparison.test.eq_def, Comparison.test.eq_def c', if_neg (hne c hc), if_neg (hne c' hc')]
      cases found.bind Value.ofJson? with
      | none => rfl
      | some actual =>
        simp only [hcompare]
        rfl
  | @compare c v sign hc hsign =>
    cases h' with
    | @compare c' _ _ hc' hsign' =>
      have hinj : ∀ c ∈ valueComparisons, ∀ c' ∈ valueComparisons, c.sign = c'.sign → c = c' := by
        decide
      rw [hinj c hc c' hc' (hsign.symm.trans hsign')]

theorem regular_ofTraversal {via : Traversal} {r : Related} (h : dialect.ofTraversal via = .ok r) :
    r.Regular := by
  obtain ⟨link, -, rfl⟩ := Except.map_eq_ok_iff.1 h
  exact ⟨isTable_aliasName via.binder,
    betweenTables_correlation (isTable_tableName via.parent) (isTable_aliasName via.binder)⟩

/-- The condition of a compiled predicate is a regular one. -/
theorem writes_dialect : dialect.Writes Atom.Regular Related.Regular where
  atom := by
    intro path c operand a htakes _ ha
    obtain ⟨name, -, hform⟩ := exists_leafForm htakes ha
    exact hform.regular (isTable_tableName path.scope)
  head := fun _ _ _ hr => regular_ofTraversal hr

/-- Paired columns are told by the pairs of their columns in tables. -/
theorem zip_eq_of_correlation_eq {source target source' target' : List String}
    {parent child parent' child' : String}
    (h : correlation source target parent child = correlation source' target' parent' child') :
    source.zip target = source'.zip target' := by
  rw [← map_names_correlation source target parent child, h, map_names_correlation]

/-- What is written in SQL tells what it means. Rows that are bound to any alias but zero
are told from the root. -/
theorem tells_dialect (t : Tables) : dialect.Tells t.resolver (· ≠ 0) where
  leaf := by
    intro path path' c c' operand operand' a htakes htakes' _ _ _ ha ha'
    obtain ⟨name, hsegments, hform⟩ := exists_leafForm htakes ha
    obtain ⟨name', hsegments', hform'⟩ := exists_leafForm htakes' ha'
    have hname : name = name' := congrArg Column.name (hform.column_eq hform')
    rw [hsegments, hsegments', hname]
    exact ⟨rfl, hform.test_eq hform'⟩
  scope := by
    intro path path' c c' operand operand' a b htakes htakes' ha ha' hroot hbound hb
    obtain ⟨name, -, hform⟩ := exists_leafForm htakes ha
    obtain ⟨name', -, hform'⟩ := exists_leafForm htakes' ha'
    have htable : tableName path.scope = tableName path'.scope :=
      congrArg Column.table (hform.column_eq hform')
    rw [hroot, hbound] at htable
    have hzero : aliasName 0 = aliasName b := htable
    exact hb (aliasName_injective hzero).symm
  traversal := by
    intro via via' r _ _ _ hr hr'
    obtain ⟨link, hlink, rfl⟩ := Except.map_eq_ok_iff.1 hr
    obtain ⟨link', hlink', hrelated⟩ := Except.map_eq_ok_iff.1 hr'
    have hlink := requireLink_eq_ok hlink
    have hlink' := requireLink_eq_ok hlink'
    have hobject : link'.object = link.object := congrArg Related.object hrelated
    have htable : aliasName via'.binder = aliasName via.binder := congrArg Related.table hrelated
    have hzip := zip_eq_of_correlation_eq (congrArg Related.on hrelated)
    refine ⟨(aliasName_injective htable).symm, fun row => ?_⟩
    rw [Traversal.rows, Traversal.rows, hlink, hlink']
    simp only [Tables.resolver, Tables.related, hobject, hzip]

end RoleQuery.Sql
