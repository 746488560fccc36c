import RoleQuery.Proofs.Service.WritePolicies
import RoleQuery.Proofs.Sql.Aliases
import RoleQuery.Proofs.Sql.Phrasing
import RoleQuery.Proofs.Statement.Meaning

/-!
# The row of a guarded insert

An insert under a policy selects the new row from a derived table of one row, which defines
the written columns by their parameters and the other columns that the policy reads as null.
Which these are is found out apart from the condition, by a recursion of its own. The
condition is closed over the derived row: what it reads of a table that none of its
sub-queries binds is a column of that row, and the row defines each of its columns once.
-/
namespace RoleQuery

namespace Piece

/-! ## The texts of pieces -/

/-- The texts of several lists of pieces, of which the first operand has the number `n`. -/
def texts (n : Nat) : List (List Piece) → List String
  | [] => []
  | ps :: rest => String.join (render n ps) :: texts (n + count ps) rest

/-- Pieces with a separator between them are texts with a separator between them, and have the
operands that they have without it. -/
theorem intercalate_spec (separator : String) (n : Nat) (pss : List (List Piece)) :
    String.join (render n (intercalate separator pss)) = separator.intercalate (texts n pss) ∧
      parameters n (intercalate separator pss) = parameters n pss.flatten ∧
      count (intercalate separator pss) = count pss.flatten := by
  induction pss generalizing n with
  | nil => exact ⟨rfl, rfl, rfl⟩
  | cons ps rest ih =>
    cases rest with
    | nil => simp [intercalate, texts]
    | cons qs rest =>
      obtain ⟨htext, hparameters, hcount⟩ := ih (n + count ps)
      have hpieces : intercalate separator (ps :: qs :: rest) =
          ps ++ .text separator :: intercalate separator (qs :: rest) := rfl
      rw [hpieces]
      refine ⟨?_, ?_, ?_⟩
      · rw [render_append, render, String.join_append, String.join_cons, htext,
          ← String.append_assoc]
        exact (String.intercalate_cons_cons ..).symm
      · rw [parameters_append, parameters, hparameters, ← parameters_append]
        rfl
      · rw [count_append, count, hcount, ← count_append]
        rfl

end Piece

namespace Predicate

/-! ## The collected columns -/

mutual

theorem nodup_collectRootColumns {names : List String} (h : names.Nodup) :
    (p : Predicate) → (collectRootColumns names p).Nodup
  | .const _ => h
  | .leaf path _ _ => by
    rw [collectRootColumns]
    split_ifs
    · exact nodup_addNew h _
    · exact h
  | .and terms | .or terms => nodup_collectRootColumnsAll h terms
  | .not inner => nodup_collectRootColumns h inner
  | .traverse _ via inner => by
    rw [collectRootColumns]
    split_ifs
    · exact nodup_collectRootColumns (nodup_addNew h _) inner
    · exact nodup_collectRootColumns h inner
termination_by structural p => p

theorem nodup_collectRootColumnsAll {names : List String} (h : names.Nodup) :
    (ps : List Predicate) → (collectRootColumnsAll names ps).Nodup
  | [] => h
  | p :: rest => nodup_collectRootColumnsAll (nodup_collectRootColumns h p) rest
termination_by structural ps => ps

end

/-- Each column of the root is collected once. -/
theorem nodup_rootColumns (p : Predicate) : p.rootColumns.Nodup :=
  nodup_collectRootColumns List.nodup_nil p

mutual

/-- What has been collected stays. -/
theorem subset_collectRootColumns {names : List String} :
    (p : Predicate) → names ⊆ collectRootColumns names p
  | .const _ => List.Subset.refl _
  | .leaf path _ _ => by
    rw [collectRootColumns]
    split_ifs
    · exact fun _ hname => mem_addNew.2 (.inl hname)
    · exact List.Subset.refl _
  | .and terms | .or terms => subset_collectRootColumnsAll terms
  | .not inner => subset_collectRootColumns inner
  | .traverse _ via inner => by
    rw [collectRootColumns]
    split_ifs
    · exact fun _ hname => subset_collectRootColumns inner (mem_addNew.2 (.inl hname))
    · exact subset_collectRootColumns inner
termination_by structural p => p

theorem subset_collectRootColumnsAll {names : List String} :
    (ps : List Predicate) → names ⊆ collectRootColumnsAll names ps
  | [] => List.Subset.refl _
  | p :: rest => fun _ hname =>
      subset_collectRootColumnsAll rest (subset_collectRootColumns p hname)
termination_by structural ps => ps

end

mutual

/-- A predicate without its joins binds the same aliases. -/
theorem binders_unjoin : (p : Predicate) → (unjoin p).binders = p.binders
  | .const _ | .leaf _ _ _ => rfl
  | .and terms | .or terms => bindersAll_unjoinAll terms
  | .not inner => binders_unjoin inner
  | .traverse _ via inner => congrArg (via.binder :: ·) (binders_unjoin inner)
termination_by structural p => p

theorem bindersAll_unjoinAll : (ps : List Predicate) → bindersAll (unjoinAll ps) = bindersAll ps
  | [] => rfl
  | p :: rest => by
    rw [unjoinAll, bindersAll, bindersAll, binders_unjoin p, bindersAll_unjoinAll rest]
termination_by structural ps => ps

end

end Predicate

namespace Sql

/-! ## The columns of a condition -/

def Atom.columns : Atom → List Column
  | .compare column _ _ | .like column _ | .isNull column | .isNotNull column => [column]
  | .compareRow columns _ _ => columns

namespace Condition

mutual

/-- The columns that a condition reads of tables that its sub-queries do not bind. A sub-query
is linked to a row outside, and binds the name of its table below. -/
def outer : Condition → List Column
  | .const _ => []
  | .atom a => a.columns
  | .chain _ terms => outerAll terms
  | .not inner | .notParen inner => outer inner
  | .subquery r inner =>
    r.on.map (·.2) ++ (r.on.map (·.1) ++ outer inner).filter fun c => c.table ≠ r.table
termination_by structural c => c

/-- The columns that several conditions read of tables that they do not bind. -/
def outerAll : List Condition → List Column
  | [] => []
  | c :: rest => outer c ++ outerAll rest
termination_by structural cs => cs

end

mutual

/-- All columns that stand in a condition. -/
def columns : Condition → List Column
  | .const _ => []
  | .atom a => a.columns
  | .chain _ terms => columnsAll terms
  | .not inner | .notParen inner => columns inner
  | .subquery r inner => r.on.map (·.2) ++ (r.on.map (·.1) ++ columns inner)
termination_by structural c => c

def columnsAll : List Condition → List Column
  | [] => []
  | c :: rest => columns c ++ columnsAll rest
termination_by structural cs => cs

end

mutual

/-- The tables that the sub-queries of a condition bind. -/
def tables : Condition → List String
  | .const _ | .atom _ => []
  | .chain _ terms => tablesAll terms
  | .not inner | .notParen inner => tables inner
  | .subquery r inner => r.table :: tables inner
termination_by structural c => c

def tablesAll : List Condition → List String
  | [] => []
  | c :: rest => tables c ++ tablesAll rest
termination_by structural cs => cs

end

mutual

/-- A column of a table that is bound nowhere in a condition is read from outside. -/
theorem mem_outer_of_not_mem_tables {column : Column} :
    (c : Condition) → column.table ∉ tables c → column ∈ columns c → column ∈ outer c
  | .const _, _, h => h
  | .atom _, _, h => h
  | .chain _ terms, hnot, h => mem_outerAll_of_not_mem_tablesAll terms hnot h
  | .not inner, hnot, h | .notParen inner, hnot, h => mem_outer_of_not_mem_tables inner hnot h
  | .subquery r inner, hnot, h => by
    rw [tables, List.mem_cons, not_or] at hnot
    rw [columns, List.mem_append, List.mem_append] at h
    rw [outer, List.mem_append, List.mem_filter, List.mem_append]
    rcases h with h | h | h
    · exact .inl h
    · exact .inr ⟨.inl h, by simpa using hnot.1⟩
    · exact .inr ⟨.inr (mem_outer_of_not_mem_tables inner hnot.2 h), by simpa using hnot.1⟩
termination_by structural c => c

theorem mem_outerAll_of_not_mem_tablesAll {column : Column} :
    (cs : List Condition) → column.table ∉ tablesAll cs → column ∈ columnsAll cs →
      column ∈ outerAll cs
  | [], _, h => h
  | c :: rest, hnot, h => by
    rw [tablesAll, List.mem_append, not_or] at hnot
    rw [columnsAll, List.mem_append] at h
    rw [outerAll, List.mem_append]
    exact h.imp (mem_outer_of_not_mem_tables c hnot.1)
      (mem_outerAll_of_not_mem_tablesAll rest hnot.2)
termination_by structural cs => cs

end

end Condition

section Columns

open Predicate (Scoped ScopedAll collectRootColumns collectRootColumnsAll addNew traversedColumns
  subset_collectRootColumns subset_collectRootColumnsAll mem_addNew)

/-- A comparison reads the first segment of its path, of the table of its scope. -/
theorem of_mem_columns {path : ColumnPath} {c : Comparison} {operand : Option Value} {a : Atom}
    (h : ofLeaf path c operand = .ok a) {column : Column} (hcolumn : column ∈ a.columns) :
    column.table = tableName path.scope ∧ column.name ∈ path.segments.take 1 := by
  rw [ofLeaf] at h
  split at h
  · rename_i name hsegments
    have hone : column = ⟨tableName path.scope, name⟩ := by
      split at h <;> cases h <;> exact List.mem_singleton.1 hcolumn
    rw [hone, hsegments]
    exact ⟨rfl, List.mem_singleton_self name⟩
  · cases h

/-- A sub-query is linked by columns of its own table to source columns of
the table of its parent. -/
theorem of_mem_on {via : Traversal} {r : Related} (h : dialect.ofTraversal via = .ok r) :
    r.table = aliasName via.binder ∧ (∀ column ∈ r.on.map (·.1), column.table = r.table) ∧
      ∀ column ∈ r.on.map (·.2),
        column.table = tableName via.parent ∧ column.name ∈ traversedColumns via := by
  obtain ⟨link, hlink, rfl⟩ := related_of_ofTraversal h
  have hpairs : ∀ pair ∈ (related via link).on, ∃ t s, s ∈ link.sourceColumns ∧
      pair = (⟨aliasName via.binder, t⟩, ⟨tableName via.parent, s⟩) := by
    intro pair hpair
    obtain ⟨⟨t, s⟩, hts, rfl⟩ := List.mem_map.1 hpair
    exact ⟨t, s, (List.of_mem_zip hts).2, rfl⟩
  refine ⟨rfl, fun column hcolumn => ?_, fun column hcolumn => ?_⟩
  · obtain ⟨pair, hpair, rfl⟩ := List.mem_map.1 hcolumn
    obtain ⟨t, s, -, rfl⟩ := hpairs pair hpair
    rfl
  · obtain ⟨pair, hpair, rfl⟩ := List.mem_map.1 hcolumn
    obtain ⟨t, s, hs, rfl⟩ := hpairs pair hpair
    rw [traversedColumns, hlink]
    exact ⟨rfl, hs⟩

mutual

/-- What the condition of a predicate without joins reads from outside is read of the table of
its scope, and collected if that is the root. -/
theorem of_mem_outer {scope : Scope} {column : Column} :
    (p : Predicate) → Scoped scope false p → ∀ {c : Condition},
      RoleQuery.Condition.ofPredicate dialect p = .ok c → column ∈ Condition.outer c →
      column.table = tableName scope ∧
        (scope = .root → ∀ names, column.name ∈ collectRootColumns names p)
  | .const _, _, _, h, hcolumn => by
    cases h
    cases hcolumn
  | .leaf path cmp operand, hp, _, h, hcolumn => by
    obtain ⟨a, ha, rfl⟩ := Except.map_eq_ok_iff.1 h
    obtain ⟨htable, hname⟩ := of_mem_columns ha hcolumn
    refine ⟨hp.1 ▸ htable, fun hroot names => ?_⟩
    rw [collectRootColumns, if_pos (hp.1.trans hroot)]
    exact mem_addNew.2 (.inr hname)
  | .and terms, hp, _, h, hcolumn | .or terms, hp, _, h, hcolumn => by
    obtain ⟨cs, hcs, rfl⟩ := Except.map_eq_ok_iff.1 h
    exact of_mem_outerAll terms hp.2 hcs hcolumn
  | .not inner, hp, _, h, hcolumn => by
    obtain ⟨c, hc, rfl⟩ := Except.map_eq_ok_iff.1 h
    have hinner : column ∈ Condition.outer c := by
      split at hcolumn <;> exact hcolumn
    exact of_mem_outer inner hp.2 hc hinner
  | .traverse .join _ _, hp, _, _, _ => absurd (hp.1 rfl).1 (by simp)
  | .traverse .subquery via inner, hp, _, h, hcolumn => by
    obtain ⟨r, hr, h⟩ := Except.bind_eq_ok_iff.1 h
    obtain ⟨c, hc, h⟩ := Except.bind_eq_ok_iff.1 h
    cases h
    obtain ⟨htable, hown, hlinked⟩ := of_mem_on hr
    obtain ⟨-, hparent, -, hinner⟩ := hp
    rw [Condition.outer, List.mem_append, List.mem_filter, List.mem_append] at hcolumn
    rcases hcolumn with hcolumn | ⟨hcolumn, hne⟩
    · obtain ⟨hcolumn, hname⟩ := hlinked column hcolumn
      refine ⟨hparent ▸ hcolumn, fun hroot names => ?_⟩
      rw [collectRootColumns, if_pos (hparent.trans hroot)]
      exact subset_collectRootColumns inner (mem_addNew.2 (.inr hname))
    · -- below the sub-query everything is read of the table that it binds
      have hbound : column.table = r.table := hcolumn.elim (hown column) fun hcolumn =>
        ((of_mem_outer inner hinner hc hcolumn).1).trans htable.symm
      exact absurd hbound (by simpa using hne)
termination_by structural p => p

theorem of_mem_outerAll {scope : Scope} {column : Column} :
    (ps : List Predicate) → ScopedAll scope false ps → ∀ {cs : List Condition},
      RoleQuery.Condition.ofPredicates dialect ps = .ok cs → column ∈ Condition.outerAll cs →
      column.table = tableName scope ∧
        (scope = .root → ∀ names, column.name ∈ collectRootColumnsAll names ps)
  | [], _, _, h, hcolumn => by
    cases h
    cases hcolumn
  | p :: rest, hps, _, h, hcolumn => by
    obtain ⟨c, hc, h⟩ := Except.bind_eq_ok_iff.1 h
    obtain ⟨cs, hcs, h⟩ := Except.bind_eq_ok_iff.1 h
    cases h
    rw [Condition.outerAll, List.mem_append] at hcolumn
    rcases hcolumn with hcolumn | hcolumn
    · obtain ⟨htable, hname⟩ := of_mem_outer p hps.1 hc hcolumn
      exact ⟨htable, fun hroot names => subset_collectRootColumnsAll rest (hname hroot names)⟩
    · obtain ⟨htable, hname⟩ := of_mem_outerAll rest hps.2 hcs hcolumn
      exact ⟨htable, fun hroot names => hname hroot _⟩
termination_by structural ps => ps

end

mutual

/-- The sub-queries of a condition bind the tables of the aliases of its predicate. -/
theorem tables_of_ofPredicate {scope : Scope} :
    (p : Predicate) → Scoped scope false p → ∀ {c : Condition},
      RoleQuery.Condition.ofPredicate dialect p = .ok c →
        Condition.tables c = p.binders.map aliasName
  | .const _, _, _, h => by
    cases h
    rfl
  | .leaf _ _ _, _, _, h => by
    obtain ⟨a, -, rfl⟩ := Except.map_eq_ok_iff.1 h
    rfl
  | .and terms, hp, _, h | .or terms, hp, _, h => by
    obtain ⟨cs, hcs, rfl⟩ := Except.map_eq_ok_iff.1 h
    exact tablesAll_of_ofPredicates terms hp.2 hcs
  | .not inner, hp, _, h => by
    obtain ⟨c, hc, rfl⟩ := Except.map_eq_ok_iff.1 h
    have hinner := tables_of_ofPredicate inner hp.2 hc
    split <;> exact hinner
  | .traverse .join _ _, hp, _, _ => absurd (hp.1 rfl).1 (by simp)
  | .traverse .subquery via inner, hp, _, h => by
    obtain ⟨r, hr, h⟩ := Except.bind_eq_ok_iff.1 h
    obtain ⟨c, hc, h⟩ := Except.bind_eq_ok_iff.1 h
    cases h
    rw [Condition.tables, tables_of_ofPredicate inner hp.2.2.2 hc, (of_mem_on hr).1]
    rfl
termination_by structural p => p

theorem tablesAll_of_ofPredicates {scope : Scope} :
    (ps : List Predicate) → ScopedAll scope false ps → ∀ {cs : List Condition},
      RoleQuery.Condition.ofPredicates dialect ps = .ok cs →
      Condition.tablesAll cs = (Predicate.bindersAll ps).map aliasName
  | [], _, _, h => by
    cases h
    rfl
  | p :: rest, hps, _, h => by
    obtain ⟨c, hc, h⟩ := Except.bind_eq_ok_iff.1 h
    obtain ⟨cs, hcs, h⟩ := Except.bind_eq_ok_iff.1 h
    cases h
    rw [Condition.tablesAll, tables_of_ofPredicate p hps.1 hc,
      tablesAll_of_ofPredicates rest hps.2 hcs, Predicate.bindersAll, List.map_append]
termination_by structural ps => ps

end

end Columns

/-! ## The derived row -/

/-- The definition of a column in the derived row: by a parameter with
its value, or as null. -/
structure Definition where
  column : String
  parameter : Option (String × Value)
  deriving DecidableEq, Repr

def Definition.text (d : Definition) : String :=
  (match d.parameter with
    | some (name, _) => name
    | none => "NULL") ++ " AS " ++ quote d.column

/-- The definitions of written columns, of which the first has the parameter number `n`. -/
def writtenDefinitions (n : Nat) : List (String × Value) → List Definition
  | [] => []
  | (column, v) :: rest =>
      ⟨column, some (Piece.parameterName n, v)⟩ :: writtenDefinitions (n + 1) rest

/-- The columns of the row that is made of written values and of nulls. -/
def derivedRow (values : List (String × Value)) (nulls : List String) : List Definition :=
  writtenDefinitions 0 values ++ nulls.map (Definition.mk · none)

theorem columns_writtenDefinitions (n : Nat) (values : List (String × Value)) :
    (writtenDefinitions n values).map (·.column) = values.map (·.1) := by
  induction values generalizing n with
  | nil => rfl
  | cons v rest ih => rw [writtenDefinitions, List.map_cons, List.map_cons, ih]

theorem columns_derivedRow (values : List (String × Value)) (nulls : List String) :
    (derivedRow values nulls).map (·.column) = values.map (·.1) ++ nulls := by
  rw [derivedRow, List.map_append, columns_writtenDefinitions, List.map_map]
  exact congrArg _ (List.map_id nulls)

/-- A written column is defined by the parameter of its value. -/
theorem mem_writtenDefinitions {n : Nat} {values : List (String × Value)} {d : Definition} :
    d ∈ writtenDefinitions n values ↔
      ∃ i v, values[i]? = some (d.column, v) ∧
        d.parameter = some (Piece.parameterName (n + i), v) := by
  induction values generalizing n with
  | nil => simp [writtenDefinitions]
  | cons first rest ih =>
    obtain ⟨column, w⟩ := first
    rw [writtenDefinitions, List.mem_cons, ih]
    constructor
    · rintro (rfl | ⟨i, v, hi, hd⟩)
      · exact ⟨0, w, rfl, rfl⟩
      · exact ⟨i + 1, v, hi, by rw [hd, Nat.add_right_comm, Nat.add_assoc]⟩
    · rintro ⟨_ | i, v, hi, hd⟩
      · obtain ⟨rfl, rfl⟩ := Prod.mk.inj (Option.some.inj hi)
        exact .inl (by cases d; cases hd; rfl)
      · exact .inr ⟨i, v, hi, by rw [hd, Nat.add_right_comm, Nat.add_assoc]⟩

/-- Where the columns are distinct, the one definition of a column is the only one. -/
theorem filter_column_eq {row : List Definition} (hnodup : (row.map (·.column)).Nodup)
    {d : Definition} (hd : d ∈ row) : (row.filter fun other => other.column = d.column) = [d] := by
  induction row with
  | nil => cases hd
  | cons first rest ih =>
    rw [List.map_cons, List.nodup_cons] at hnodup
    rcases List.mem_cons.1 hd with rfl | hd
    · have hrest : (rest.filter fun other => other.column = d.column) = [] := by
        refine List.filter_eq_nil_iff.2 fun other hother heq => hnodup.1 ?_
        exact List.mem_map.2 ⟨other, hother, of_decide_eq_true heq⟩
      rw [List.filter_cons_of_pos (by simp), hrest]
    · have hne : first.column ≠ d.column := fun heq =>
        hnodup.1 (List.mem_map.2 ⟨d, hd, heq.symm⟩)
      rw [List.filter_cons_of_neg (by simpa using hne), ih hnodup.2 hd]

section DerivedRow

variable {values : List (String × Value)} {policy : Predicate}

theorem mem_nullColumns {name : String} :
    name ∈ Write.nullColumns policy values ↔
      name ∈ policy.rootColumns ∧ name ∉ values.map (·.1) := by
  have hwritten : values.any (·.1 = name) = true ↔ name ∈ values.map (·.1) := by
    simp only [List.any_eq_true, decide_eq_true_eq, List.mem_map]
  rw [Write.nullColumns, List.mem_filter, Bool.not_eq_true', ← Bool.not_eq_true, hwritten]

/-- No column is defined twice if none is written twice. -/
theorem nodup_columns_derivedRow (hnodup : (values.map (·.1)).Nodup) :
    ((derivedRow values (Write.nullColumns policy values)).map (·.column)).Nodup := by
  rw [columns_derivedRow, List.nodup_append]
  refine ⟨hnodup, policy.nodup_rootColumns.filter _, fun a ha b hb hab => ?_⟩
  exact (mem_nullColumns.1 hb).2 (hab ▸ ha)

/-- A column that the policy reads has one definition: by the parameter of the value that is
written to it, or as null if none is. -/
theorem filter_derivedRow (hnodup : (values.map (·.1)).Nodup) {name : String}
    (hname : name ∈ policy.rootColumns) :
    ∃ d, (derivedRow values (Write.nullColumns policy values)).filter
      (fun d => d.column = name) = [d] ∧
      ((∃ i v, values[i]? = some (name, v) ∧ d.parameter = some (Piece.parameterName i, v)) ∨
        name ∉ values.map (·.1) ∧ d.parameter = none) := by
  by_cases hwritten : name ∈ values.map (·.1)
  · obtain ⟨d, hd, rfl⟩ : ∃ d ∈ writtenDefinitions 0 values, d.column = name := by
      rwa [← columns_writtenDefinitions 0, List.mem_map] at hwritten
    refine ⟨d, filter_column_eq (nodup_columns_derivedRow hnodup) (List.mem_append_left _ hd),
      .inl ?_⟩
    simpa only [Nat.zero_add] using mem_writtenDefinitions.1 hd
  · have hnull : (⟨name, none⟩ : Definition) ∈
        derivedRow values (Write.nullColumns policy values) :=
      List.mem_append_right _ (List.mem_map.2 ⟨name, mem_nullColumns.2 ⟨hname, hwritten⟩, rfl⟩)
    exact ⟨_, filter_column_eq (nodup_columns_derivedRow hnodup) hnull, .inr ⟨hwritten, rfl⟩⟩

end DerivedRow

/-! ## How a guarded insert is written -/

/-- The pieces of the definitions of a derived row. -/
def definitionPieces (values : List (String × Value)) (nulls : List String) : List (List Piece) :=
  values.map (fun (c, v) => [.operand v, .text (" AS " ++ quote c)]) ++
    nulls.map fun c => [.text ("NULL AS " ++ quote c)]

/-- The definitions of a derived row are written one after another, and have
the values as operands. -/
theorem definitionPieces_spec (n : Nat) (values : List (String × Value)) (nulls : List String) :
    Piece.texts n (definitionPieces values nulls) =
        (writtenDefinitions n values ++ nulls.map (Definition.mk · none)).map Definition.text ∧
      Piece.parameters n (definitionPieces values nulls).flatten =
        (writtenDefinitions n values).filterMap (·.parameter) ∧
      Piece.count (definitionPieces values nulls).flatten = values.length := by
  induction values generalizing n with
  | nil =>
    induction nulls with
    | nil => exact ⟨rfl, rfl, rfl⟩
    | cons column rest ih =>
      obtain ⟨htexts, hparameters, hcount⟩ := ih
      refine ⟨?_, hparameters, hcount⟩
      have htext : String.join [("NULL AS " ++ quote column)] =
          (Definition.mk column none).text := by
        simp [Definition.text]
      exact congrArg₂ List.cons htext htexts
  | cons v rest ih =>
    obtain ⟨column, v⟩ := v
    obtain ⟨htexts, hparameters, hcount⟩ := ih (n + 1)
    refine ⟨?_, congrArg (_ :: ·) hparameters, congrArg (· + 1) hcount⟩
    have htext : String.join [Piece.parameterName n, " AS " ++ quote column] =
        (Definition.mk column (some (Piece.parameterName n, v))).text := by
      simp [Definition.text, String.append_assoc]
    exact congrArg₂ List.cons htext htexts

/-- A guarded insert names the written columns, selects them from the derived row, and asks
its condition of that row. The values are its first operands. -/
theorem Write.ofPieces_insertIf (object : String) (values : List (String × Value))
    (nulls : List String) (condition : Condition) :
    Statement.ofPieces (Write.insertIf object values nulls condition).pieces =
      ⟨"INSERT INTO " ++ quoteObject object ++ " (" ++
          ", ".intercalate (values.map fun v => quote v.1) ++ ") SELECT " ++
          ", ".intercalate (values.map fun v => (Column.mk rootName v.1).text) ++
          " FROM (SELECT " ++
          ", ".intercalate ((derivedRow values nulls).map Definition.text) ++ ") AS t0 WHERE " ++
          String.join (Piece.render values.length (condition.pieces dialect)),
        (derivedRow values nulls).filterMap (·.parameter) ++
          Piece.parameters values.length (condition.pieces dialect)⟩ := by
  obtain ⟨htext, hparameters, hcount⟩ :=
    Piece.intercalate_spec ", " 0 (definitionPieces values nulls)
  obtain ⟨htexts, hvalues, hlength⟩ := definitionPieces_spec 0 values nulls
  have hnulls : (derivedRow values nulls).filterMap (·.parameter) =
      (writtenDefinitions 0 values).filterMap (·.parameter) := by
    simp [derivedRow, List.filterMap_append, List.filterMap_map]
  rw [htexts] at htext
  rw [hvalues] at hparameters
  rw [hlength] at hcount
  have hpieces : (Write.insertIf object values nulls condition).pieces =
      .text ("INSERT INTO " ++ quoteObject object ++ " (" ++
        ", ".intercalate (columnTexts values) ++ ") SELECT " ++
        ", ".intercalate ((columnTexts values).map fun c => rootName ++ "." ++ c) ++
        " FROM (SELECT ") ::
        (Piece.intercalate ", " (definitionPieces values nulls) ++
          .text (") AS " ++ rootName ++ " WHERE ") :: condition.pieces dialect) := rfl
  rw [hpieces, Statement.ofPieces, Piece.render, Piece.render_append, Piece.parameters,
    Piece.parameters_append, hcount, hparameters, hnulls, Nat.zero_add, Piece.render,
    Piece.parameters, String.join_cons, String.join_append, htext, String.join_cons, columnTexts,
    List.map_map]
  simp only [String.append_assoc]
  rfl

/-! ## Guarded inserts of policies -/

theorem binders_of_ofWritePolicy {catalog : Catalog} {e : Entity} {f : Filter} {p : Predicate}
    (h : Predicate.ofWritePolicy catalog e f = .ok p) :
    p.binders.Sublist (Compilation.allotted 1 (f.traversals catalog (some e))) := by
  rw [Predicate.ofWritePolicy_eq_map_unjoin] at h
  obtain ⟨q, hq, rfl⟩ := Except.map_eq_ok_iff.1 h
  rw [Predicate.binders_unjoin]
  exact (Predicate.binders_ofFilter hq).1

/-- No sub-query of a policy binds the table of the derived row while the counter of
aliases has not come round. -/
theorem mem_outer_of_table_eq_rootName {catalog : Catalog} {e : Entity} {f : Filter} {p : Predicate}
    {condition : Condition} (hp : Predicate.ofWritePolicy catalog e f = .ok p)
    (hcondition : ofPredicate p = .ok condition)
    (hcount : f.traversals catalog (some e) < UInt32.size) :
    ∀ column ∈ Condition.columns condition, column.table = rootName →
      column ∈ Condition.outer condition := by
  intro column hcolumn htable
  refine Condition.mem_outer_of_not_mem_tables condition ?_ hcolumn
  rw [htable, tables_of_ofPredicate p (Predicate.scoped_ofWritePolicy hp) hcondition]
  have hnodup :
      (rootName :: (Compilation.allotted 1 (f.traversals catalog (some e))).map aliasName).Nodup :=
    Predicate.nodup_aliasName_allotted (by decide) (by rw [UInt32.toNat_one]; omega)
  exact fun hroot => (List.nodup_cons.1 hnodup).1
    (((binders_of_ofWritePolicy hp).map aliasName).subset hroot)

/-- **A guarded insert is closed over its derived row.** The insert names the written columns
in their order. Whatever its condition reads of a table that no sub-query of it binds is read
of the derived row, which defines it once: by the parameter of the value that is written to
the column, or as null if none is. -/
theorem closed_of_ofWritePolicy {catalog : Catalog} {e : Entity} {f : Filter} {p : Predicate}
    {plan : WritePlan} {statement : Statement} (hp : Predicate.ofWritePolicy catalog e f = .ok p)
    (hpolicy : plan.policy = some p) (hoperation : plan.operation = .create)
    (hbackend : plan.backend = .relational) (hnodup : (plan.values.map (·.1)).Nodup)
    (h : plan.statement? = .ok (some statement)) :
    ∃ (condition : Condition) (row : List Definition), ofPredicate p = .ok condition ∧
      statement.text =
        "INSERT INTO " ++ quoteObject plan.object ++ " (" ++
          ", ".intercalate (plan.values.map fun v => quote v.1) ++ ") SELECT " ++
          ", ".intercalate (plan.values.map fun v => (Column.mk rootName v.1).text) ++
          " FROM (SELECT " ++ ", ".intercalate (row.map Definition.text) ++ ") AS t0 WHERE " ++
          String.join (Piece.render plan.values.length (condition.pieces dialect)) ∧
      statement.parameters = row.filterMap (·.parameter) ++
        Piece.parameters plan.values.length (condition.pieces dialect) ∧
      (row.map (·.column)).Nodup ∧
      (∀ column ∈ Condition.outer condition, column.table = rootName ∧
        ∃ d, row.filter (fun d => d.column = column.name) = [d] ∧
          ((∃ i v, plan.values[i]? = some (column.name, v) ∧
              d.parameter = some (Piece.parameterName i, v)) ∨
            column.name ∉ plan.values.map (·.1) ∧ d.parameter = none)) ∧
      (f.traversals catalog (some e) < UInt32.size → ∀ column ∈ Condition.columns condition,
        column.table = rootName → column ∈ Condition.outer condition) := by
  rw [WritePlan.statement?, hbackend] at h
  obtain ⟨w, hw, hstatement⟩ := Except.map_eq_ok_iff.1 h
  rw [Write.ofPlan, hoperation, hpolicy] at hw
  obtain ⟨condition, hcondition, rfl⟩ := Except.map_eq_ok_iff.1 hw
  rw [ofPolicy, Predicate.joins_of_ofWritePolicy hp, List.isEmpty_nil, if_pos rfl] at hcondition
  obtain rfl := Option.some.inj hstatement
  rw [Write.ofPieces_insertIf]
  refine ⟨condition, derivedRow plan.values (Write.nullColumns p plan.values), hcondition, rfl, rfl,
    nodup_columns_derivedRow hnodup, fun column hcolumn => ?_,
    mem_outer_of_table_eq_rootName hp hcondition⟩
  obtain ⟨htable, hcollected⟩ :=
    of_mem_outer p (Predicate.scoped_ofWritePolicy hp) hcondition hcolumn
  exact ⟨htable, filter_derivedRow hnodup (hcollected rfl [])⟩

/-- Poems about dust by a poet called Ada. -/
def dustByAda : Filter :=
  .group [.object "poet" [.scalar "name" .eq (.text "Ada")], .scalar "title" .eq (.text "Dust")]
    none none

/-- A new poem by the third poet, which must be about dust and by Ada. -/
def poemOfThird (policy : Predicate) : WritePlan :=
  ⟨"Poem", "poems", .relational, .create, [], [("poet_id", .integer 3)], some policy⟩

/-- The insert writes the poet and leaves out the title, which is null in the derived row. -/
theorem closed_of_ofWritePolicy_dustByAda :
    ∃ catalog, Catalog.ofConfig Catalog.anthologyConfig = .ok catalog ∧
      ∃ p statement condition, Predicate.ofWritePolicy catalog Catalog.poem dustByAda = .ok p ∧
        (poemOfThird p).statement? = .ok (some statement) ∧
        statement.text = "INSERT INTO \"poems\" (\"poet_id\") SELECT t0.\"poet_id\" " ++
          "FROM (SELECT @param0 AS \"poet_id\", NULL AS \"title\") AS t0 WHERE " ++
          "(EXISTS (SELECT 1 FROM \"poets\" AS t1 WHERE t1.\"id\" = t0.\"poet_id\" AND " ++
          "t1.\"name\" = @param1) AND t0.\"title\" = @param2)" ∧
        ofPredicate p = .ok condition ∧
        Condition.outer condition = [⟨"t0", "poet_id"⟩, ⟨"t0", "title"⟩] ∧
        ∀ column ∈ Condition.columns condition, column.table = "t0" →
          column ∈ Condition.outer condition := by
  obtain ⟨catalog, hconfig⟩ : ∃ catalog, Catalog.ofConfig Catalog.anthologyConfig = .ok catalog :=
    ⟨_, rfl⟩
  have hclosed : ∀ p statement, Predicate.ofWritePolicy catalog Catalog.poem dustByAda = .ok p →
      (poemOfThird p).statement? = .ok (some statement) → _ := fun p statement hp h =>
    @closed_of_ofWritePolicy catalog Catalog.poem dustByAda p (poemOfThird p) statement hp rfl
      rfl rfl (List.nodup_singleton "poet_id") h
  cases hconfig
  refine ⟨_, rfl, _, _, _, rfl, rfl, by decide +kernel, rfl, rfl, ?_⟩
  obtain ⟨condition, row, hcondition, -, -, -, -, hcolumns⟩ := hclosed _ _ rfl rfl
  cases hcondition
  exact hcolumns (by decide)

end Sql

end RoleQuery
