import RoleQuery.Proofs.Statement.Outline
import RoleQuery.Sql.Select
import RoleQuery.Sql.Write

/-!
# SQL without its values

The text of an SQL statement depends on no operand of its predicate, no written value and
no value of a key. Of the position that a page starts after it depends on which values
are null: these decide whether rows are compared as a whole, and which alternatives there
are. All of them are decided alike for the erased plan, so the statement has the outline
of the erased statement.
-/
namespace RoleQuery.Sql

theorem map_erase_like (column : Column) (pattern pattern' : String) :
    (Atom.like column pattern).pieces.map Piece.erase =
      (Atom.like column pattern').pieces.map Piece.erase := rfl

/-- Comparisons are written alike, whatever their operands are. -/
theorem separates_dialect : dialect.Separates := by
  intro path c v w
  change (ofLeaf path c v).map _ = (ofLeaf path c w).map _
  unfold ofLeaf
  split
  · cases c with
    | contains | startsWith | endsWith => exact congrArg Except.ok (map_erase_like _ _ _)
    | _ => rfl
  · rfl

/-- What a condition is written as without its operands. -/
abbrev Condition.outline (c : Condition) : List Piece := RoleQuery.Condition.outline dialect c

section Keyset

variable {level level' : List Condition}

/-- A list of terms is written alike when each of them is. -/
theorem outline_chain_congr {c : Connective}
    (h : level.map Condition.outline = level'.map Condition.outline) :
    Condition.outline (.chain c level) = Condition.outline (.chain c level') := by
  rw [Condition.outline, Condition.outline, RoleQuery.Condition.outline_chain,
    RoleQuery.Condition.outline_chain, h]

theorem outline_compare (column : Column) (sign : String) (v w : Value) :
    Condition.outline (.atom (.compare column sign v)) =
      Condition.outline (.atom (.compare column sign w)) := rfl

theorem outline_afterKey (column : Column) (key : OrderKey) (v : Value) :
    Condition.outline (afterKey column key v.erase) =
      Condition.outline (afterKey column key v) := by
  have hcompare := outline_compare column (afterSign key.direction) v.erase v
  rw [afterKey, afterKey, Value.isNull_erase]
  by_cases hnull : v.isNull
  · rw [if_pos hnull, if_pos hnull]
  · rw [if_neg hnull, if_neg hnull]
    by_cases hnulls : key.direction = .desc ∧ key.nullable
    · simp only [if_pos hnulls]
      refine outline_chain_congr ?_
      rw [List.map_cons, List.map_cons, List.map_cons, List.map_cons, hcompare]
    · simp only [if_neg hnulls]
      exact hcompare

theorem outline_atKey (column : Column) (v : Value) :
    Condition.outline (atKey column v.erase) = Condition.outline (atKey column v) := by
  rw [atKey, atKey, Value.isNull_erase]
  by_cases hnull : v.isNull
  · rw [if_pos hnull, if_pos hnull]
  · rw [if_neg hnull, if_neg hnull, outline_compare]

/-- One term or several are written alike when each of them is. -/
theorem outline_allTerms (h : level.map Condition.outline = level'.map Condition.outline) :
    Condition.outline (allTerms level) = Condition.outline (allTerms level') := by
  have hlength := congrArg List.length h
  match level, level' with
  | [], [] => rfl
  | [_], [_] => exact (List.cons.inj h).1
  | _ :: _ :: _, _ :: _ :: _ => exact outline_chain_congr h
  | [], _ :: _ | _ :: _, [] | [_], _ :: _ :: _ | _ :: _ :: _, [_] => simp at hlength

/-- The alternatives are written alike when the conditions of the keys before are. -/
theorem outline_alternatives (keys : List OrderKey) (values : List Value)
    (hlevel : level.map Condition.outline = level'.map Condition.outline) :
    (alternatives level keys (values.map Value.erase)).map Condition.outline =
      (alternatives level' keys values).map Condition.outline := by
  induction keys generalizing level level' values with
  | nil => rfl
  | cons key keys ih =>
    have hhead : (values.map Value.erase).headD .null = (values.headD .null).erase := by
      cases values <;> rfl
    have hnext : ∀ {c c' : Condition}, Condition.outline c = Condition.outline c' →
        (level ++ [c]).map Condition.outline = (level' ++ [c']).map Condition.outline := by
      intro c c' h
      rw [List.map_append, List.map_append, hlevel, List.map_singleton, List.map_singleton, h]
    have hrest := ih values.tail (hnext (outline_atKey (keyColumn key) (values.headD .null)))
    have hfirst :=
      outline_allTerms (hnext (outline_afterKey (keyColumn key) key (values.headD .null)))
    rw [alternatives, alternatives, hhead, ← List.map_tail, Value.isNull_erase]
    by_cases hlast : key.direction = .desc ∧ (values.headD .null).isNull
    · simp only [if_pos hlast]
      exact hrest
    · simp only [if_neg hlast, List.map_cons, hfirst, hrest]

theorem rowDirection?_erase (p : Pagination) (values : List Value) :
    rowDirection? p (values.map Value.erase) = rowDirection? p values := by
  have hany : (values.map Value.erase).any Value.isNull = values.any Value.isNull := by
    simp [Function.comp_def]
  rw [rowDirection?, rowDirection?, hany]

/-- A comparison of rows is written alike for all rows of one length. -/
theorem outline_compareRow (columns : List Column) (sign : String) (values : List Value) :
    Condition.outline (.atom (.compareRow columns sign (values.map Value.erase))) =
      Condition.outline (.atom (.compareRow columns sign values)) := by
  have hoperands :
      ((values.map Value.erase).map fun v => [Piece.operand v]).map (List.map Piece.erase) =
        (values.map fun v => [Piece.operand v]).map (List.map Piece.erase) := by
    simp [Piece.erase, Function.comp_def]
  change (Atom.pieces _).map _ = (Atom.pieces _).map _
  rcases columns with _ | ⟨column, _ | ⟨next, others⟩⟩
  · simp only [Atom.pieces, List.map_append, List.map_cons, Piece.map_erase_intercalate, hoperands]
  · cases values with
    | nil => rfl
    | cons v rest => simp [Atom.pieces, Piece.erase, Function.comp_def]
  · simp only [Atom.pieces, List.map_append, List.map_cons, Piece.map_erase_intercalate, hoperands]

/-- The condition of the rows after a position depends on the position only in
which values are null. -/
theorem outline_keysetAfter (p : Pagination) (values : List Value) :
    Condition.outline (keysetAfter p (values.map Value.erase)) =
      Condition.outline (keysetAfter p values) := by
  rw [keysetAfter, keysetAfter, rowDirection?_erase]
  cases rowDirection? p values with
  | some direction => exact outline_compareRow _ _ values
  | none =>
    have halternatives : (alternatives [] p.order (values.map Value.erase)).map Condition.outline =
        (alternatives [] p.order values).map Condition.outline :=
          outline_alternatives p.order values rfl
    cases h : alternatives [] p.order values with
    | nil =>
      rw [h, List.map_nil, List.map_eq_nil_iff] at halternatives
      simp only [halternatives]
    | cons first others =>
      rw [h] at halternatives
      cases h' : alternatives [] p.order (values.map Value.erase) with
      | nil =>
        rw [h'] at halternatives
        cases halternatives
      | cons first' others' =>
        rw [h'] at halternatives
        exact outline_chain_congr halternatives

theorem outline_keyset (p : Pagination) :
    (keyset { p with continuation := p.continuation.erase }).map Condition.outline =
      (keyset p).map Condition.outline := by
  unfold keyset
  cases p.continuation with
  | start => rfl
  | token token => rfl
  | after values => exact congrArg some (outline_keysetAfter p values)

end Keyset

theorem map_outline_ofPredicate (p : Predicate) :
    (ofPredicate p.erase).map Condition.outline = (ofPredicate p).map Condition.outline :=
  RoleQuery.Condition.map_outline_ofPredicate separates_dialect p

/-- A condition that may be absent is written alike without operands. -/
theorem map_outline_mapM {f : Predicate → Except RequestError Condition}
    (hf : ∀ p : Predicate, (f p.erase).map Condition.outline = (f p).map Condition.outline)
    (predicate : Option Predicate) :
    ((predicate.map Predicate.erase).mapM f).map (Option.map Condition.outline) =
      (predicate.mapM f).map (Option.map Condition.outline) := by
  cases predicate with
  | none => rfl
  | some p =>
    exact Except.map_map_congr (hf p) fun _ _ h => congrArg some h

namespace Select

/-- A read is written alike when its conditions are. -/
theorem map_erase_pieces {s s' : Select}
    (hconditions : s.conditions.map Condition.outline = s'.conditions.map Condition.outline)
    (hothers : s = { s' with conditions := s.conditions }) :
    s.pieces.map Piece.erase = s'.pieces.map Piece.erase := by
  have hempty : s.conditions.isEmpty = s'.conditions.isEmpty := by
    simpa using congrArg List.isEmpty hconditions
  have hpieces : (s.conditions.map fun c => c.pieces dialect).map (List.map Piece.erase) =
      (s'.conditions.map fun c => c.pieces dialect).map (List.map Piece.erase) := by
    rw [List.map_map, List.map_map]
    exact hconditions
  rw [hothers]
  simp only [pieces, List.map_append, List.map_cons, hempty]
  cases s'.conditions.isEmpty with
  | true => rfl
  | false => simp only [Bool.false_eq_true, ↓reduceIte, List.map_cons, Piece.map_erase_intercalate,
      hpieces]

/-- A plan is refused or written as its erasure is. -/
theorem map_outline_ofPlan (plan : QueryPlan) :
    (ofPlan plan.erase).map (fun s => s.pieces.map Piece.erase) =
      (ofPlan plan).map fun s => s.pieces.map Piece.erase := by
  have hjoins : (plan.erase.predicate.map Predicate.joins).getD [] =
      (plan.predicate.map Predicate.joins).getD [] := by
    simp [QueryPlan.erase, Function.comp_def]
  have hcondition := map_outline_mapM map_outline_ofPredicate plan.predicate
  unfold ofPlan
  rw [hjoins]
  refine Except.map_bind_congr (f := id) rfl fun related _ hrelated => ?_
  obtain rfl : related = _ := hrelated
  refine Except.map_bind_congr (f := id) rfl fun joins _ hjoined => ?_
  obtain rfl : joins = _ := hjoined
  refine Except.map_bind_congr hcondition fun c c' hc => congrArg Except.ok ?_
  refine map_erase_pieces ?_ rfl
  have hkeyset := congrArg Option.toList (outline_keyset plan.pagination)
  have hpredicate := congrArg Option.toList hc
  rw [Option.toList_map, Option.toList_map] at hkeyset hpredicate
  rw [List.map_append, List.map_append, hpredicate, QueryPlan.erase, hkeyset]

end Select

namespace Write

theorem isEmpty_eraseAssigned (assigned : List (String × Value)) :
    (eraseAssigned assigned).isEmpty = assigned.isEmpty := by
  cases assigned <;> rfl

/-- Columns are written alike, whatever their values are. -/
theorem columnTexts_eraseAssigned (values : List (String × Value)) :
    columnTexts (eraseAssigned values) = columnTexts values := by
  simp [columnTexts, eraseAssigned, Function.comp_def]

/-- A list of columns with their values is written alike, whatever the values are. -/
theorem map_erase_assigned {f : String × Value → List Piece}
    (hf : ∀ column v, (f (column, .null)).map Piece.erase = (f (column, v)).map Piece.erase)
    (assigned : List (String × Value)) :
    ((eraseAssigned assigned).map f).map (List.map Piece.erase) =
      (assigned.map f).map (List.map Piece.erase) := by
  rw [eraseAssigned, List.map_map, List.map_map, List.map_map]
  exact List.map_congr_left fun a _ => hf a.1 a.2

theorem map_outline_ofPolicy (policy : Predicate) :
    (ofPolicy policy.erase).map Condition.outline = (ofPolicy policy).map Condition.outline := by
  rw [ofPolicy, ofPolicy, Predicate.joins_erase]
  by_cases h : policy.joins.isEmpty
  · rw [if_pos h, if_pos h, map_outline_ofPredicate]
  · rw [if_neg h, if_neg h]

theorem nullColumns_erase (policy : Predicate) (values : List (String × Value)) :
    nullColumns policy.erase (eraseAssigned values) = nullColumns policy values := by
  simp [nullColumns, eraseAssigned, Function.comp_def]

/-- The restriction of a write is refused or written as that of its erasure. -/
theorem map_outline_restriction (plan : WritePlan) :
    (restriction plan.erase).map (Option.map Condition.outline) =
      (restriction plan).map (Option.map Condition.outline) := by
  unfold restriction
  refine Except.map_bind_congr (map_outline_mapM map_outline_ofPolicy plan.policy) fun c c' h => ?_
  have hnone : c.isNone = c'.isNone := by simpa using congrArg Option.isNone h
  have hkey : plan.erase.key.isEmpty = plan.key.isEmpty := isEmpty_eraseAssigned plan.key
  rw [hkey, hnone]
  by_cases hmissing : plan.key.isEmpty && c'.isNone
  · rw [if_pos hmissing, if_pos hmissing]
    rfl
  · rw [if_neg hmissing, if_neg hmissing]
    exact congrArg Except.ok h

/-- A restriction is written alike for all keys of the same columns. -/
theorem map_erase_restrictionPieces (key : List (String × Value)) {c c' : Option Condition}
    (h : c.map Condition.outline = c'.map Condition.outline) :
    (restrictionPieces (eraseAssigned key) c).map Piece.erase =
      (restrictionPieces key c').map Piece.erase := by
  have hconditions := congrArg Option.toList h
  rw [Option.toList_map, Option.toList_map] at hconditions
  have hpieces : ((c.map fun c => c.pieces dialect).toList).map (List.map Piece.erase) =
      ((c'.map fun c => c.pieces dialect).toList).map (List.map Piece.erase) := by
    rw [Option.toList_map, Option.toList_map, List.map_map, List.map_map]
    exact hconditions
  rw [restrictionPieces, restrictionPieces, Piece.map_erase_intercalate,
    Piece.map_erase_intercalate,
    List.map_append, List.map_append, hpieces, map_erase_assigned fun _ _ => rfl]

/-- A write is refused or written as its erasure is. -/
theorem map_outline_ofPlan (plan : WritePlan) :
    (ofPlan plan.erase).map (fun w => w.pieces.map Piece.erase) =
      (ofPlan plan).map fun w => w.pieces.map Piece.erase := by
  obtain ⟨entity, object, backend, operation, key, values, policy⟩ := plan
  have hrestriction :=
    map_outline_restriction ⟨entity, object, backend, operation, key, values, policy⟩
  cases operation with
  | read => rfl
  | update =>
    refine Except.map_map_congr hrestriction fun c c' h => ?_
    simp only [pieces, List.map_append, List.map_cons, Piece.map_erase_intercalate,
      map_erase_restrictionPieces key h, WritePlan.erase]
    rw [map_erase_assigned fun _ _ => rfl]
  | delete =>
    refine Except.map_map_congr hrestriction fun c c' h => ?_
    simp only [pieces, List.map_cons, map_erase_restrictionPieces key h, WritePlan.erase]
  | create =>
    cases policy with
    | none =>
      refine congrArg Except.ok ?_
      simp only [pieces, List.map_append, List.map_cons, Piece.map_erase_intercalate,
        WritePlan.erase, columnTexts_eraseAssigned]
      rw [map_erase_assigned fun _ _ => rfl]
    | some policy =>
      refine Except.map_map_congr (map_outline_ofPolicy policy) fun c c' h => ?_
      have hpieces : (c.pieces dialect).map Piece.erase = (c'.pieces dialect).map Piece.erase := h
      simp only [pieces, List.map_append, List.map_cons, Piece.map_erase_intercalate,
        WritePlan.erase, columnTexts_eraseAssigned, nullColumns_erase, hpieces]
      rw [map_erase_assigned fun _ _ => rfl]

end Write

end RoleQuery.Sql
