import RoleQuery.Proofs.DocumentQuery.Condition
import RoleQuery.Proofs.Statement.Plan

/-!
# Reading reads of documents

The text of a read of documents and its operands tell the read: the columns it selects, the
lists it joins, its condition and its ordering. They tell everything that the read depends on,
since nothing is added to a document.
-/
namespace RoleQuery.DocumentQuery

open Cell

variable {n : Nat} {k l : List Cell}

/-! ## Parts of reads -/

/-- The path of a column begins with the name of the root. -/
theorem exists_ofString_columnPath (column : String) :
    ∃ x, ofString (Select.columnPath column) = .char 'c' :: x := by
  rw [Select.columnPath, propertyPath, ofString_append]
  exact ⟨_, rfl⟩

theorem legible_columnPath :
    Legible (fun _ => True) PathEnds fun column => ofString (Select.columnPath column) := by
  intro n column column' k l _ _ hk hl h
  have hpath : ∀ column, Select.columnPath column = propertyPath (scopeName .root) [column] :=
    fun _ => rfl
  simp only [hpath] at h
  exact List.singleton_inj.1 (read_path hk hl h).2.1

def joinText (e : Elements) : String := " JOIN " ++ e.name ++ " IN " ++ e.list

theorem ofString_joinText (e : Elements) : ofString (joinText e) =
    ofString " JOIN " ++ (ofString e.name ++ (ofString " IN " ++ ofString e.list)) := by
  have h : joinText e = " JOIN " ++ e.name ++ " IN " ++ e.list := rfl
  simp only [h, ofString_append, List.append_assoc]

theorem legible_join : Legible Elements.Regular PathEnds fun e => ofString (joinText e) := by
  intro n e e' k l he he' hk hl h
  simp only [ofString_joinText, List.append_assoc, alike_ofString_append] at h
  exact (read_elements he he' hk hl h).1

def keyText (key : String × SortDirection) : String :=
  Select.columnPath key.1 ++ " " ++ key.2.keyword

theorem legible_key :
    Legible (fun _ => True) (fun _ => True) fun key => ofString (keyText key) := by
  rintro n ⟨column, direction⟩ ⟨column', direction'⟩ k l - - - - h
  simp only [keyText, ofString_append, List.append_assoc] at h
  obtain ⟨rfl, m, h⟩ := legible_columnPath.read trivial trivial pathEnds_space pathEnds_space h
  rw [alike_ofString_append] at h
  cases direction <;> cases direction' <;> simp [SortDirection.keyword, ofString] at h ⊢

/-! ## Reads -/

/-- A read whose parts are written in one way only. -/
structure Select.Regular (s : Select) : Prop where
  joins : ∀ e ∈ s.joins, e.Regular
  condition : ∀ c ∈ s.condition, c.Regular Atom.Regular Elements.Regular

def whereCells : Option Condition → List Cell
  | none => []
  | some c => ofString " WHERE " ++ Piece.cells (c.pieces dialect)

def orderCells (order : List OrderKey) : List Cell :=
  ofString " ORDER BY " ++ separated ", " (fun key => ofString (keyText key)) (sortingOf order)

/-- The word before the columns of a read that joins lists. -/
def distinctText (joins : List Elements) : String := if joins.isEmpty then "" else "DISTINCT "

theorem Select.cells_pieces (s : Select) : Piece.cells s.pieces =
    ofString "SELECT " ++ (ofString (distinctText s.joins) ++
      (separated ", " (fun column => ofString (columnPath column)) s.columns ++
        (ofString (" FROM " ++ rootName) ++ (s.joins.flatMap (fun e => ofString (joinText e)) ++
          (whereCells s.condition ++ orderCells s.order))))) := by
  have hpieces : s.pieces =
      .text ("SELECT " ++ distinctText s.joins ++ ", ".intercalate (s.columns.map columnPath) ++
        " FROM " ++ rootName ++ String.join (s.joins.map joinText)) ::
      (match s.condition with
        | none => []
        | some c => .text " WHERE " :: c.pieces dialect) ++
      [.text (" ORDER BY " ++ ", ".intercalate ((sortingOf s.order).map keyText))] := by
    rw [sortingOf, List.map_map]
    rfl
  have hwhere : Piece.cells (match s.condition with
      | none => []
      | some c => .text " WHERE " :: c.pieces dialect) = whereCells s.condition := by
    cases s.condition <;> rfl
  rewrite [hpieces, List.cons_append, Piece.cells, Piece.cells_append, hwhere]
  simp only [Piece.cells, ofString_append, ofString_intercalate, ofString_join, orderCells,
    List.append_assoc, List.append_nil]

/-- What follows the columns is neither a column nor a separator before one. -/
theorem ends_columns :
    Ends (fun _ => True) PathEnds (fun column => ofString (Select.columnPath column))
        (ofString (" FROM " ++ rootName) ++ k) ∧
      Ends (fun _ => True) PathEnds
        (fun column => ofString ", " ++ ofString (Select.columnPath column))
        (ofString (" FROM " ++ rootName) ++ k) := by
  have hfollows : PathEnds (ofString (" FROM " ++ rootName) ++ k) := by
    simp [ofString, continuesIdentifier, startsIdentifier]
  refine ⟨⟨hfollows, fun n column x _ h => ?_⟩, ⟨hfollows, fun n column x _ h => ?_⟩⟩
  · obtain ⟨z, hz⟩ := exists_ofString_columnPath column
    rw [hz] at h
    simp [ofString] at h
  · simp [ofString] at h

/-- What follows the joins is no join. -/
theorem ends_joins (condition : Option Condition) (order : List OrderKey) :
    Ends Elements.Regular PathEnds (fun e => ofString (joinText e))
      (whereCells condition ++ orderCells order) := by
  refine ⟨?_, fun n e x _ h => ?_⟩
  · cases condition <;>
      simp [whereCells, orderCells, ofString, continuesIdentifier, startsIdentifier]
  · rw [ofString_joinText] at h
    cases condition <;> simp [whereCells, orderCells, ofString] at h

/-- A condition is legible before an ordering. -/
theorem read_where {condition condition' : Option Condition} {order order' : List OrderKey}
    (hc : ∀ c ∈ condition, c.Regular Atom.Regular Elements.Regular)
    (hc' : ∀ c ∈ condition', c.Regular Atom.Regular Elements.Regular)
    (h : Alike n (whereCells condition ++ orderCells order)
      (whereCells condition' ++ orderCells order')) : condition = condition' := by
  cases condition with
  | none =>
    cases condition' with
    | none => rfl
    | some c' => simp [whereCells, orderCells, ofString] at h
  | some c =>
    cases condition' with
    | none => simp [whereCells, orderCells, ofString] at h
    | some c' =>
      simp only [whereCells, List.append_assoc, alike_ofString_append] at h
      rw [RoleQuery.Condition.eq_of_alike legible_dialect c c' (hc c rfl) (hc' c' rfl) h]

/-- An ordering is legible at the end. -/
theorem read_order {order order' : List OrderKey}
    (h : Alike n (orderCells order) (orderCells order')) : sortingOf order = sortingOf order' := by
  rw [orderCells, orderCells, alike_ofString_append] at h
  have hends : Ends (fun _ => True) (fun _ => True) (fun key => ofString (keyText key)) [] := by
    refine ⟨trivial, fun n key x _ halike => ?_⟩
    obtain ⟨z, hz⟩ := exists_ofString_columnPath key.1
    rw [keyText, ofString_append, ofString_append, hz] at halike
    simp at halike
  have hends' : Ends (fun _ => True) (fun _ => True)
      (fun key => ofString ", " ++ ofString (keyText key)) [] := by
    refine ⟨trivial, fun n key x _ halike => ?_⟩
    simp [ofString] at halike
  exact legible_key.separated (fun _ => trivial) (fun _ _ => trivial) (fun _ _ => trivial) hends
    hends hends' hends' (n := n) (by simpa using h)

/-- No column begins like the word that makes rows distinct. -/
theorem not_alike_distinct {columns : List String} :
    ¬ Alike n (ofString "DISTINCT " ++ k)
      (separated ", " (fun column => ofString (Select.columnPath column)) columns ++
        (ofString (" FROM " ++ rootName) ++ l)) := by
  intro h
  cases columns with
  | nil => simp [separated, ofString] at h
  | cons column rest =>
    obtain ⟨x, hx⟩ := exists_ofString_columnPath column
    rw [separated, hx] at h
    simp [ofString] at h

theorem distinctText_eq_of_alike {joins joins' : List Elements} {columns columns' : List String}
    (h : Alike n (ofString (distinctText joins) ++
        (separated ", " (fun column => ofString (Select.columnPath column)) columns ++
          (ofString (" FROM " ++ rootName) ++ k)))
      (ofString (distinctText joins') ++
        (separated ", " (fun column => ofString (Select.columnPath column)) columns' ++
          (ofString (" FROM " ++ rootName) ++ l)))) : distinctText joins = distinctText joins' := by
  have hempty : ofString "" = [] := rfl
  cases joins with
  | nil =>
    cases joins' with
    | nil => rfl
    | cons e' rest' =>
      simp only [distinctText, List.isEmpty_nil, List.isEmpty_cons, ↓reduceIte, Bool.false_eq_true,
        hempty, List.nil_append] at h
      exact absurd h.symm not_alike_distinct
  | cons e rest =>
    cases joins' with
    | nil =>
      simp only [distinctText, List.isEmpty_nil, List.isEmpty_cons, ↓reduceIte, Bool.false_eq_true,
        hempty, List.nil_append] at h
      exact absurd h not_alike_distinct
    | cons e' rest' => rfl

/-- Reads with one statement select the same of the same lists under the same condition
and in the same order. -/
theorem Select.Regular.same_of_ofPieces_eq {s s' : Select} (hs : s.Regular) (hs' : s'.Regular)
    (h : Statement.ofPieces s.pieces = Statement.ofPieces s'.pieces) :
    s.columns = s'.columns ∧ s.joins = s'.joins ∧ s.condition = s'.condition ∧
      sortingOf s.order = sortingOf s'.order := by
  have halike := Statement.alike_of_ofPieces_eq h
  simp only [cells_pieces, alike_ofString_append] at halike
  rw [distinctText_eq_of_alike halike, alike_ofString_append] at halike
  have hcolumns : s.columns = s'.columns :=
    legible_columnPath.separated (fun _ => pathEnds_comma) (fun _ _ => trivial) (fun _ _ => trivial)
      ends_columns.1 ends_columns.1 ends_columns.2 ends_columns.2 halike
  rw [hcolumns] at halike
  obtain ⟨m, halike⟩ := halike.append_left
  rw [alike_ofString_append] at halike
  have hjoins : s.joins = s'.joins :=
    legible_join.flatMap (fun e x _ => by
      rw [ofString_joinText]
      simp [ofString, continuesIdentifier, startsIdentifier]) hs.joins hs'.joins (ends_joins _ _)
      (ends_joins _ _) halike
  rw [hjoins] at halike
  obtain ⟨m, halike⟩ := halike.append_left
  have hcondition : s.condition = s'.condition :=
    read_where hs.condition hs'.condition halike
  rw [hcondition] at halike
  obtain ⟨m, halike⟩ := halike.append_left
  exact ⟨hcolumns, hjoins, hcondition, read_order halike⟩

/-! ## Plans -/

/-- Nothing is added to a row for fields that show no related rows. -/
theorem addRelated_eq_self (t : Tables) {fields : List MaskedField}
    (h : fields.filter (·.relationship?.isSome) = []) (row : Json) (columns : Members) :
    t.addRelated row columns fields = columns := by
  induction fields generalizing columns with
  | nil => rw [Tables.addRelated]
  | cons field rest ih =>
    rw [List.filter_eq_nil_iff, List.forall_mem_cons] at h
    have hvalue : t.relatedValue? row field = none := by
      cases hv : t.relatedValue? row field with
      | none => rfl
      | some value => exact absurd (Tables.relationship?_of_relatedValue? t hv) h.1
    rw [Tables.addRelated, hvalue, ih (List.filter_eq_nil_iff.2 h.2)]

/-- The parts of a read of documents come from the parts of its plan, which
shows no related rows. -/
theorem Select.ofPlan_eq_ok {plan : QueryPlan} {s : Select} (h : ofPlan plan = .ok s) :
    plan.mask.relationships = [] ∧ plan.joins.mapM dialect.ofTraversal = .ok s.joins ∧
      plan.predicate.mapM ofPredicate = .ok s.condition ∧ s.columns = plan.columns ∧
      s.order = plan.pagination.order := by
  rw [ofPlan] at h
  cases hmask : plan.mask.relationships with
  | nil =>
    rw [hmask] at h
    obtain ⟨joins, hjoins, h⟩ := Except.bind_eq_ok_iff.1 h
    obtain ⟨condition, hcondition, h⟩ := Except.bind_eq_ok_iff.1 h
    cases h
    exact ⟨rfl, hjoins, hcondition, rfl, rfl⟩
  | cons field rest =>
    rw [hmask] at h
    cases h

/-- The read of a sound plan is regular. -/
theorem Select.regular_of_ofPlan {plan : QueryPlan} {s : Select} (hplan : plan.Sound)
    (h : ofPlan plan = .ok s) : s.Regular := by
  obtain ⟨-, hjoins, hcondition, -, -⟩ := ofPlan_eq_ok h
  refine ⟨fun e he => ?_, QueryPlan.regular_condition writes_dialect hplan hcondition⟩
  obtain ⟨via, -, hvia⟩ := Except.exists_of_mem_mapM hjoins he
  exact regular_elementsOf hvia

/-- Sound plans on documents with one statement fetch alike from the same start. -/
theorem fetchesLike_of_ofPieces_eq (t : Tables) {plan plan' : QueryPlan} {s s' : Select}
    (hplan : plan.Sound) (hplan' : plan'.Sound) (hs : Select.ofPlan plan = .ok s)
    (hs' : Select.ofPlan plan' = .ok s')
    (h : Statement.ofPieces s.pieces = Statement.ofPieces s'.pieces)
    (hobject : plan.object = plan'.object) (hbackend : plan.backend = plan'.backend)
    (hcontinuation : plan.pagination.continuation = plan'.pagination.continuation)
    (hlimit : plan.pagination.fetchLimit = plan'.pagination.fetchLimit) :
    t.FetchesLike plan plan' := by
  obtain ⟨hcolumns, hjoined, hconditions, horder⟩ :=
    (Select.regular_of_ofPlan hplan hs).same_of_ofPieces_eq (Select.regular_of_ofPlan hplan' hs') h
  obtain ⟨hshown, hjoins, hcondition, hmade, hordered⟩ := Select.ofPlan_eq_ok hs
  obtain ⟨hshown', hjoins', hcondition', hmade', hordered'⟩ := Select.ofPlan_eq_ok hs'
  rw [← hjoined] at hjoins'
  rw [← hconditions] at hcondition'
  exact {
    object := hobject
    backend := hbackend
    columns := by rw [← hmade, ← hmade', hcolumns]
    related := fun row columns => by
      rw [addRelated_eq_self t hshown, addRelated_eq_self t hshown']
    asks := QueryPlan.asks_eq (tells_dialect t) hplan hplan' (fun _ _ => trivial)
      (fun _ _ => trivial) hcondition hcondition' hjoins hjoins'
    sorting := by rw [← hordered, ← hordered', horder]
    continuation := hcontinuation
    fetchLimit := hlimit }

end RoleQuery.DocumentQuery
