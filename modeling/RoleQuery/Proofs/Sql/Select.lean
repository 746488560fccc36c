import RoleQuery.Proofs.Sql.Condition
import RoleQuery.Proofs.Sql.Documents

/-!
# Reading reads in SQL

The text of a read and its operands tell the read: the columns and documents it selects, the
tables it joins, its conditions and its ordering. Each part begins with a word of its own, and
ends where the next one begins.
-/
namespace RoleQuery.Sql

open Cell

variable {n : Nat} {k l : List Cell}

/-! ## What is selected -/

/-- A member of the rows that are selected, under its name. -/
def Member.selectedText : Member → String
  | .column c => c.text
  | .documents name r => r.text ++ " AS " ++ quote name

/-- A member of tables that statements name. -/
def Member.Regular : Member → Prop
  | .column c => IsTable c.table
  | .documents _ r => r.Regular

/-- Selected members are legible. -/
theorem legible_selected :
    Legible Member.Regular (Without '"') fun m => ofString m.selectedText := by
  intro n a b k l ha hb hk hl h
  cases a with
  | column c =>
    cases b with
    | column c' => rw [legible_column ha hb hk hl h]
    | documents name' r' =>
      obtain ⟨x, hx⟩ := exists_ofString_column ha
      obtain ⟨x', hx'⟩ := exists_ofString_documents r'
      simp [Member.selectedText, hx, hx'] at h
  | documents name r =>
    cases b with
    | column c' =>
      obtain ⟨x, hx⟩ := exists_ofString_documents r
      obtain ⟨x', hx'⟩ := exists_ofString_column hb
      simp [Member.selectedText, hx, hx'] at h
    | documents name' r' =>
      simp only [Member.selectedText, ofString_append, List.append_assoc] at h
      obtain ⟨rfl, m, h⟩ := legible_documents.read ha hb trivial trivial h
      rw [alike_ofString_append] at h
      rw [legible_quote trivial trivial hk hl h]

/-- A selected member begins with a table or a parenthesis. -/
theorem exists_ofString_selected {m : Member} (hm : m.Regular) :
    ∃ x, ofString m.selectedText = .char 't' :: x ∨ ofString m.selectedText = .char '(' :: x := by
  cases m with
  | column c =>
    obtain ⟨x, hx⟩ := exists_ofString_column hm
    exact ⟨x, .inl hx⟩
  | documents name r =>
    obtain ⟨x, hx⟩ := exists_ofString_documents r
    rw [Member.selectedText, ofString_append, ofString_append, hx]
    exact ⟨_, .inr rfl⟩

/-! ## Joins -/

theorem joinText_eq (r : Related) : Select.joinText r =
    " INNER JOIN " ++ (quoteObject r.object ++ " AS " ++ r.table ++ " ON " ++
      correlationText r.on) := by
  have h : Select.joinText r = " INNER JOIN " ++ quoteObject r.object ++ " AS " ++ r.table ++
      " ON " ++ correlationText r.on := rfl
  simp only [h, String.append_assoc]

/-- Joins are legible. -/
theorem legible_join : Legible Related.Regular EndsPairs fun r => ofString (Select.joinText r) := by
  intro n r r' k l hr hr' hk hl h
  simp only [joinText_eq, ofString_append " INNER JOIN ", List.append_assoc,
    alike_ofString_append] at h
  obtain ⟨hobject, htable, hon, -⟩ :=
    read_source (by simp [ofString]) hr.1 hr'.1 hr.2 hr'.2 hk hl h
  exact Related.eq_of_parts hobject htable hon

theorem endsPairs_join (r : Related) (x : List Cell) :
    EndsPairs (ofString (Select.joinText r) ++ x) := by
  rw [joinText_eq]
  exact endsPairs_of_first (by simp [ofString]) (by simp [ofString]) (by simp [ofString])

/-! ## Orderings -/

/-- The part of an ordering key that is written. -/
structure WrittenKey where
  column : String
  direction : SortDirection
  nullable : Bool

def WrittenKey.ofKey (key : OrderKey) : WrittenKey := ⟨key.column, key.direction, key.nullable⟩

/-- The text behind the column of an ordering key. -/
def WrittenKey.suffix (key : WrittenKey) : String :=
  key.direction.keyword ++
    (if key.nullable then
      match key.direction with
      | .asc => " NULLS FIRST"
      | .desc => " NULLS LAST"
    else "")

def WrittenKey.text (key : WrittenKey) : String :=
  (Column.mk rootName key.column).text ++ " " ++ key.suffix

theorem orderText_eq (key : OrderKey) : Select.orderText key = (WrittenKey.ofKey key).text := by
  rw [Select.orderText, String.append_assoc]
  rfl

/-- The text does not go on with a place for nulls. -/
def EndsKey (k : List Cell) : Prop := ∀ n x, ¬ Alike n k (.char ' ' :: .char 'N' :: x)

/-- Ordering keys are legible. -/
theorem legible_key :
    Legible (fun _ => True) EndsKey fun key : WrittenKey => ofString key.text := by
  rintro n ⟨column, direction, nullable⟩ ⟨column', direction', nullable'⟩ k l - - hk hl h
  simp only [WrittenKey.text, ofString_append _ (WrittenKey.suffix _), ofString_append _ " ",
    List.append_assoc] at h
  have hspace : ∀ x, Without '"' (ofString " " ++ x) := by simp [ofString]
  obtain ⟨hcolumn, m, h⟩ := legible_column.read isTable_rootName isTable_rootName (hspace _)
    (hspace _) h
  obtain rfl : column = column' := congrArg Column.name hcolumn
  rw [alike_ofString_append] at h
  cases direction <;> cases direction' <;> cases nullable <;> cases nullable' <;>
    simp [WrittenKey.suffix, SortDirection.keyword, ofString] at h ⊢
  case asc.asc.false.true => exact hk _ _ h
  case asc.asc.true.false => exact hl _ _ h.symm
  case desc.desc.false.true => exact hk _ _ h
  case desc.desc.true.false => exact hl _ _ h.symm

/-! ## Reads -/

/-- A read whose parts are written in one way only; its conditions are written like `cs`. -/
structure Select.Regular (s : Select) (cs : List Condition) : Prop where
  related : ∀ child ∈ s.related, child.2.Regular
  joins : ∀ r ∈ s.joins, r.Regular
  conditions : ∀ c ∈ cs, Sql.Regular c
  written : s.conditions.map (·.pieces dialect) = cs.map (·.pieces dialect)

def whereCells : List Condition → List Cell
  | [] => []
  | c :: rest => ofString " WHERE " ++
      (Piece.cells (c.pieces dialect) ++ RoleQuery.Condition.tail dialect " AND " rest)

def orderCells (order : List OrderKey) : List Cell :=
  ofString " ORDER BY " ++
    (separated ", " (fun key => ofString (WrittenKey.text key)) (order.map .ofKey) ++
      ofString " LIMIT ")

def Select.members (s : Select) : List Member := membersOf rootName s.columns s.related

theorem cells_where {conditions cs : List Condition}
    (h : conditions.map (·.pieces dialect) = cs.map (·.pieces dialect)) :
    Piece.cells (if conditions.isEmpty then []
      else .text " WHERE " :: Piece.intercalate " AND " (conditions.map (·.pieces dialect))) =
        whereCells cs := by
  have hlength : conditions.length = cs.length := by simpa using congrArg List.length h
  cases conditions with
  | nil =>
    obtain rfl := List.length_eq_zero_iff.1 hlength.symm
    rfl
  | cons c rest =>
    cases cs with
    | nil => cases hlength
    | cons c' rest' =>
      rw [h, ← RoleQuery.Condition.piecesAll_eq_map]
      simp only [List.isEmpty_cons, Bool.false_eq_true, ↓reduceIte, Piece.cells,
        RoleQuery.Condition.cells_intercalate_cons, whereCells]

theorem Select.Regular.cells_pieces {s : Select} {cs : List Condition} (hs : s.Regular cs) :
    Piece.cells s.pieces = ofString "SELECT " ++
      (separated ", " (fun m : Member => ofString m.selectedText) s.members ++
        (ofString " FROM " ++ (ofString (quoteObject s.object) ++ (ofString (" AS " ++ rootName) ++
          (s.joins.flatMap (fun r => ofString (joinText r)) ++ (whereCells cs ++
            (orderCells s.order ++ ofString (toString s.limit.toNat)))))))) := by
  have hmembers : (s.columns.map fun c => (Column.mk rootName c).text) ++
      (s.related.map fun child => child.2.text ++ " AS " ++ quote child.1) =
        s.members.map Member.selectedText := by
    simp [Select.members, membersOf, Function.comp_def, Member.selectedText]
  have hpieces : s.pieces =
      .text ("SELECT " ++ ", ".intercalate ((s.columns.map fun c => (Column.mk rootName c).text) ++
        (s.related.map fun child => child.2.text ++ " AS " ++ quote child.1)) ++ " FROM " ++
          (quoteObject s.object ++ " AS " ++ rootName ++ String.join (s.joins.map joinText))) ::
        (if s.conditions.isEmpty then []
        else .text " WHERE " :: Piece.intercalate " AND " (s.conditions.map (·.pieces dialect))) ++
        [.text (" ORDER BY " ++ ", ".intercalate (s.order.map orderText) ++ " LIMIT " ++
          toString s.limit.toNat)] := rfl
  rewrite [hpieces, hmembers, List.cons_append, Piece.cells, Piece.cells_append,
    cells_where hs.written]
  simp only [Piece.cells, ofString_append, ofString_intercalate, ofString_join, orderText_eq,
    orderCells, separated_map, List.append_assoc, List.append_nil]

/-- What follows the selected members is neither a member nor a separator before one. -/
theorem ends_selected :
    Ends Member.Regular (Without '"') (fun m => ofString m.selectedText) (ofString " FROM " ++ k) ∧
      Ends Member.Regular (Without '"') (fun m => ofString ", " ++ ofString m.selectedText)
        (ofString " FROM " ++ k) := by
  refine ⟨⟨by simp [ofString], fun n m x hm h => ?_⟩, ⟨by simp [ofString], fun n m x _ h => ?_⟩⟩
  · obtain ⟨z, hz | hz⟩ := exists_ofString_selected hm <;> rw [hz] at h <;> simp [ofString] at h
  · simp [ofString] at h

/-- What follows the joins is neither a join nor a further pair of columns of the last one. -/
theorem ends_joins (cs : List Condition) (order : List OrderKey) :
    Ends Related.Regular EndsPairs (fun r => ofString (Select.joinText r))
      (whereCells cs ++ (orderCells order ++ k)) := by
  refine ⟨?_, fun n r x _ h => ?_⟩
  · cases cs <;> exact endsPairs_of_first (by simp [whereCells, orderCells, ofString])
      (by simp [whereCells, orderCells, ofString]) (by simp [whereCells, orderCells, ofString])
  · rw [joinText_eq] at h
    cases cs <;> simp [whereCells, orderCells, ofString] at h

/-- Conditions are legible before an ordering. -/
theorem read_where {cs cs' : List Condition} {order order' : List OrderKey}
    (hcs : ∀ c ∈ cs, Regular c) (hcs' : ∀ c ∈ cs', Regular c)
    (h : Alike n (whereCells cs ++ (orderCells order ++ k))
      (whereCells cs' ++ (orderCells order' ++ l))) : cs = cs' := by
  cases cs with
  | nil =>
    cases cs' with
    | nil => rfl
    | cons c' rest' => simp [whereCells, orderCells, ofString] at h
  | cons c rest =>
    cases cs' with
    | nil => simp [whereCells, orderCells, ofString] at h
    | cons c' rest' =>
      rw [List.forall_mem_cons] at hcs hcs'
      simp only [whereCells, List.append_assoc, alike_ofString_append] at h
      obtain rfl := RoleQuery.Condition.eq_of_alike legible_dialect c c' hcs.1 hcs'.1 h
      obtain ⟨m, h⟩ := h.append_left
      have hend : ∀ order n x (j : List Cell),
          ¬ Alike n (orderCells order ++ j) (ofString " AND " ++ x) := by
        simp [orderCells, ofString]
      rw [RoleQuery.Condition.eq_of_alike_tail legible_dialect " AND " rest rest'
        (RoleQuery.Condition.regularAll_iff.2 hcs.2) (RoleQuery.Condition.regularAll_iff.2 hcs'.2)
        (fun n x => hend _ n x _) (fun n x => hend _ n x _) h]

/-- What is written of orderings is legible. -/
theorem read_order {order order' : List OrderKey}
    (h : Alike n (orderCells order ++ k) (orderCells order' ++ l)) :
    order.map WrittenKey.ofKey = order'.map WrittenKey.ofKey := by
  simp only [orderCells, List.append_assoc, alike_ofString_append] at h
  have hends : ∀ j, Ends (fun _ : WrittenKey => True) EndsKey (fun key => ofString key.text)
      (ofString " LIMIT " ++ j) := by
    intro j
    refine ⟨fun n x halike => by simp [ofString] at halike, fun n key x _ halike => ?_⟩
    obtain ⟨z, hz⟩ := exists_ofString_column (c := ⟨rootName, key.column⟩) isTable_rootName
    rw [WrittenKey.text, ofString_append, ofString_append, hz] at halike
    simp [ofString] at halike
  have hends' : ∀ j, Ends (fun _ : WrittenKey => True) EndsKey
      (fun key => ofString ", " ++ ofString key.text) (ofString " LIMIT " ++ j) := by
    intro j
    refine ⟨fun n x halike => by simp [ofString] at halike, fun n key x _ halike => ?_⟩
    simp [ofString] at halike
  have hcomma : ∀ x, EndsKey (ofString ", " ++ x) := by
    intro x n y halike
    simp [ofString] at halike
  exact legible_key.separated hcomma (fun _ _ => trivial) (fun _ _ => trivial) (hends k) (hends l)
    (hends' k) (hends' l) h

/-- Reads with one statement select the same of the same tables under the same conditions
and in the same order. -/
theorem Select.Regular.same_of_ofPieces_eq {s s' : Select} {cs cs' : List Condition}
    (hs : s.Regular cs) (hs' : s'.Regular cs')
    (h : Statement.ofPieces s.pieces = Statement.ofPieces s'.pieces) :
    s.columns = s'.columns ∧ s.related = s'.related ∧ s.object = s'.object ∧ s.joins = s'.joins ∧
      cs = cs' ∧ s.order.map WrittenKey.ofKey = s'.order.map WrittenKey.ofKey := by
  have halike := Statement.alike_of_ofPieces_eq h
  simp only [hs.cells_pieces, hs'.cells_pieces, alike_ofString_append] at halike
  have hmembers : ∀ {s : Select} {cs}, s.Regular cs → ∀ m ∈ s.members, m.Regular := by
    intro s cs hs m hm
    rcases List.mem_append.1 hm with hm | hm
    · obtain ⟨c, -, rfl⟩ := List.mem_map.1 hm
      exact isTable_rootName
    · obtain ⟨child, hchild, rfl⟩ := List.mem_map.1 hm
      exact hs.related child hchild
  have hshown : s.members = s'.members :=
    legible_selected.separated (fun x => by simp [ofString]) (hmembers hs) (hmembers hs')
      ends_selected.1 ends_selected.1 ends_selected.2 ends_selected.2 halike
  obtain ⟨hcolumns, hrelated⟩ := eq_of_membersOf_eq hshown
  rw [hshown] at halike
  obtain ⟨m, halike⟩ := halike.append_left
  rw [alike_ofString_append] at halike
  have hspace : ∀ x, Stops (fun c => c = '"' ∨ c = '.') (ofString (" AS " ++ rootName) ++ x) := by
    simp [ofString]
  obtain ⟨hobject, m, halike⟩ :=
    legible_quoteObject.read trivial trivial (hspace _) (hspace _) halike
  rw [alike_ofString_append] at halike
  have hjoins : s.joins = s'.joins :=
    legible_join.flatMap (fun r x _ => endsPairs_join r x) hs.joins hs'.joins (ends_joins _ _)
      (ends_joins _ _) halike
  rw [hjoins] at halike
  obtain ⟨m, halike⟩ := halike.append_left
  have hconditions : cs = cs' := read_where hs.conditions hs'.conditions halike
  rw [hconditions] at halike
  obtain ⟨m, halike⟩ := halike.append_left
  exact ⟨hcolumns, hrelated, hobject, hjoins, hconditions, read_order halike⟩

end RoleQuery.Sql
