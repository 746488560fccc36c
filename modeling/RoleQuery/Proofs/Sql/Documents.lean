import RoleQuery.Proofs.Sql.Names
import RoleQuery.Sql.Select

/-!
# Reading sub-selects

A sub-select builds documents from related rows, with further sub-selects among their
members. Its text tells it, however deep they are nested: a member is a column or a
sub-select, and these begin differently; the members end at a parenthesis where another
member would need a comma.
-/
namespace RoleQuery.Sql

open Cell

variable {n : Nat} {k l : List Cell}

/-- A member of a document: a column, or the documents inside. -/
inductive Member where
  | column (c : Column)
  | documents (name : String) (r : RelatedDocuments)

def Member.name : Member → String
  | .column c => c.name
  | .documents name _ => name

def Member.value : Member → String
  | .column c => c.text
  | .documents _ r => r.text

def Member.text (m : Member) : String := "'" ++ escapeLiteral m.name ++ "', " ++ m.value

theorem Member.ofString_text (m : Member) : ofString m.text =
    ofString ("'" ++ escapeLiteral m.name ++ "'") ++ (ofString ", " ++ ofString m.value) := by
  simp [Member.text, ofString]

/-- Columns of a table, and then documents by name, as members. -/
def membersOf (table : String) (columns : List String)
    (children : List (String × RelatedDocuments)) : List Member :=
  columns.map (fun c => .column ⟨table, c⟩) ++ children.map fun child => .documents child.1 child.2

/-- Members tell the columns and the documents. -/
theorem eq_of_membersOf_eq {table table' : String} {columns columns' : List String}
    {children children' : List (String × RelatedDocuments)}
    (h : membersOf table columns children = membersOf table' columns' children') :
    columns = columns' ∧ children = children' := by
  have hcolumns : ∀ table columns children, (membersOf table columns children).filterMap (fun
      | .column c => some c.name
      | .documents _ _ => none) = columns := by
    simp [membersOf, List.filterMap_append, List.filterMap_map]
  have hchildren : ∀ table columns children, (membersOf table columns children).filterMap (fun
      | .column _ => none
      | .documents name r => some (name, r)) = children := by
    simp [membersOf, List.filterMap_append, List.filterMap_map]
  exact ⟨by rw [← hcolumns table columns children, h, hcolumns],
    by rw [← hchildren table columns children, h, hchildren]⟩

/-- The members of the documents that a sub-select builds. -/
def RelatedDocuments.members (r : RelatedDocuments) : List Member :=
  membersOf r.table r.columns r.children

theorem childTexts_eq_map (children : List (String × RelatedDocuments)) :
    childTexts children = children.map fun child => (Member.documents child.1 child.2).text := by
  induction children with
  | nil => rfl
  | cons child rest ih =>
    rw [childTexts, ih]
    rfl

/-- What stands before the members of documents. -/
def opening : Cardinality → String
  | .many => "(SELECT COALESCE(jsonb_agg(jsonb_build_object("
  | .one => "(SELECT jsonb_build_object("

/-- What stands between the members of documents and the table that they are built from. -/
def middle : Cardinality → String
  | .many => ")), '[]'::jsonb) FROM "
  | .one => ") FROM "

/-- What stands behind the table that documents are built from. -/
def closing : Cardinality → String
  | .many => ")"
  | .one => " LIMIT 1)"

/-- The table that documents are built from, and how its rows are related. -/
def sourceText (r : RelatedDocuments) : String :=
  quoteObject r.object ++ " AS " ++ r.table ++ " WHERE " ++ correlationText r.on

theorem RelatedDocuments.text_eq (r : RelatedDocuments) : r.text =
    match r.cardinality with
    | .many => "(SELECT COALESCE(jsonb_agg(" ++ documentText (r.members.map Member.text) ++
        "), '[]'::jsonb)" ++ (" FROM " ++ sourceText r) ++ ")"
    | .one => "(SELECT " ++ documentText (r.members.map Member.text) ++
        (" FROM " ++ sourceText r) ++ " LIMIT 1)" := by
  obtain ⟨cardinality, object, table, columns, children, on⟩ := r
  have hmembers :
      (columns.map fun c => "'" ++ escapeLiteral c ++ "', " ++ (Column.mk table c).text) ++
        childTexts children =
          (RelatedDocuments.members ⟨cardinality, object, table, columns, children, on⟩).map
            Member.text := by
    simp [childTexts_eq_map, RelatedDocuments.members, membersOf, Function.comp_def, Member.text,
      Member.name, Member.value]
  have hsource : " FROM " ++ quoteObject object ++ " AS " ++ table ++ " WHERE " ++
      correlationText on =
        " FROM " ++ sourceText ⟨cardinality, object, table, columns, children, on⟩ := by
    simp only [sourceText, String.append_assoc]
  rewrite [← hmembers, ← hsource]
  cases cardinality with
  | many => rfl
  | one => rfl

theorem documentText_eq (members : List String) :
    documentText members = "jsonb_build_object(" ++ ", ".intercalate members ++ ")" := rfl

theorem ofString_documents (r : RelatedDocuments) :
    ofString r.text = ofString (opening r.cardinality) ++
      (separated ", " (fun m : Member => ofString m.text) r.members ++
        (ofString (middle r.cardinality) ++
          (ofString (sourceText r) ++ ofString (closing r.cardinality)))) := by
  rewrite [r.text_eq, ← ofString_intercalate]
  cases r.cardinality with
  | many => simp [documentText_eq, opening, middle, closing, ofString]
  | one => simp [documentText_eq, opening, middle, closing, ofString]

/-- A sub-select begins with a parenthesis. -/
theorem exists_ofString_documents (r : RelatedDocuments) :
    ∃ x, ofString r.text = .char '(' :: x := by
  rw [ofString_documents]
  cases r.cardinality <;> exact ⟨_, rfl⟩

/-- A sub-select of tables that statements name. -/
inductive RelatedDocuments.Regular : RelatedDocuments → Prop
  | mk {cardinality : Cardinality} {object table : String} {columns : List String}
      {children : List (String × RelatedDocuments)} {on : List (Column × Column)}
      (htable : IsTable table) (hchildren : ∀ child ∈ children, child.2.Regular)
      (hon : ∀ pair ∈ on, BetweenTables pair) :
      RelatedDocuments.Regular ⟨cardinality, object, table, columns, children, on⟩

/-- A member of regular documents that are smaller than a bound. -/
def Member.RegularBelow (bound : Nat) : Member → Prop
  | .column c => IsTable c.table
  | .documents _ r => r.Regular ∧ sizeOf r < bound

/-- What is inside is smaller. -/
theorem sizeOf_child_lt {r : RelatedDocuments} {child : String × RelatedDocuments}
    (h : child ∈ r.children) : sizeOf child.2 < sizeOf r := by
  have hlist := List.sizeOf_lt_of_mem h
  cases r
  cases child
  simp at hlist ⊢
  omega

theorem RelatedDocuments.Regular.members {r : RelatedDocuments} (hr : r.Regular) {bound : Nat}
    (hbound : sizeOf r ≤ bound) : ∀ m ∈ r.members, m.RegularBelow bound := by
  intro m hm
  have hsmaller : ∀ child ∈ r.children, sizeOf child.2 < bound :=
    fun child hchild => Nat.lt_of_lt_of_le (sizeOf_child_lt hchild) hbound
  cases hr with
  | mk htable hchildren hon =>
    rcases List.mem_append.1 hm with hm | hm
    · obtain ⟨c, -, rfl⟩ := List.mem_map.1 hm
      exact htable
    · obtain ⟨child, hchild, rfl⟩ := List.mem_map.1 hm
      exact ⟨hchildren child hchild, hsmaller child hchild⟩

/-- Members are legible if smaller sub-selects are. -/
theorem legible_member {bound : Nat}
    (hdocuments : Legible (fun r : RelatedDocuments => r.Regular ∧ sizeOf r < bound)
      (fun _ => True) fun r => ofString r.text) :
    Legible (Member.RegularBelow bound) (Without '"') fun m => ofString m.text := by
  intro n a b k l ha hb hk hl h
  simp only [Member.ofString_text, List.append_assoc] at h
  have hcomma : ∀ x, Without '\'' (ofString ", " ++ x) := by simp [ofString]
  obtain ⟨hname, m, h⟩ := legible_literal.read trivial trivial (hcomma _) (hcomma _) h
  rw [alike_ofString_append] at h
  cases a with
  | column c =>
    cases b with
    | column c' => rw [legible_column ha hb hk hl h]
    | documents name' r' =>
      obtain ⟨x, hx⟩ := exists_ofString_column ha
      obtain ⟨x', hx'⟩ := exists_ofString_documents r'
      simp [Member.value, hx, hx'] at h
  | documents name r =>
    cases b with
    | column c' =>
      obtain ⟨x, hx⟩ := exists_ofString_documents r
      obtain ⟨x', hx'⟩ := exists_ofString_column hb
      simp [Member.value, hx, hx'] at h
    | documents name' r' =>
      obtain rfl : name = name' := hname
      rw [hdocuments ha hb trivial trivial h]

/-- What follows members is neither a member nor a separator before one. -/
theorem ends_members (bound : Nat) (cardinality : Cardinality) :
    Ends (Member.RegularBelow bound) (Without '"') (fun m => ofString m.text)
        (ofString (middle cardinality) ++ k) ∧
      Ends (Member.RegularBelow bound) (Without '"') (fun m => ofString ", " ++ ofString m.text)
        (ofString (middle cardinality) ++ k) := by
  refine ⟨⟨?_, fun n m x _ h => ?_⟩, ⟨?_, fun n m x _ h => ?_⟩⟩
  · cases cardinality <;> simp [middle, ofString]
  · cases cardinality <;> simp [middle, Member.text, ofString] at h
  · cases cardinality <;> simp [middle, ofString]
  · cases cardinality <;> simp [middle, ofString] at h

theorem endsPairs_closing (cardinality : Cardinality) :
    EndsPairs (ofString (closing cardinality) ++ k) := by
  cases cardinality <;> exact endsPairs_of_first (by simp [closing, ofString])
    (by simp [closing, ofString]) (by simp [closing, ofString])

/-- Sub-selects are legible. -/
theorem legible_documents :
    Legible RelatedDocuments.Regular (fun _ => True) fun r => ofString r.text := by
  have hbelow : ∀ bound, Legible (fun r : RelatedDocuments => r.Regular ∧ sizeOf r < bound)
      (fun _ => True) fun r => ofString r.text := by
    intro bound
    induction bound with
    | zero => exact fun n a b k l ha => absurd ha.2 (Nat.not_lt_zero _)
    | succ bound ih =>
      rintro n r r' k l ⟨hr, hsize⟩ ⟨hr', hsize'⟩ - - h
      have hmembers := hr.members (Nat.le_of_lt_succ hsize)
      have hmembers' := hr'.members (Nat.le_of_lt_succ hsize')
      simp only [ofString_documents, List.append_assoc] at h
      have hcardinality : r.cardinality = r'.cardinality := by
        cases hr : r.cardinality <;> cases hr' : r'.cardinality <;>
          simp [hr, hr', opening, ofString] at h ⊢
      rw [hcardinality, alike_ofString_append] at h
      have hsame : r.members = r'.members :=
        (legible_member ih).separated (fun x => by simp [ofString]) hmembers hmembers'
          (ends_members bound _).1 (ends_members bound _).1 (ends_members bound _).2
          (ends_members bound _).2 h
      obtain ⟨hcolumns, hchildren⟩ := eq_of_membersOf_eq hsame
      rw [hsame] at h
      obtain ⟨m, h⟩ := h.append_left
      rw [alike_ofString_append] at h
      cases hr with
      | mk htable hinside hon =>
        cases hr' with
        | mk htable' hinside' hon' =>
          obtain ⟨hobject, htables, hpairs, -⟩ := read_source (by simp [ofString]) htable htable'
            hon hon' (endsPairs_closing _) (endsPairs_closing _) h
          cases hcardinality
          cases hcolumns
          cases hchildren
          cases hobject
          cases htables
          cases hpairs
          rfl
  intro n r r' k l hr hr' _ _ h
  exact hbelow (max (sizeOf r) (sizeOf r') + 1) ⟨hr, by omega⟩ ⟨hr', by omega⟩ trivial trivial h

end RoleQuery.Sql
