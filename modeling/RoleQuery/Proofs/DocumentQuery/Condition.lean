import RoleQuery.Proofs.DocumentQuery.Paths
import RoleQuery.Proofs.Predicate.Written
import RoleQuery.Tables.Basic

/-!
# Reading conditions on documents

A comparison of a value is its path and an operand, or a function of both. Paths begin in
small letters and functions in capitals, so comparisons can be told from each other and
from everything else. What is written tells what it means: the path tells where a value is
found, the sign or the function tells the comparison, and the list of a traversal tells
the elements it reaches.
-/
namespace RoleQuery.DocumentQuery

open Cell

variable {n : Nat} {k l : List Cell}

/-- The path to a value in a document. -/
def IsPath (path : String) : Prop :=
  ∃ scope segments, path = propertyPath (scopeName scope) segments

theorem legible_path : Legible IsPath PathEnds fun path => ofString path := by
  rintro n _ _ k l ⟨scope, segments, rfl⟩ ⟨scope', segments', rfl⟩ hk hl h
  obtain ⟨rfl, rfl, -⟩ := read_path hk hl h
  rfl

/-- A path begins with the name of a scope. -/
theorem exists_ofString_path {path : String} (h : IsPath path) :
    ∃ x, ofString path = .char 'c' :: x ∨ ofString path = .char 't' :: .char 'a' :: x := by
  obtain ⟨scope, segments, rfl⟩ := h
  rw [propertyPath, ofString_append]
  cases scope with
  | root => exact ⟨_, .inl rfl⟩
  | bound a =>
    simp only [scopeName, ofString_aliasName]
    exact ⟨_, .inr rfl⟩

/-! ## Comparisons -/

/-- The functions of a value and a text. -/
def functions : List String := textComparisons.map Comparison.sign

/-- A comparison of the value at a path. -/
def Atom.Regular : Atom → Prop
  | .compare path sign _ => IsPath path ∧ sign ∈ signs
  | .call function path _ => IsPath path ∧ function ∈ functions
  | .isNull path => IsPath path

/-- A list in a document under the name of its elements. -/
def Elements.Regular (e : Elements) : Prop := (∃ a, e.name = aliasName a) ∧ IsPath e.list

theorem cells_compare (path sign : String) (v : Value) :
    Piece.cells (Atom.compare path sign v).pieces =
      ofString path ++ (ofString " " ++ (ofString (sign ++ " ") ++ [.hole v])) := by
  simp [Atom.pieces, Piece.cells]

theorem cells_call (function path : String) (v : Value) :
    Piece.cells (Atom.call function path v).pieces =
      ofString function ++ (ofString "(" ++ (ofString path ++ (ofString ", " ++
        (.hole v :: ofString ")")))) := by
  simp [Atom.pieces, Piece.cells]

theorem cells_isNull (path : String) : Piece.cells (Atom.isNull path).pieces =
    .char 'I' :: (ofString "S_NULL(" ++ (ofString path ++ ofString ")")) := by
  have h : (Atom.isNull path).pieces = [.text ("IS_NULL(" ++ path ++ ")")] := rfl
  rw [h]
  simp [Piece.cells, ofString]

theorem eq_of_mem_functions {function : String} (h : function ∈ functions) :
    function = "CONTAINS" ∨ function = "STARTSWITH" ∨ function = "ENDSWITH" := by
  have hall : ∀ f ∈ functions, f = "CONTAINS" ∨ f = "STARTSWITH" ∨ f = "ENDSWITH" := by decide
  exact hall function h

/-- A function begins with a capital. -/
theorem exists_ofString_function {function : String} (h : function ∈ functions) :
    ∃ x, ofString function = .char 'C' :: x ∨ ofString function = .char 'S' :: x ∨
      ofString function = .char 'E' :: .char 'N' :: x := by
  rcases eq_of_mem_functions h with rfl | rfl | rfl
  · exact ⟨_, .inl rfl⟩
  · exact ⟨_, .inr (.inl rfl)⟩
  · exact ⟨_, .inr (.inr rfl)⟩

/-- A function is legible. -/
theorem legible_function :
    Legible (· ∈ functions) (fun _ => True) fun function => ofString function := by
  intro n f f' k l hf hf' _ _ h
  rcases eq_of_mem_functions hf with rfl | rfl | rfl <;>
    rcases eq_of_mem_functions hf' with rfl | rfl | rfl <;> simp [ofString] at h ⊢

theorem pathEnds_space {x : List Cell} : PathEnds (ofString " " ++ x) := by
  simp [ofString, continuesIdentifier, startsIdentifier]

theorem pathEnds_comma {x : List Cell} : PathEnds (ofString ", " ++ x) := by
  simp [ofString, continuesIdentifier, startsIdentifier]

theorem pathEnds_paren {x : List Cell} : PathEnds (ofString ")" ++ x) := by
  simp [ofString, continuesIdentifier, startsIdentifier]

/-- What comparisons begin with. -/
def beginnings : List (List Char) := [['c'], ['t', 'a'], ['C'], ['S'], ['E', 'N'], ['I']]

theorem exists_cells_atom {a : Atom} (ha : a.Regular) :
    ∃ p ∈ beginnings, ∃ x, Piece.cells (dialect.atom a) = ofChars p ++ x := by
  cases a with
  | compare path sign v =>
    have hcells : Piece.cells (dialect.atom (.compare path sign v)) = _ := cells_compare path sign v
    obtain ⟨x, hx | hx⟩ := exists_ofString_path ha.1
    · exact ⟨['c'], by decide, _, by rw [hcells, hx]; rfl⟩
    · exact ⟨['t', 'a'], by decide, _, by rw [hcells, hx]; rfl⟩
  | call function path v =>
    have hcells : Piece.cells (dialect.atom (.call function path v)) = _ :=
      cells_call function path v
    obtain ⟨x, hx | hx | hx⟩ := exists_ofString_function ha.2
    · exact ⟨['C'], by decide, _, by rw [hcells, hx]; rfl⟩
    · exact ⟨['S'], by decide, _, by rw [hcells, hx]; rfl⟩
    · exact ⟨['E', 'N'], by decide, _, by rw [hcells, hx]; rfl⟩
  | isNull path => exact ⟨['I'], by decide, _, cells_isNull path⟩

/-- Nothing that begins otherwise is a comparison. -/
theorem not_alike_atom {a : Atom} (ha : a.Regular)
    (hx : ∀ p ∈ beginnings, ∀ y, ¬ Alike n (ofChars p ++ y) l) :
    ¬ Alike n (Piece.cells (dialect.atom a) ++ k) l := by
  intro h
  obtain ⟨p, hp, x, hcells⟩ := exists_cells_atom ha
  rw [hcells, List.append_assoc] at h
  exact hx p hp _ h

/-- Comparisons are legible. -/
theorem legible_atom :
    Legible Atom.Regular (fun _ => True) fun a => Piece.cells a.pieces := by
  intro n a b k l ha hb _ _ h
  cases a with
  | compare path sign v =>
    simp only [cells_compare, List.append_assoc] at h
    cases b with
    | compare path' sign' v' =>
      simp only [cells_compare, List.append_assoc] at h
      obtain ⟨rfl, m, h⟩ := legible_path.read ha.1 hb.1 pathEnds_space pathEnds_space h
      rw [alike_ofString_append] at h
      obtain ⟨rfl, m, h⟩ :=
        read_word (not_mem_of_mem_signs ha.2) (not_mem_of_mem_signs hb.2) h
      rw [(alike_hole_hole.1 h).1]
    | call function' path' v' =>
      simp only [cells_call, List.append_assoc] at h
      obtain ⟨x, hx | hx⟩ := exists_ofString_path ha.1 <;>
        obtain ⟨y, hy | hy | hy⟩ := exists_ofString_function hb.2 <;> simp [hx, hy] at h
    | isNull path' =>
      simp only [cells_isNull] at h
      obtain ⟨x, hx | hx⟩ := exists_ofString_path ha.1 <;> simp [hx] at h
  | call function path v =>
    simp only [cells_call, List.append_assoc] at h
    cases b with
    | compare path' sign' v' =>
      simp only [cells_compare, List.append_assoc] at h
      obtain ⟨x, hx | hx | hx⟩ := exists_ofString_function ha.2 <;>
        obtain ⟨y, hy | hy⟩ := exists_ofString_path hb.1 <;> simp [hx, hy] at h
    | call function' path' v' =>
      simp only [cells_call, List.append_assoc] at h
      obtain ⟨rfl, m, h⟩ := legible_function.read ha.2 hb.2 trivial trivial h
      rw [alike_ofString_append] at h
      obtain ⟨rfl, m, h⟩ := legible_path.read ha.1 hb.1 pathEnds_comma pathEnds_comma h
      rw [alike_ofString_append] at h
      rw [(alike_hole_hole.1 h).1]
    | isNull path' =>
      simp only [cells_isNull] at h
      obtain ⟨x, hx | hx | hx⟩ := exists_ofString_function ha.2 <;> simp [hx] at h
  | isNull path =>
    simp only [cells_isNull] at h
    cases b with
    | compare path' sign' v' =>
      simp only [cells_compare, List.append_assoc] at h
      obtain ⟨x, hx | hx⟩ := exists_ofString_path hb.1 <;> simp [hx] at h
    | call function' path' v' =>
      simp only [cells_call, List.append_assoc] at h
      obtain ⟨x, hx | hx | hx⟩ := exists_ofString_function hb.2 <;> simp [hx] at h
    | isNull path' =>
      simp only [cells_isNull, List.cons_append, alike_char_char, true_and, List.append_assoc,
        alike_ofString_append] at h
      rw [legible_path ha hb pathEnds_paren pathEnds_paren h]

/-! ## Traversals -/

theorem ofString_head (e : Elements) : ofString (dialect.head e) =
    .char 'E' :: .char 'X' :: (ofString "ISTS (SELECT VALUE 1 FROM " ++ (ofString e.name ++
      (ofString " IN " ++ (ofString e.list ++ ofString " WHERE ")))) := by
  have h : dialect.head e =
      "EXISTS (SELECT VALUE 1 FROM " ++ e.name ++ " IN " ++ e.list ++ " WHERE " := rfl
  rw [h]
  simp [ofString]

/-- Elements and their lists are legible. -/
theorem read_elements {e e' : Elements} (he : e.Regular) (he' : e'.Regular) (hk : PathEnds k)
    (hl : PathEnds l) (h : Alike n (ofString e.name ++ (ofString " IN " ++ (ofString e.list ++ k)))
      (ofString e'.name ++ (ofString " IN " ++ (ofString e'.list ++ l)))) :
    e = e' ∧ ∃ m, Alike m k l := by
  obtain ⟨⟨a, ha⟩, hlist⟩ := he
  obtain ⟨⟨a', ha'⟩, hlist'⟩ := he'
  have hdigit : ∀ x, Stops (fun c => c.isDigit) (ofString " IN " ++ x) := by simp [ofString]
  have hname : ∀ a, aliasName a = scopeName (.bound a) := fun _ => rfl
  rw [ha, ha', hname, hname] at h
  obtain ⟨hscope, m, hrest⟩ := legible_scope.read trivial trivial (hdigit _) (hdigit _) h
  obtain rfl := Scope.bound.inj hscope
  rw [alike_ofString_append] at hrest
  obtain ⟨hsame, hend⟩ := legible_path.read hlist hlist' hk hl hrest
  cases e
  cases e'
  cases ha
  cases ha'
  cases hsame
  exact ⟨rfl, hend⟩

/-- Comparisons and traversals of documents can be told apart. -/
theorem legible_dialect : dialect.Legible Atom.Regular Elements.Regular where
  truth := by
    intro n b b' k l _ _ _ _ h
    cases b <;> cases b' <;> simp [dialect, ofString] at h ⊢
  atom := legible_atom
  head := by
    intro n e e' c c' k l he he' _ _ h
    simp only [ofString_head, List.cons_append, alike_char_char, true_and, List.append_assoc,
      alike_ofString_append] at h
    have hend : ∀ x, PathEnds (ofString " WHERE " ++ x) := by
      simp [ofString, continuesIdentifier, startsIdentifier]
    exact (read_elements he he' (hend _) (hend _) h).1
  truth_atom := by
    intro n b a k l ha h
    refine not_alike_atom ha ?_ h.symm
    cases b <;> simp [beginnings, dialect, ofString]
  truth_head := by
    intro n b e k l _ h
    rw [ofString_head] at h
    cases b <;> simp [dialect, ofString] at h
  truth_paren := by
    intro n b k l h
    cases b <;> simp [dialect, ofString] at h
  truth_not := by
    intro n b k l h
    cases b <;> simp [dialect, ofString] at h
  atom_head := by
    intro n a e k l ha _ h
    rw [ofString_head] at h
    exact not_alike_atom ha (by simp [beginnings]) h
  atom_paren := by
    intro n a c k l ha _ h
    exact not_alike_atom ha (by simp [beginnings, ofString]) h
  atom_not := by
    intro n a k l ha h
    exact not_alike_atom ha (by simp [beginnings, ofString]) h
  head_paren := by
    intro n e k l _ h
    rw [ofString_head] at h
    simp [ofString] at h
  head_not := by
    intro n e k l _ h
    rw [ofString_head] at h
    simp [ofString] at h


/-! ## Compiled predicates -/

/-- What is made of a comparison of the value at a path. -/
inductive LeafForm (path : String) : Comparison → Option Value → Atom → Prop
  | isNull : LeafForm path .isNull none (.isNull path)
  | call {c : Comparison} {v : Value} {function : String} (hc : c ∈ textComparisons)
      (hfunction : function = c.sign) : LeafForm path c (some v) (.call function path v)
  | compare {c : Comparison} {v : Value} {sign : String} (hc : c ∈ valueComparisons)
      (hsign : sign = c.sign) : LeafForm path c (some v) (.compare path sign v)

/-- A comparison has one of the forms. -/
theorem leafForm_ofLeaf (path : ColumnPath) {c : Comparison} {operand : Option Value}
    (htakes : c.Takes operand) :
    LeafForm (propertyPath (scopeName path.scope) path.segments) c operand
      (ofLeaf path c operand) := by
  rcases htakes.cases with ⟨rfl, rfl⟩ | ⟨hc, s, rfl⟩ | ⟨hc, v, rfl⟩
  · exact .isNull
  · cases c <;> first | exact absurd hc (by decide) | exact .call hc rfl
  · cases c <;> first | exact absurd hc (by decide) | exact .compare hc rfl

theorem LeafForm.regular {path : String} {c : Comparison} {operand : Option Value} {a : Atom}
    (h : LeafForm path c operand a) (hpath : IsPath path) : a.Regular := by
  cases h with
  | isNull => exact hpath
  | call hc hfunction => exact ⟨hpath, hfunction ▸ List.mem_map_of_mem hc⟩
  | compare hc hsign => exact ⟨hpath, hsign ▸ List.mem_map_of_mem hc⟩

/-- A form tells its path, its comparison and its operand. -/
theorem LeafForm.unique {path path' : String} {c c' : Comparison}
    {operand operand' : Option Value} {a : Atom} (h : LeafForm path c operand a)
    (h' : LeafForm path' c' operand' a) : path = path' ∧ c = c' ∧ operand = operand' := by
  have htext : ∀ c ∈ textComparisons, ∀ c' ∈ textComparisons, c.sign = c'.sign → c = c' := by
    decide
  have hvalue : ∀ c ∈ valueComparisons, ∀ c' ∈ valueComparisons, c.sign = c'.sign → c = c' := by
    decide
  cases h with
  | isNull =>
    cases h'
    exact ⟨rfl, rfl, rfl⟩
  | call hc hfunction =>
    cases h' with
    | call hc' hfunction' =>
      exact ⟨rfl, htext _ hc _ hc' (hfunction.symm.trans hfunction'), rfl⟩
  | compare hc hsign =>
    cases h' with
    | compare hc' hsign' => exact ⟨rfl, hvalue _ hc _ hc' (hsign.symm.trans hsign'), rfl⟩

theorem elementsOf_eq_ok {via : Traversal} {e : Elements} (h : elementsOf via = .ok e) :
    via.link = none ∧
      e = ⟨aliasName via.binder, propertyPath (scopeName via.parent) via.path⟩ := by
  rw [elementsOf] at h
  cases hlink : via.link with
  | some link =>
    rw [hlink] at h
    cases h
  | none =>
    rw [hlink] at h
    cases h
    exact ⟨rfl, rfl⟩

theorem regular_elementsOf {via : Traversal} {e : Elements} (h : elementsOf via = .ok e) :
    e.Regular := by
  obtain ⟨-, rfl⟩ := elementsOf_eq_ok h
  exact ⟨⟨via.binder, rfl⟩, via.parent, via.path, rfl⟩

/-- The condition of a compiled predicate is a regular one. -/
theorem writes_dialect : dialect.Writes Atom.Regular Elements.Regular where
  atom := by
    intro path c operand a htakes _ ha
    cases ha
    exact (leafForm_ofLeaf path htakes).regular ⟨path.scope, path.segments, rfl⟩
  head := fun _ _ _ he => regular_elementsOf he

/-- What is written of documents tells what it means. -/
theorem tells_dialect (t : Tables) : dialect.Tells t.resolver fun _ => True where
  leaf := by
    intro path path' c c' operand operand' a htakes htakes' _ _ _ ha ha'
    have hform := leafForm_ofLeaf path htakes
    have hform' := leafForm_ofLeaf path' htakes'
    rw [Except.ok.inj ha] at hform
    rw [Except.ok.inj ha'] at hform'
    obtain ⟨hpath, rfl, rfl⟩ := hform.unique hform'
    exact ⟨(propertyPath_inj hpath).2, fun _ => rfl⟩
  scope := by
    intro path path' c c' operand operand' a b htakes htakes' ha ha' hroot hbound _
    have hform := leafForm_ofLeaf path htakes
    have hform' := leafForm_ofLeaf path' htakes'
    rw [Except.ok.inj ha] at hform
    rw [Except.ok.inj ha'] at hform'
    have hscope := (propertyPath_inj (hform.unique hform').1).1
    rw [hroot, hbound] at hscope
    cases hscope
  traversal := by
    intro via via' e _ _ _ he he'
    obtain ⟨hlink, rfl⟩ := elementsOf_eq_ok he
    obtain ⟨hlink', hsame⟩ := elementsOf_eq_ok he'
    have hname : scopeName (.bound via.binder) = scopeName (.bound via'.binder) :=
      congrArg Elements.name hsame
    have hbinder : via.binder = via'.binder := Scope.bound.inj (scopeName_injective hname)
    obtain ⟨-, hpath⟩ := propertyPath_inj (congrArg Elements.list hsame)
    refine ⟨hbinder, fun row => ?_⟩
    rw [Traversal.rows, Traversal.rows, hlink, hlink', hpath]

end RoleQuery.DocumentQuery
