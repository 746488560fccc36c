import RoleQuery.Proofs.Filter.Meaning
import RoleQuery.Proofs.Sql.Pattern
import RoleQuery.Proofs.Text.Marking

/-!
# What patterns stand for

A pattern is read once, from left to right, into parts: any characters, any one character,
or a character that stands for itself. A pattern that ends in a single backslash cannot be
read. What the parts stand for is said without trying anything out, and a match finds it by
trying the ends of a text.

A marked text is read as the characters that it was before it was marked, so none of them
stands for anything else. The pattern of a text comparison therefore can always be read, and
it stands for the texts that contain the operand, or begin or end with it.
-/
namespace RoleQuery

/-- Whether a text comparison is true of a text. -/
def Comparison.admits (c : Comparison) (operand s : List Char) : Bool :=
  match c with
  | .contains => decide (operand <:+: s)
  | .startsWith => decide (operand <+: s)
  | .endsWith => decide (operand <:+ s)
  | _ => false

namespace Sql

/-- A part of a pattern. -/
inductive PatternPart where
  /-- Any characters, or none. -/
  | anyText
  /-- Any one character. -/
  | anyChar
  /-- A character that stands for itself. -/
  | only (c : Char)
  deriving DecidableEq, Repr

/-- The parts of a pattern. A backslash takes the character after it for itself, so it
cannot be the last one. -/
def patternParts? : List Char → Option (List PatternPart)
  | [] => some []
  | '%' :: p => (patternParts? p).map (.anyText :: ·)
  | '_' :: p => (patternParts? p).map (.anyChar :: ·)
  | ['\\'] => none
  | '\\' :: c :: p => (patternParts? p).map (.only c :: ·)
  | c :: p => (patternParts? p).map (.only c :: ·)

/-- The texts that parts stand for. -/
inductive Spells : List PatternPart → List Char → Prop
  | nil : Spells [] []
  | anyText {parts : List PatternPart} {s : List Char} (t : List Char) (h : Spells parts s) :
      Spells (.anyText :: parts) (t ++ s)
  | anyChar {parts : List PatternPart} {s : List Char} (c : Char) (h : Spells parts s) :
      Spells (.anyChar :: parts) (c :: s)
  | only {parts : List PatternPart} {s : List Char} (c : Char) (h : Spells parts s) :
      Spells (.only c :: parts) (c :: s)

variable {parts : List PatternPart} {s : List Char}

/-! ## What parts stand for -/

@[simp] theorem spells_nil_iff : Spells [] s ↔ s = [] := by
  constructor
  · rintro ⟨⟩
    rfl
  · rintro rfl
    exact .nil

@[simp] theorem spells_anyText_iff :
    Spells (.anyText :: parts) s ↔ ∃ t, t <:+ s ∧ Spells parts t := by
  constructor
  · intro h
    cases h with
    | anyText t h => exact ⟨_, List.suffix_append t _, h⟩
  · rintro ⟨_, ⟨t, rfl⟩, h⟩
    exact .anyText t h

@[simp] theorem spells_anyChar_iff :
    Spells (.anyChar :: parts) s ↔ ∃ c t, s = c :: t ∧ Spells parts t := by
  constructor
  · intro h
    cases h with
    | anyChar c h => exact ⟨c, _, rfl, h⟩
  · rintro ⟨c, t, rfl, h⟩
    exact .anyChar c h

@[simp] theorem spells_only_iff {c : Char} :
    Spells (.only c :: parts) s ↔ ∃ t, s = c :: t ∧ Spells parts t := by
  constructor
  · intro h
    cases h with
    | only c h => exact ⟨_, rfl, h⟩
  · rintro ⟨t, rfl, h⟩
    exact .only c h

/-- Characters that stand for themselves, before other parts. -/
theorem spells_map_only_append {x : List Char} :
    Spells (x.map .only ++ parts) s ↔ ∃ t, s = x ++ t ∧ Spells parts t := by
  induction x generalizing s with
  | nil => simp
  | cons c x ih => simp [ih]

theorem spells_map_only_iff {x : List Char} : Spells (x.map .only) s ↔ s = x := by
  rw [← List.append_nil (x.map _), spells_map_only_append]
  simp

/-- Characters that stand for themselves, and any characters after them. -/
theorem spells_map_only_anyText {x : List Char} :
    Spells (x.map .only ++ [.anyText]) s ↔ x <+: s := by
  rw [spells_map_only_append]
  constructor
  · rintro ⟨t, rfl, -⟩
    exact List.prefix_append x t
  · rintro ⟨t, rfl⟩
    exact ⟨t, rfl, spells_anyText_iff.2 ⟨[], List.nil_suffix, .nil⟩⟩

/-- A match finds what the parts of a pattern stand for. -/
theorem matchesPattern_iff_spells {p : List Char} (h : patternParts? p = some parts) :
    matchesPattern p s = true ↔ Spells parts s := by
  fun_induction patternParts? p generalizing parts s with
  | case1 =>
    cases h
    simp
  | case2 p ih =>
    obtain ⟨rest, hrest, rfl⟩ := Option.map_eq_some_iff.1 h
    simp [ih hrest]
  | case3 p ih =>
    obtain ⟨rest, hrest, rfl⟩ := Option.map_eq_some_iff.1 h
    cases s <;> simp [matchesPattern, ih hrest]
  | case4 => cases h
  | case5 c p ih =>
    obtain ⟨rest, hrest, rfl⟩ := Option.map_eq_some_iff.1 h
    cases s <;> simp [matchesPattern, ih hrest]
  | case6 c p hpercent hunderscore hlast hbackslash ih =>
    obtain ⟨rest, hrest, rfl⟩ := Option.map_eq_some_iff.1 h
    cases s <;> simp [matchesPattern, ih hrest]

/-! ## Patterns of text comparisons -/

/-- An escaped character is read as itself. -/
theorem patternParts?_escapePatternChar (c : Char) (p : List Char) :
    patternParts? (escapePatternChar c ++ p) = (patternParts? p).map (.only c :: ·) := by
  by_cases hc : c = '\\' ∨ c = '%' ∨ c = '_'
  · rw [escapePatternChar, if_pos hc]
    rfl
  · rw [escapePatternChar, if_neg hc, List.singleton_append]
    simp only [not_or] at hc
    obtain ⟨hbackslash, hpercent, hunderscore⟩ := hc
    rw [patternParts?]
    · exact hpercent
    · exact hunderscore
    · exact fun h _ => hbackslash h
    · exact fun _ _ h _ => hbackslash h

/-- An escaped text is read as its characters. -/
theorem patternParts?_escape (x p : List Char) :
    patternParts? (x.flatMap escapePatternChar ++ p) =
      (patternParts? p).map (x.map .only ++ ·) := by
  induction x with
  | nil => simp
  | cons c x ih =>
    rw [List.flatMap_cons, List.append_assoc, patternParts?_escapePatternChar, ih, Option.map_map]
    rfl

/-- The parts of the pattern of a text comparison. -/
def textParts (c : Comparison) (x : List Char) : List PatternPart :=
  match c with
  | .contains => .anyText :: (x.map .only ++ [.anyText])
  | .startsWith => x.map .only ++ [.anyText]
  | _ => .anyText :: x.map .only

/-- The pattern of a text comparison can be read. -/
theorem patternParts?_pattern (c : Comparison) (x : String) :
    patternParts? (pattern c (.text x)).toList = some (textParts c x.toList) := by
  have hoperand : (Value.text x).text?.getD "" = x := rfl
  have hnil : patternParts? [] = some [] := rfl
  have hpercent : ∀ p, patternParts? ('%' :: p) = (patternParts? p).map (.anyText :: ·) :=
    fun _ => rfl
  have hbefore : ∀ s : String, ("%" ++ s).toList = '%' :: s.toList := by simp
  have hend : patternParts? (escapePattern x).toList = some (x.toList.map .only) := by
    rw [escapePattern, String.toList_ofList, ← List.append_nil (x.toList.flatMap _),
      patternParts?_escape, hnil, Option.map_some, List.append_nil]
  have hgoesOn : patternParts? (escapePattern x ++ "%").toList =
      some (x.toList.map .only ++ [.anyText]) := by
    rw [escapePattern, String.toList_append, String.toList_ofList, patternParts?_escape]
    rfl
  cases c <;> simp only [pattern, hoperand, textParts, String.append_assoc, hbefore, hpercent,
    hgoesOn, hend, Option.map_some]

/-- The pattern of a text comparison stands for the texts of which the comparison is true. -/
theorem spells_textParts_iff {c : Comparison} (hc : c ∈ textComparisons) (x s : List Char) :
    Spells (textParts c x) s ↔ c.admits x s := by
  cases c with
  | contains =>
    rw [textParts, spells_anyText_iff, Comparison.admits, decide_eq_true_eq,
      List.infix_iff_prefix_suffix]
    simp only [spells_map_only_anyText, and_comm]
  | startsWith => rw [textParts, spells_map_only_anyText, Comparison.admits, decide_eq_true_eq]
  | endsWith =>
    simp only [textParts, spells_anyText_iff, spells_map_only_iff, exists_eq_right,
      Comparison.admits, decide_eq_true_eq]
  | _ => simp [textComparisons] at hc

/-! ## Text comparisons of columns -/

/-- A text comparison of two texts is true or false. -/
theorem compare?_eq_admits {c : Comparison} (hc : c ∈ textComparisons) (x y : String) :
    c.compare? (.text y) (.text x) = some (c.admits x.toList y.toList) := by
  have hmatch : matchesPattern (pattern c (.text x)).toList y.toList =
      c.admits x.toList y.toList := by
    rw [Bool.eq_iff_iff, matchesPattern_iff_spells (patternParts?_pattern c x),
      spells_textParts_iff hc]
  rw [compare?_eq_matchesPattern hc, ← hmatch]
  rfl

/-- A text comparison of a column is written as a pattern. -/
theorem pieces_leaf {c : Comparison} (hc : c ∈ textComparisons) {path : ColumnPath} {name : String}
    (hpath : path.segments = [name]) (x : String) :
    (ofPredicate (.leaf path c (some (.text x)))).map (RoleQuery.Condition.pieces dialect) =
      .ok [.text ((Column.mk (tableName path.scope) name).text ++ " LIKE "),
        .operand (.text (pattern c (.text x))), .text " ESCAPE '\\'"] := by
  have hleaf : ofLeaf path c (some (.text x)) =
      .ok (.like ⟨tableName path.scope, name⟩ (pattern c (.text x))) := by
    cases c with
    | contains | startsWith | endsWith => rw [ofLeaf, hpath]; rfl
    | _ => simp [textComparisons] at hc
  have hcondition : ofPredicate (.leaf path c (some (.text x))) =
      .ok (.atom (.like ⟨tableName path.scope, name⟩ (pattern c (.text x)))) :=
    congrArg (Except.map RoleQuery.Condition.atom) hleaf
  rw [hcondition]
  rfl

/-- A text comparison is true of a row that holds a text if it is true of the
text, and otherwise false. -/
theorem eval_leaf_eq_admits {c : Comparison} (hc : c ∈ textComparisons) {path : ColumnPath}
    (resolve : Resolver) {root : Json} {bindings : Bindings} {y : String}
    (hy : (path.scope.row? root bindings).bind (·.at? path.segments) = some (.str y)) (x : String) :
    Predicate.eval resolve root bindings (.leaf path c (some (.text x))) =
      some (c.admits x.toList y.toList) := by
  have hne : ∀ c ∈ textComparisons, c ≠ .isNull := by decide
  rw [Predicate.eval, hy, Comparison.test.eq_def, if_neg (hne c hc)]
  exact compare?_eq_admits hc x y

/-- **A text comparison is written as a pattern that stands for the texts of which it is
true.** The operand is marked in the pattern, which can be read whatever its characters are.
It stands for the texts that contain the operand, begin or end with it, and the comparison is
true of a row that holds one of them and false of one that holds another text. -/
theorem spells_iff_of_leaf {c : Comparison} (hc : c ∈ textComparisons) {path : ColumnPath}
    {name : String} (hpath : path.segments = [name]) (resolve : Resolver) {root : Json}
    {bindings : Bindings} {y : String}
    (hy : (path.scope.row? root bindings).bind (·.at? path.segments) = some (.str y)) (x : String) :
    (ofPredicate (.leaf path c (some (.text x)))).map (RoleQuery.Condition.pieces dialect) =
        .ok [.text ((Column.mk (tableName path.scope) name).text ++ " LIKE "),
          .operand (.text (pattern c (.text x))), .text " ESCAPE '\\'"] ∧
      (escapePattern x).toList = Text.marks ['\\', '%', '_'] x.toList ∧
      ∃ parts, patternParts? (pattern c (.text x)).toList = some parts ∧
        (Spells parts y.toList ↔ c.admits x.toList y.toList) ∧
        Predicate.eval resolve root bindings (.leaf path c (some (.text x))) =
          some (c.admits x.toList y.toList) :=
  ⟨pieces_leaf hc hpath x, toList_escapePattern x, textParts c x.toList, patternParts?_pattern c x,
    spells_textParts_iff hc x.toList y.toList, eval_leaf_eq_admits hc resolve hy x⟩

/-- A row whose label has a percent sign, a backslash and an underscore in it. -/
def labelRow : Json := .object [("label", .str "50%\\_off")]

def labelPath : ColumnPath := ⟨.root, ["label"]⟩

/-- The label is found by these three characters, each of which is marked in the pattern. -/
theorem spells_iff_of_leaf_label :
    Comparison.contains ∈ textComparisons ∧ labelPath.segments = ["label"] ∧
      (labelPath.scope.row? labelRow []).bind (·.at? labelPath.segments) =
        some (.str "50%\\_off") ∧
      ∃ parts, patternParts? "%\\%\\\\\\_%".toList = some parts ∧ Spells parts "50%\\_off".toList ∧
        Predicate.eval noRelations labelRow []
          (.leaf labelPath .contains (some (.text "%\\_"))) = some true := by
  have hc : Comparison.contains ∈ textComparisons := by decide
  have hfound : (labelPath.scope.row? labelRow []).bind (·.at? labelPath.segments) =
      some (.str "50%\\_off") := rfl
  have hadmits : Comparison.contains.admits "%\\_".toList "50%\\_off".toList = true := by decide
  obtain ⟨-, -, parts, hparts, hspells, heval⟩ :=
    spells_iff_of_leaf hc rfl noRelations hfound "%\\_"
  rw [hadmits] at heval
  exact ⟨hc, rfl, hfound, parts, hparts, hspells.2 hadmits, heval⟩

end Sql

end RoleQuery
