import RoleQuery.Predicate.Evaluation
import RoleQuery.Proofs.Predicate.Scoping
import RoleQuery.Sql.Condition
import Mathlib.Data.List.Infix

/-!
# Patterns in SQL

A pattern matches a text character by character. A percent sign stands for any
characters, an underscore for one, and the character behind a backslash for itself. The
pattern of a text comparison matches the texts that the comparison holds of, whatever
characters its operand has.
-/
namespace RoleQuery.Sql

/-- Whether a text matches a pattern. -/
def matchesPattern : List Char → List Char → Bool
  | [], s => s.isEmpty
  | '%' :: p, s => s.tails.any (matchesPattern p)
  | '_' :: p, _ :: s => matchesPattern p s
  | '\\' :: e :: p, c :: s => c == e && matchesPattern p s
  | e :: p, c :: s => c == e && matchesPattern p s
  | _ :: _, [] => false

@[simp] theorem matchesPattern_nil (s : List Char) : matchesPattern [] s = s.isEmpty := by
  cases s <;> rfl

@[simp] theorem matchesPattern_percent (p s : List Char) :
    matchesPattern ('%' :: p) s = s.tails.any (matchesPattern p) := by
  cases s <;> rfl

/-- A percent sign alone matches everything. -/
theorem matchesPattern_singleton_percent (s : List Char) : matchesPattern ['%'] s = true := by
  rw [matchesPattern_percent, List.any_eq_true]
  exact ⟨[], (List.mem_tails _ _).2 s.nil_suffix, by simp⟩

/-- A character that is escaped where need be matches itself. -/
theorem matchesPattern_escapePatternChar (e : Char) (p s : List Char) :
    matchesPattern (escapePatternChar e ++ p) s =
      match s with
      | [] => false
      | c :: s => c == e && matchesPattern p s := by
  by_cases he : e = '\\' ∨ e = '%' ∨ e = '_'
  · rw [escapePatternChar, if_pos he]
    cases s <;> rfl
  · rw [escapePatternChar, if_neg he]
    simp only [not_or] at he
    obtain ⟨hbackslash, hpercent, hunderscore⟩ := he
    cases s with
    | nil => simp [matchesPattern]
    | cons c s => simp [matchesPattern, hbackslash]

/-- An escaped text matches itself, and the rest of the pattern what follows. -/
theorem matchesPattern_escape (x p s : List Char) :
    matchesPattern (x.flatMap escapePatternChar ++ p) s =
      (x.isPrefixOf s && matchesPattern p (s.drop x.length)) := by
  induction x generalizing s with
  | nil => simp
  | cons e x ih =>
    rw [List.flatMap_cons, List.append_assoc, matchesPattern_escapePatternChar]
    cases s with
    | nil => simp
    | cons c s =>
      simp only [ih, List.isPrefixOf, List.length_cons, List.drop_succ_cons, Bool.and_assoc,
        BEq.comm]

/-- A part of a text is a beginning of one of its ends. -/
theorem any_isPrefixOf_tails (x s : List Char) :
    s.tails.any (x.isPrefixOf ·) = occursIn x s := by
  induction s with
  | nil => cases x <;> rfl
  | cons c s ih => rw [List.tails_cons, List.any_cons, ih, occursIn]

/-- An end of a text is one of its ends. -/
theorem any_eq_tails (x s : List Char) :
    (s.tails.any fun t => x.isPrefixOf t && (t.drop x.length).isEmpty) = x.isSuffixOf s := by
  rw [Bool.eq_iff_iff, List.any_eq_true, List.isSuffixOf_iff_suffix]
  constructor
  · rintro ⟨t, ht, hprefix⟩
    rw [Bool.and_eq_true, List.isPrefixOf_iff_prefix, List.isEmpty_iff] at hprefix
    obtain ⟨⟨rest, rfl⟩, hrest⟩ := hprefix
    rw [List.drop_left] at hrest
    rw [hrest, List.append_nil] at ht
    exact (List.mem_tails _ _).1 ht
  · intro h
    exact ⟨x, (List.mem_tails _ _).2 h, by simp⟩

/-- A text comparison holds of a text that matches its pattern, and is
unknown of what is no text. -/
theorem compare?_eq_matchesPattern {c : Comparison} (hc : c ∈ textComparisons) (actual : Value)
    (x : String) : c.compare? actual (.text x) =
      actual.text?.map fun s => matchesPattern (pattern c (.text x)).toList s.toList := by
  have hoperand : (Value.text x).text?.getD "" = x := rfl
  cases actual with
  | text s =>
    cases c with
    | contains =>
      have hpattern : (pattern .contains (.text x)).toList =
          '%' :: (x.toList.flatMap escapePatternChar ++ ['%']) := by
        simp [pattern, hoperand, escapePattern]
      refine congrArg some ?_
      beta_reduce
      have hrest : ∀ t, matchesPattern (x.toList.flatMap escapePatternChar ++ ['%']) t =
          x.toList.isPrefixOf t := by
        intro t
        rw [matchesPattern_escape, matchesPattern_singleton_percent, Bool.and_true]
      rw [hpattern, matchesPattern_percent, funext hrest]
      exact (any_isPrefixOf_tails x.toList s.toList).symm
    | startsWith =>
      have hpattern : (pattern .startsWith (.text x)).toList =
          x.toList.flatMap escapePatternChar ++ ['%'] := by
        simp [pattern, hoperand, escapePattern]
      refine congrArg some ?_
      beta_reduce
      rw [hpattern, matchesPattern_escape, matchesPattern_singleton_percent, Bool.and_true]
    | endsWith =>
      have hpattern : (pattern .endsWith (.text x)).toList =
          '%' :: (x.toList.flatMap escapePatternChar ++ []) := by
        simp [pattern, hoperand, escapePattern]
      refine congrArg some ?_
      beta_reduce
      have hrest : ∀ t, matchesPattern (x.toList.flatMap escapePatternChar ++ []) t =
          (x.toList.isPrefixOf t && (t.drop x.toList.length).isEmpty) := by
        intro t
        rw [matchesPattern_escape, matchesPattern_nil]
      rw [hpattern, matchesPattern_percent, funext hrest]
      exact (any_eq_tails x.toList s.toList).symm
    | _ => simp [textComparisons] at hc
  | _ => cases c <;> first | rfl | simp [textComparisons] at hc

end RoleQuery.Sql
