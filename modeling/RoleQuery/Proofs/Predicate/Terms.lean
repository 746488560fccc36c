import RoleQuery.Predicate.OfFilter

/-!
# What is made of terms

Compilation makes conjunctions and disjunctions of its terms in three ways: a single term is
itself, no term at all cannot hold, and a conjunction of which a term cannot hold is cut
short. What is gathered from a predicate, such as its aliases or the columns that it reads, is
then what is gathered from the terms; and a map of predicates that leaves this shape alone may
be applied to the terms.
-/
namespace RoleQuery.Predicate

/-- A comparison with null is dropped, and any other is one comparison of the
column, possibly negated. -/
theorem ofScalar_cases {frame : Frame} {field : String} {op : Operator} {operand : Value}
    {p : Option Predicate} (h : ofScalar frame field op operand = .ok p) :
    operand.isNull = true ∧ p = none ∨
      operand.isNull = false ∧ ∃ c taken,
        p = some (.leaf ⟨frame.scope, frame.path ++ [frame.column field]⟩ c taken) ∨
        p = some (.not (.leaf ⟨frame.scope, frame.path ++ [frame.column field]⟩ c taken)) := by
  rw [ofScalar] at h
  cases hnull : operand.isNull with
  | true =>
    rw [if_pos hnull] at h
    cases h
    exact .inl ⟨rfl, rfl⟩
  | false =>
    rw [if_neg (by simp [hnull])] at h
    refine .inr ⟨rfl, ?_⟩
    cases hcheck : op.check operand with
    | error fault => rw [hcheck] at h; cases h
    | ok _ =>
      rw [hcheck] at h
      cases op with
      | isNull =>
        cases h
        split
        · exact ⟨.isNull, none, .inl rfl⟩
        · exact ⟨.isNull, none, .inr rfl⟩
      | notContains => cases h; exact ⟨_, _, .inr rfl⟩
      | _ => cases h; exact ⟨_, _, .inl rfl⟩

/-- A list gathered from a predicate, and one gathered from several: nothing from a constant,
and from a conjunction or a disjunction what is gathered from its terms. -/
structure Gathers {α : Type} (one : Predicate → List α) (many : List Predicate → List α) :
    Prop where
  nil : many [] = []
  cons : ∀ p ps, many (p :: ps) = one p ++ many ps
  const : ∀ b, one (.const b) = []
  and : ∀ ps, one (.and ps) = many ps
  or : ∀ ps, one (.or ps) = many ps

namespace Gathers

variable {α : Type} {one : Predicate → List α} {many : List Predicate → List α}
  (h : Gathers one many)

include h

theorem append (ps qs : List Predicate) : many (ps ++ qs) = many ps ++ many qs := by
  induction ps with
  | nil => rw [List.nil_append, h.nil, List.nil_append]
  | cons p rest ih => rw [List.cons_append, h.cons, h.cons, ih, List.append_assoc]

theorem singleton (p : Predicate) : many [p] = one p := by
  rw [h.cons, h.nil, List.append_nil]

theorem all (ps : List Predicate) : one (Predicate.all ps) = many ps := by
  match ps with
  | [] => rw [Predicate.all, alwaysFalse, h.const, h.nil]
  | [p] => rw [Predicate.all, h.singleton]
  | p :: q :: rest => exact h.and _

theorem any (ps : List Predicate) : one (Predicate.any ps) = many ps := by
  match ps with
  | [] => rw [Predicate.any, alwaysFalse, h.const, h.nil]
  | [p] => rw [Predicate.any, h.singleton]
  | p :: q :: rest => exact h.or _

/-- Nothing is gathered from a conjunction that is cut short. -/
theorem allTerms_sublist (ps : List Predicate) :
    (one (Predicate.allTerms ps)).Sublist (many ps) := by
  rw [Predicate.allTerms]
  split
  · rw [alwaysFalse, h.const]
    exact List.nil_sublist _
  · exact h.all ps ▸ List.Sublist.refl _

/-- What is gathered from members and from two lists that may be absent, the second one of
alternatives. -/
theorem group_sublist (ps : List Predicate) (qs rs : Option (List Predicate)) :
    (one (Predicate.allTerms (ps ++ (qs.map Predicate.all).toList ++
      (rs.map Predicate.any).toList))).Sublist
        (many ps ++ (many (qs.getD []) ++ many (rs.getD []))) := by
  have hall : many (qs.map Predicate.all).toList = many (qs.getD []) := by
    cases qs with
    | none => rfl
    | some qs => exact (h.singleton _).trans (h.all qs)
  have hany : many (rs.map Predicate.any).toList = many (rs.getD []) := by
    cases rs with
    | none => rfl
    | some rs => exact (h.singleton _).trans (h.any rs)
  have hsublist := h.allTerms_sublist
    (ps ++ (qs.map Predicate.all).toList ++ (rs.map Predicate.any).toList)
  rwa [h.append, h.append, hall, hany, List.append_assoc (many ps)] at hsublist

end Gathers

/-- A map of predicates that leaves constants alone and is applied to the terms of
conjunctions and disjunctions. -/
structure Termwise (φ : Predicate → Predicate) : Prop where
  const : ∀ b, φ (.const b) = .const b
  and : ∀ ps, φ (.and ps) = .and (ps.map φ)
  or : ∀ ps, φ (.or ps) = .or (ps.map φ)
  isAlwaysFalse : ∀ p, (φ p).isAlwaysFalse = p.isAlwaysFalse

theorem termwise_id : Termwise fun p => p where
  const _ := rfl
  and ps := by rw [List.map_id']
  or ps := by rw [List.map_id']
  isAlwaysFalse _ := rfl

namespace Termwise

variable {φ : Predicate → Predicate} (h : Termwise φ)

include h

theorem all (ps : List Predicate) : φ (Predicate.all ps) = Predicate.all (ps.map φ) := by
  match ps with
  | [] => exact h.const false
  | [_] => rfl
  | _ :: _ :: _ => exact h.and _

theorem any (ps : List Predicate) : φ (Predicate.any ps) = Predicate.any (ps.map φ) := by
  match ps with
  | [] => exact h.const false
  | [_] => rfl
  | _ :: _ :: _ => exact h.or _

theorem allTerms (ps : List Predicate) :
    φ (Predicate.allTerms ps) = Predicate.allTerms (ps.map φ) := by
  have hany : (ps.map φ).any Predicate.isAlwaysFalse = ps.any Predicate.isAlwaysFalse := by
    simp [Function.comp_def, h.isAlwaysFalse]
  rw [Predicate.allTerms, Predicate.allTerms, hany]
  split
  · exact h.const false
  · exact h.all ps

end Termwise

end RoleQuery.Predicate
