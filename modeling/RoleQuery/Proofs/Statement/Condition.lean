import RoleQuery.Proofs.Statement.Reading
import RoleQuery.Statement.Condition

/-!
# Reading conditions

The text of a condition tells the condition, whatever follows it. Each kind of condition
begins in a way of its own, and a list of terms ends at the parenthesis that closes it.

Two conditions could still have one text: a list of one term is the same with either
connective, and a negation may or may not have parentheses of its own. Neither is written:
lists of one term are joined by `or`, and what is negated has no parentheses.
-/
namespace RoleQuery

open Cell

variable {Atom Head : Type}

namespace Condition

variable (okAtom : Atom → Prop) (okHead : Head → Prop)

mutual

/-- A condition that is written in one way only, of certain comparisons and sub-queries. -/
def Regular : Condition Atom Head → Prop
  | .const _ => True
  | .atom a => okAtom a
  | .chain c terms => terms ≠ [] ∧ (terms.length = 1 → c = .or) ∧ RegularAll terms
  | .not _ => False
  | .notParen inner => Regular inner
  | .subquery head inner => okHead head ∧ Regular inner
termination_by structural c => c

def RegularAll : List (Condition Atom Head) → Prop
  | [] => True
  | c :: rest => Regular c ∧ RegularAll rest
termination_by structural cs => cs

end

variable {okAtom okHead}

theorem regularAll_iff {cs : List (Condition Atom Head)} :
    RegularAll okAtom okHead cs ↔ ∀ c ∈ cs, Regular okAtom okHead c := by
  induction cs with
  | nil => simp [RegularAll]
  | cons c rest ih => simp [RegularAll, ih]

end Condition

open Condition in
/-- A dialect whose comparisons and sub-queries can be told apart from each other, and from
anything else that a condition begins with. -/
structure Dialect.Legible (d : Dialect Atom Head) (okAtom : Atom → Prop)
    (okHead : Head → Prop) : Prop where
  truth : Cell.Legible (fun _ => True) (fun _ => True) fun b => ofString (d.truth b)
  atom : Cell.Legible okAtom (fun _ => True) fun a => Piece.cells (d.atom a)
  head : ∀ ⦃n h h' c c' k l⦄, okHead h → okHead h' → Regular okAtom okHead c →
    Regular okAtom okHead c' →
    Alike n (ofString (d.head h) ++ (Piece.cells (c.pieces d) ++ k))
      (ofString (d.head h') ++ (Piece.cells (c'.pieces d) ++ l)) → h = h'
  truth_atom : ∀ ⦃n b a k l⦄, okAtom a →
    ¬ Alike n (ofString (d.truth b) ++ k) (Piece.cells (d.atom a) ++ l)
  truth_head : ∀ ⦃n b h k l⦄, okHead h →
    ¬ Alike n (ofString (d.truth b) ++ k) (ofString (d.head h) ++ l)
  truth_paren : ∀ ⦃n b k l⦄, ¬ Alike n (ofString (d.truth b) ++ k) (ofString "(" ++ l)
  truth_not : ∀ ⦃n b k l⦄, ¬ Alike n (ofString (d.truth b) ++ k) (ofString "NOT (" ++ l)
  atom_head : ∀ ⦃n a h k l⦄, okAtom a → okHead h →
    ¬ Alike n (Piece.cells (d.atom a) ++ k) (ofString (d.head h) ++ l)
  atom_paren : ∀ ⦃n a c k l⦄, okAtom a → Regular okAtom okHead c →
    ¬ Alike n (Piece.cells (d.atom a) ++ k) (ofString "(" ++ (Piece.cells (c.pieces d) ++ l))
  atom_not : ∀ ⦃n a k l⦄, okAtom a →
    ¬ Alike n (Piece.cells (d.atom a) ++ k) (ofString "NOT (" ++ l)
  head_paren : ∀ ⦃n h k l⦄, okHead h → ¬ Alike n (ofString (d.head h) ++ k) (ofString "(" ++ l)
  head_not : ∀ ⦃n h k l⦄, okHead h →
    ¬ Alike n (ofString (d.head h) ++ k) (ofString "NOT (" ++ l)

namespace Condition

variable {okAtom : Atom → Prop} {okHead : Head → Prop} {d : Dialect Atom Head} {n : Nat}
  {k l : List Cell}

/-- What stands between the first term of a list and its end. -/
def tail (d : Dialect Atom Head) (separator : String) : List (Condition Atom Head) → List Cell
  | [] => []
  | c :: rest => ofString separator ++ (Piece.cells (c.pieces d) ++ tail d separator rest)

theorem piecesAll_eq_map (terms : List (Condition Atom Head)) :
    piecesAll d terms = terms.map (pieces d) := by
  induction terms with
  | nil => rfl
  | cons c rest ih => rw [piecesAll, ih, List.map_cons]

theorem cells_intercalate_cons (separator : String) (c : Condition Atom Head)
    (terms : List (Condition Atom Head)) :
    Piece.cells (Piece.intercalate separator (piecesAll d (c :: terms))) =
      Piece.cells (c.pieces d) ++ tail d separator terms := by
  have htail : ∀ cs : List (Condition Atom Head),
      (cs.map (pieces d)).flatMap (fun ps => ofString separator ++ Piece.cells ps) =
        tail d separator cs := by
    intro cs
    induction cs with
    | nil => rfl
    | cons c rest ih => simp [tail, ih]
  rw [Piece.cells_intercalate, piecesAll_eq_map, List.map_cons, separated, htail]

theorem cells_const (b : Bool) :
    Piece.cells ((Condition.const b : Condition Atom Head).pieces d) = ofString (d.truth b) := by
  simp [pieces, Piece.cells]

theorem cells_atom (a : Atom) :
    Piece.cells ((Condition.atom a : Condition Atom Head).pieces d) = Piece.cells (d.atom a) := by
  rw [pieces]

theorem cells_chain (connective : Connective) (c : Condition Atom Head)
    (terms : List (Condition Atom Head)) :
    Piece.cells ((Condition.chain connective (c :: terms)).pieces d) =
      ofString "(" ++ (Piece.cells (c.pieces d) ++ (tail d connective.separator terms ++
        ofString ")")) := by
  rw [pieces, List.cons_append, Piece.cells, Piece.cells_append, cells_intercalate_cons]
  simp [Piece.cells]

theorem cells_notParen (c : Condition Atom Head) :
    Piece.cells ((Condition.notParen c).pieces d) =
      ofString "NOT (" ++ (Piece.cells (c.pieces d) ++ ofString ")") := by
  rw [pieces, List.cons_append, Piece.cells, Piece.cells_append]
  simp [Piece.cells]

theorem cells_subquery (h : Head) (c : Condition Atom Head) :
    Piece.cells ((Condition.subquery h c).pieces d) =
      ofString (d.head h) ++ (Piece.cells (c.pieces d) ++ ofString ")") := by
  rw [pieces, List.cons_append, Piece.cells, Piece.cells_append]
  simp [Piece.cells]

/-- Lists of terms have one connective if what follows their first terms is alike. -/
theorem connective_eq_of_alike_tail {connective connective' : Connective}
    {c c' : Condition Atom Head} {terms terms' : List (Condition Atom Head)}
    (hc : Regular okAtom okHead (.chain connective (c :: terms)))
    (hc' : Regular okAtom okHead (.chain connective' (c' :: terms')))
    (h : Alike n (tail d connective.separator terms ++ (ofString ")" ++ k))
      (tail d connective'.separator terms' ++ (ofString ")" ++ l))) : connective = connective' := by
  rw [Regular] at hc hc'
  cases terms with
  | nil =>
    cases terms' with
    | nil => rw [hc.2.1 rfl, hc'.2.1 rfl]
    | cons u us =>
      exfalso
      cases connective' <;> simp [tail, Connective.separator, ofString] at h
  | cons t ts =>
    cases terms' with
    | nil =>
      exfalso
      cases connective <;> simp [tail, Connective.separator, ofString] at h
    | cons u us =>
      cases connective <;> cases connective' <;>
        simp [tail, Connective.separator, ofString] at h ⊢

/-- What stands behind a list of terms is not taken for another term. -/
theorem not_alike_separator (connective : Connective) (x : List Cell) :
    ¬ Alike n (ofString ")" ++ k) (ofString connective.separator ++ x) := by
  cases connective <;> simp [Connective.separator, ofString]

/-! ## Forms of conditions -/

/-- The form of a condition, as it is told from the beginning of the text. -/
def form : Condition Atom Head → Nat
  | .const _ => 0
  | .atom _ => 1
  | .subquery _ _ => 2
  | .chain _ _ => 3
  | .notParen _ => 4
  | .not _ => 5

/-- Two regular conditions of one form. -/
inductive SameForm : Condition Atom Head → Condition Atom Head → Prop
  | const (b b' : Bool) : SameForm (.const b) (.const b')
  | atom (a a' : Atom) : SameForm (.atom a) (.atom a')
  | subquery (h h' : Head) (c c' : Condition Atom Head) :
      SameForm (.subquery h c) (.subquery h' c')
  | chain (connective connective' : Connective) (c c' : Condition Atom Head)
      (terms terms' : List (Condition Atom Head)) :
      SameForm (.chain connective (c :: terms)) (.chain connective' (c' :: terms'))
  | notParen (c c' : Condition Atom Head) : SameForm (.notParen c) (.notParen c')

theorem sameForm_of_form_eq {c c' : Condition Atom Head} (hc : Regular okAtom okHead c)
    (hc' : Regular okAtom okHead c') (h : c.form = c'.form) : SameForm c c' := by
  cases c with
  | const b => cases c' <;> first | exact .const _ _ | cases h
  | atom a => cases c' <;> first | exact .atom _ _ | cases h
  | subquery head inner => cases c' <;> first | exact .subquery _ _ _ _ | cases h
  | notParen inner => cases c' <;> first | exact .notParen _ _ | cases h
  | not inner => exact hc.elim
  | chain connective terms =>
    cases c' with
    | chain connective' terms' =>
      cases terms with
      | nil => exact (hc.1 rfl).elim
      | cons t rest =>
        cases terms' with
        | nil => exact (hc'.1 rfl).elim
        | cons t' rest' => exact .chain _ _ _ _ _ _
    | _ => cases h

section Forms

variable (hd : d.Legible okAtom okHead) {c : Condition Atom Head} (hc : Regular okAtom okHead c)

include hd hc

theorem not_alike_truth {b : Bool} (hform : 0 < c.form) :
    ¬ Alike n (ofString (d.truth b) ++ k) (Piece.cells (c.pieces d) ++ l) := by
  cases c with
  | const b' => cases hform
  | atom a => exact cells_atom (d := d) a ▸ hd.truth_atom hc
  | subquery head inner =>
    rw [cells_subquery, List.append_assoc]
    exact hd.truth_head hc.1
  | chain connective terms =>
    cases terms with
    | nil => exact (hc.1 rfl).elim
    | cons t rest =>
      rw [cells_chain, List.append_assoc]
      exact fun h => hd.truth_paren h
  | notParen inner =>
    rw [cells_notParen, List.append_assoc]
    exact fun h => hd.truth_not h
  | not inner => exact hc.elim

theorem not_alike_atom {a : Atom} (ha : okAtom a) (hform : 1 < c.form) :
    ¬ Alike n (Piece.cells (d.atom a) ++ k) (Piece.cells (c.pieces d) ++ l) := by
  cases c with
  | const b' => cases hform
  | atom a => cases Nat.lt_irrefl 1 hform
  | subquery head inner =>
    rw [cells_subquery, List.append_assoc]
    exact hd.atom_head ha hc.1
  | chain connective terms =>
    cases terms with
    | nil => exact (hc.1 rfl).elim
    | cons t rest =>
      rw [cells_chain, List.append_assoc, List.append_assoc]
      exact hd.atom_paren ha hc.2.2.1
  | notParen inner =>
    rw [cells_notParen, List.append_assoc]
    exact hd.atom_not ha
  | not inner => exact hc.elim

theorem not_alike_head {head : Head} (hhead : okHead head) (hform : 2 < c.form) :
    ¬ Alike n (ofString (d.head head) ++ k) (Piece.cells (c.pieces d) ++ l) := by
  cases c with
  | chain connective terms =>
    cases terms with
    | nil => exact (hc.1 rfl).elim
    | cons t rest =>
      rw [cells_chain, List.append_assoc]
      exact hd.head_paren hhead
  | notParen inner =>
    rw [cells_notParen, List.append_assoc]
    exact hd.head_not hhead
  | not inner => exact hc.elim
  | _ => simp [form] at hform

/-- Regular conditions of different forms do not begin alike. -/
theorem not_alike_of_form_lt {c' : Condition Atom Head} (hc' : Regular okAtom okHead c')
    (hform : c.form < c'.form) :
    ¬ Alike n (Piece.cells (c.pieces d) ++ k) (Piece.cells (c'.pieces d) ++ l) := by
  cases c with
  | const b =>
    rw [cells_const]
    exact not_alike_truth hd hc' hform
  | atom a =>
    rw [cells_atom]
    exact not_alike_atom hd hc' hc hform
  | subquery head inner =>
    rw [cells_subquery, List.append_assoc]
    exact not_alike_head hd hc' hc.1 hform
  | chain connective terms =>
    cases c' with
    | notParen inner' =>
      cases terms with
      | nil => exact (hc.1 rfl).elim
      | cons t rest => simp [cells_chain, cells_notParen, ofString]
    | not inner' => exact hc'.elim
    | _ => simp [form] at hform
  | notParen inner =>
    cases c' with
    | not inner' => exact hc'.elim
    | _ => simp [form] at hform
  | not inner => exact hc.elim

/-- Regular conditions that begin alike have one form. -/
theorem sameForm_of_alike {c' : Condition Atom Head} (hc' : Regular okAtom okHead c')
    (h : Alike n (Piece.cells (c.pieces d) ++ k) (Piece.cells (c'.pieces d) ++ l)) :
    SameForm c c' := by
  rcases Nat.lt_trichotomy c.form c'.form with hlt | heq | hgt
  · exact absurd h (not_alike_of_form_lt hd hc hc' hlt)
  · exact sameForm_of_form_eq hc hc' heq
  · exact absurd h.symm (not_alike_of_form_lt hd hc' hc hgt)

end Forms

/-! ## Conditions of one form -/

mutual

/-- A regular condition is told by its text, whatever follows. -/
theorem eq_of_alike (hd : d.Legible okAtom okHead) (c c' : Condition Atom Head) {n : Nat}
    {k l : List Cell} (hc : Regular okAtom okHead c) (hc' : Regular okAtom okHead c')
    (h : Alike n (Piece.cells (c.pieces d) ++ k) (Piece.cells (c'.pieces d) ++ l)) : c = c' := by
  have hsame := sameForm_of_alike hd hc hc' h
  cases hsame with
  | const b b' =>
    rw [cells_const, cells_const] at h
    rw [hd.truth trivial trivial trivial trivial h]
  | atom a a' =>
    rw [cells_atom, cells_atom] at h
    rw [hd.atom hc hc' trivial trivial h]
  | subquery head head' inner inner' =>
    simp only [cells_subquery, List.append_assoc] at h
    obtain rfl := hd.head hc.1 hc'.1 hc.2 hc'.2 h
    rw [alike_ofString_append] at h
    rw [eq_of_alike hd inner inner' hc.2 hc'.2 h]
  | chain connective connective' t t' rest rest' =>
    simp only [cells_chain, List.append_assoc, alike_ofString_append] at h
    obtain rfl := eq_of_alike hd t t' hc.2.2.1 hc'.2.2.1 h
    obtain ⟨m, hrest⟩ := h.append_left
    obtain rfl := connective_eq_of_alike_tail hc hc' hrest
    rw [eq_of_alike_tail hd connective.separator rest rest' hc.2.2.2 hc'.2.2.2
      (fun _ => not_alike_separator connective) (fun _ => not_alike_separator connective) hrest]
  | notParen inner inner' =>
    simp only [cells_notParen, List.append_assoc, alike_ofString_append] at h
    rw [eq_of_alike hd inner inner' hc hc' h]
termination_by structural c

/-- The terms behind the first one of a list are told by their text. -/
theorem eq_of_alike_tail (hd : d.Legible okAtom okHead) (separator : String)
    (terms terms' : List (Condition Atom Head)) {n : Nat} {k l : List Cell}
    (hterms : RegularAll okAtom okHead terms) (hterms' : RegularAll okAtom okHead terms')
    (hk : ∀ n x, ¬ Alike n k (ofString separator ++ x))
    (hl : ∀ n x, ¬ Alike n l (ofString separator ++ x))
    (h : Alike n (tail d separator terms ++ k) (tail d separator terms' ++ l)) :
    terms = terms' := by
  match terms, hterms, h with
  | [], _, h =>
    cases terms' with
    | nil => rfl
    | cons u us =>
      rw [tail, tail, List.nil_append, List.append_assoc] at h
      exact absurd h (hk n _)
  | t :: ts, hterms, h =>
    cases terms' with
    | nil =>
      rw [tail, tail, List.nil_append, List.append_assoc] at h
      exact absurd h.symm (hl n _)
    | cons u us =>
      rw [RegularAll] at hterms hterms'
      simp only [tail, List.append_assoc, alike_ofString_append] at h
      obtain rfl := eq_of_alike hd t u hterms.1 hterms'.1 h
      obtain ⟨m, hrest⟩ := h.append_left
      rw [eq_of_alike_tail hd separator ts us hterms.2 hterms'.2 hk hl hrest]
termination_by structural terms

end

end Condition

end RoleQuery
