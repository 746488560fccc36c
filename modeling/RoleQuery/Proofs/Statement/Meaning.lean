import RoleQuery.Proofs.Outcome
import RoleQuery.Proofs.Statement.Parsing

/-!
# What the text of a condition means

The text of the condition of a predicate, read with the usual precedence, is the predicate
again: its comparisons and sub-queries are those of the predicate, written from left to
right, and whatever truths are assigned to them, the text is true, false or unknown as the
predicate is. A join stands for what it asks of its rows. A sub-query has a condition of its
own, which links its rows to the row outside and asks the inner predicate of them, in a text
that again means the same.
-/
namespace RoleQuery

open Token (Lexes Ordinary lexes_words ofText separatedText spaced)

/-! ## Truths under an assignment -/

namespace Predicate

mutual

/-- The truth of a predicate when truths are assigned to its comparisons and sub-queries from
left to right, and the truths that are left. A join is read as what it asks of its rows. -/
def value : Predicate → List Truth → Truth × List Truth
  | .const b, ts => (some b, ts)
  | .leaf _ _ _, ts | .traverse .subquery _ _, ts => (ts.headD none, ts.tail)
  | .and terms, ts => (Truth.all (values terms ts).1, (values terms ts).2)
  | .or terms, ts => (Truth.any (values terms ts).1, (values terms ts).2)
  | .not inner, ts => (Truth.not (value inner ts).1, (value inner ts).2)
  | .traverse .join _ inner, ts => value inner ts
termination_by structural p => p

/-- The truths of several predicates, and the truths that are left. -/
def values : List Predicate → List Truth → List Truth × List Truth
  | [], ts => ([], ts)
  | p :: rest, ts =>
    ((value p ts).1 :: (values rest (value p ts).2).1, (values rest (value p ts).2).2)
termination_by structural ps => ps

end

mutual

/-- The comparisons and sub-queries of a predicate, from left to right. -/
def atoms : Predicate → List Predicate
  | .const _ => []
  | .leaf path c operand => [.leaf path c operand]
  | .and terms | .or terms => atomsAll terms
  | .not inner => atoms inner
  | .traverse .subquery via inner => [.traverse .subquery via inner]
  | .traverse .join _ inner => atoms inner
termination_by structural p => p

def atomsAll : List Predicate → List Predicate
  | [] => []
  | p :: rest => atoms p ++ atomsAll rest
termination_by structural ps => ps

end

end Predicate

namespace Expression

/-- The truths of several expressions, and the truths that are left. -/
def values : List Expression → List Truth → List Truth × List Truth
  | [], ts => ([], ts)
  | e :: rest, ts =>
    ((e.value ts).1 :: (values rest (e.value ts).2).1, (values rest (e.value ts).2).2)

theorem truth_singleton (c : Connective) (t : Truth) : c.truth [t] = t := by
  rcases c with _ | _ <;> rcases t with _ | _ | _ <;> rfl

theorem truth_cons (c : Connective) (t : Truth) (ts : List Truth) :
    c.truth [t, c.truth ts] = c.truth (t :: ts) := by
  rcases c with _ | _ <;> rcases t with _ | _ | _ <;>
    simp only [Connective.truth, Truth.all, Truth.any]
  · rcases Truth.all ts with _ | _ | _ <;> rfl
  · rcases Truth.all ts with _ | _ | _ <;> rfl
  · rcases Truth.any ts with _ | _ | _ <;> rfl
  · rcases Truth.any ts with _ | _ | _ <;> rfl

/-- What is joined has the truth of all together. -/
theorem value_joined (c : Connective) {es : List Expression} (hne : es ≠ []) (ts : List Truth) :
    (joined c es).value ts = (c.truth (values es ts).1, (values es ts).2) := by
  induction es generalizing ts with
  | nil => exact absurd rfl hne
  | cons e es ih =>
    cases es with
    | nil => simp only [joined, values, truth_singleton]
    | cons e' es =>
      rw [joined_cons_cons, value, ih (by simp), truth_cons]
      rfl

theorem atoms_joined (c : Connective) (es : List Expression) :
    (joined c es).atoms = es.flatMap atoms := by
  induction es with
  | nil => rfl
  | cons e es ih =>
    cases es with
    | nil => simp [joined]
    | cons e' es => rw [joined_cons_cons, atoms, ih, ← List.flatMap_cons]

end Expression

/-! ## Texts of pieces -/

namespace Piece

/-- The characters of pieces, of which the first operand has the number `n`. -/
def chars (n : Nat) (ps : List Piece) : List Char := (String.join (render n ps)).toList

/-- How many operands pieces have. -/
def count : List Piece → Nat
  | [] => 0
  | .text _ :: rest => count rest
  | .operand _ :: rest | .hidden _ :: rest => count rest + 1

theorem chars_text_cons (n : Nat) (s : String) (ps : List Piece) :
    chars n (.text s :: ps) = s.toList ++ chars n ps := by
  rw [chars, render, String.join_cons, String.toList_append, chars]

theorem chars_closing (n : Nat) : chars n [.text ")"] = [')'] := by simp [chars, render]

theorem count_append (ps qs : List Piece) : count (ps ++ qs) = count ps + count qs := by
  induction ps with
  | nil => simp [count]
  | cons p rest ih => cases p <;> simp only [List.cons_append, count, ih] <;> omega

/-- The operands of later pieces are numbered after those of the pieces before. -/
theorem render_append (n : Nat) (ps qs : List Piece) :
    render n (ps ++ qs) = render n ps ++ render (n + count ps) qs := by
  induction ps generalizing n with
  | nil => rfl
  | cons p rest ih =>
    cases p <;> simp only [List.cons_append, render, ih, count, Nat.add_assoc, Nat.add_comm 1]

theorem parameters_append (n : Nat) (ps qs : List Piece) :
    parameters n (ps ++ qs) = parameters n ps ++ parameters (n + count ps) qs := by
  induction ps generalizing n with
  | nil => rfl
  | cons p rest ih =>
    cases p <;> simp only [List.cons_append, parameters, ih, count, Nat.add_assoc, Nat.add_comm 1]

theorem chars_append (n : Nat) (ps qs : List Piece) :
    chars n (ps ++ qs) = chars n ps ++ chars (n + count ps) qs := by
  rw [chars, render_append, String.join_append, String.toList_append, chars, chars]

end Piece

namespace Condition

variable {Atom Head : Type} (d : Dialect Atom Head)

/-- The texts of several conditions, of which the first operand has the number `n`. -/
def texts : Nat → List (Condition Atom Head) → List (List Char)
  | _, [] => []
  | n, c :: rest => Piece.chars n (c.pieces d) :: texts (n + Piece.count (c.pieces d)) rest

def countAll : List (Condition Atom Head) → Nat
  | [] => 0
  | c :: rest => Piece.count (c.pieces d) + countAll rest

theorem chars_intercalate (c : Connective) (n : Nat) (cs : List (Condition Atom Head)) :
    Piece.chars n (Piece.intercalate c.separator (piecesAll d cs)) =
      separatedText c (texts d n cs) ∧
      Piece.count (Piece.intercalate c.separator (piecesAll d cs)) = countAll d cs := by
  induction cs generalizing n with
  | nil => exact ⟨rfl, rfl⟩
  | cons first rest ih =>
    cases rest with
    | nil => exact ⟨rfl, rfl⟩
    | cons next others =>
      obtain ⟨hchars, hcount⟩ := ih (n + Piece.count (first.pieces d))
      have hpieces : Piece.intercalate c.separator (piecesAll d (first :: next :: others)) =
          first.pieces d ++ .text c.separator ::
            Piece.intercalate c.separator (piecesAll d (next :: others)) := rfl
      rw [hpieces, Piece.chars_append, Piece.chars_text_cons, hchars, Piece.count_append,
        Piece.count, hcount]
      exact ⟨rfl, rfl⟩

theorem chars_chain (c : Connective) (n : Nat) (cs : List (Condition Atom Head)) :
    Piece.chars n ((Condition.chain c cs).pieces d) =
      '(' :: (separatedText c (texts d n cs) ++ [')']) := by
  rw [pieces, List.cons_append, Piece.chars_text_cons, Piece.chars_append,
    (chars_intercalate d c n cs).1, Piece.chars_closing]
  rfl

theorem count_chain (c : Connective) (cs : List (Condition Atom Head)) :
    Piece.count ((Condition.chain c cs).pieces d) = countAll d cs := by
  rw [pieces, List.cons_append, Piece.count, Piece.count_append, (chars_intercalate d c 0 cs).2]
  rfl

theorem chars_notParen (n : Nat) (inner : Condition Atom Head) :
    Piece.chars n ((Condition.notParen inner).pieces d) =
      "NOT (".toList ++ (Piece.chars n (inner.pieces d) ++ [')']) := by
  rw [pieces, List.cons_append, Piece.chars_text_cons, Piece.chars_append,
    Piece.chars_closing]

theorem count_notParen (inner : Condition Atom Head) :
    Piece.count ((Condition.notParen inner).pieces d) = Piece.count (inner.pieces d) := by
  rw [pieces, List.cons_append, Piece.count, Piece.count_append]
  rfl

theorem count_subquery (head : Head) (inner : Condition Atom Head) :
    Piece.count ((Condition.subquery head inner).pieces d) = Piece.count (inner.pieces d) := by
  rw [pieces, List.cons_append, Piece.count, Piece.count_append]
  rfl

theorem chars_subquery (n : Nat) (head : Head) (inner : Condition Atom Head) :
    Piece.chars n ((Condition.subquery head inner).pieces d) =
      (d.head head).toList ++ (Piece.chars n (inner.pieces d) ++ [')']) := by
  rw [pieces, List.cons_append, Piece.chars_text_cons, Piece.chars_append,
    Piece.chars_closing]

end Condition

/-! ## Dialects -/

/-- How a dialect writes sub-queries: the rows they range over, and the comparisons that link
these to the row outside. -/
structure Phrasing (Head : Type) where
  /-- A backslash escapes a character inside a quotation. -/
  escapes : Bool
  source : Head → String
  links : Head → List String

namespace Phrasing

variable {Head : Type} (φ : Phrasing Head)

/-- What a comparison of the dialect is read as. -/
def comparison (text : List Char) : Expression := .comparison (ofText φ.escapes text)

/-- What the condition of a sub-query is read as: its links, together with what
is asked of its rows. -/
def condition (h : Head) (inner : Expression) : Expression :=
  .joined .and ((φ.links h).map (fun link => φ.comparison link.toList) ++ [inner])

end Phrasing

def Traversal.Pairs (via : Traversal) : Prop :=
  ∀ link ∈ via.link, link.sourceColumns ≠ [] ∧ link.targetColumns ≠ []

/-- A dialect writes constants, comparisons and sub-queries so that they are read as such. -/
structure Dialect.Phrased {Atom Head : Type} (d : Dialect Atom Head) (φ : Phrasing Head) :
    Prop where
  truth : ∀ b, Expression.Reads φ.escapes (d.truth b).toList (.const b)
  atom : ∀ ⦃path c operand a⦄ n, d.ofLeaf path c operand = .ok a →
    Expression.Reads φ.escapes (Piece.chars n (d.atom a)) (φ.comparison (Piece.chars n (d.atom a)))
  head : ∀ ⦃via h⦄, via.Pairs → d.ofTraversal via = .ok h →
    d.head h = "EXISTS (" ++ φ.source h ++ " WHERE " ++ String.join ((φ.links h).map (· ++ " AND "))
  source : ∀ ⦃via h⦄, d.ofTraversal via = .ok h →
    ∃ ws, (φ.source h).toList = spaced ws ∧ ∀ s ∈ ws, Ordinary φ.escapes s
  link : ∀ ⦃via h⦄, d.ofTraversal via = .ok h → ∀ link ∈ φ.links h,
    Expression.Reads φ.escapes link.toList (φ.comparison link.toList)

namespace Expression

variable {Atom Head : Type}

/-- The comparisons and sub-queries of an expression are those of a predicate, written in
order. Their parameters have the numbers from the first given one on, up to the second. Of
the rows of a sub-query its condition asks its links, and what is read of the condition of
the inner predicate: it has the values of the inner predicate and stands for its comparisons
and sub-queries in turn. -/
inductive Stands (d : Dialect Atom Head) (φ : Phrasing Head) :
    Nat → Nat → List Predicate → List Expression → Prop
  | nil {n : Nat} : Stands d φ n n [] []
  | leaf {n m : Nat} {path : ColumnPath} {c : Comparison} {operand : Option Value} {a : Atom}
      {ps : List Predicate} {es : List Expression} :
      d.ofLeaf path c operand = .ok a → Stands d φ (n + Piece.count (d.atom a)) m ps es →
      Stands d φ n m (.leaf path c operand :: ps) (φ.comparison (Piece.chars n (d.atom a)) :: es)
  | subquery {n m k : Nat} {via : Traversal} {inner : Predicate} {h : Head}
      {c : Condition Atom Head} {e : Expression} {ps : List Predicate} {es : List Expression} :
      d.ofTraversal via = .ok h → Condition.ofPredicate d inner = .ok c →
      Reads φ.escapes (Piece.chars n (c.pieces d)) e → (∀ ts, e.value ts = inner.value ts) →
      Stands d φ n m inner.atoms e.atoms → Stands d φ m k ps es →
      Stands d φ n k (.traverse .subquery via inner :: ps)
        (.subquery (ofText φ.escapes (φ.source h).toList) (φ.condition h e) :: es)

/-- An expression means a predicate: it has the same comparisons and sub-queries in the same
order, and the same value whatever truths are assigned to them. -/
structure Means (d : Dialect Atom Head) (φ : Phrasing Head) (n m : Nat) (p : Predicate)
    (e : Expression) : Prop where
  value_eq : ∀ ts, e.value ts = p.value ts
  stands : Stands d φ n m p.atoms e.atoms

variable {d : Dialect Atom Head} {φ : Phrasing Head} {n m k : Nat}

theorem Stands.append {ps qs : List Predicate} {es fs : List Expression} (h : Stands d φ n m ps es)
    (h' : Stands d φ m k qs fs) : Stands d φ n k (ps ++ qs) (es ++ fs) := by
  induction h with
  | nil => exact h'
  | leaf ha _ ih => exact .leaf ha (ih h')
  | subquery hvia hc hreads hvalue hinner _ _ ih =>
    exact .subquery hvia hc hreads hvalue hinner (ih h')

end Expression

namespace Predicate

mutual

/-- A predicate whose conjunctions and disjunctions have terms, and
whose links pair columns. -/
def Complete : Predicate → Prop
  | .const _ | .leaf _ _ _ => True
  | .and terms | .or terms => terms ≠ [] ∧ CompleteAll terms
  | .not inner => Complete inner
  | .traverse _ via inner => via.Pairs ∧ Complete inner
termination_by structural p => p

def CompleteAll : List Predicate → Prop
  | [] => True
  | p :: rest => Complete p ∧ CompleteAll rest
termination_by structural ps => ps

end

theorem completeAll_iff {ps : List Predicate} : CompleteAll ps ↔ ∀ p ∈ ps, Complete p := by
  induction ps with
  | nil => simp [CompleteAll]
  | cons p rest ih => rw [CompleteAll, ih, List.forall_mem_cons]

end Predicate

namespace Condition

open Expression

variable {Atom Head : Type} {d : Dialect Atom Head} {φ : Phrasing Head}

/-- Links and what is asked of the rows, as texts and as what is read. -/
theorem forall₂_links {links : List String} {text : List Char} {e : Expression}
    (hlinks : ∀ link ∈ links, Reads φ.escapes link.toList (φ.comparison link.toList))
    (h : Reads φ.escapes text e) :
    List.Forall₂ (Reads φ.escapes) (links.map String.toList ++ [text])
      (links.map (fun link => φ.comparison link.toList) ++ [e]) := by
  induction links with
  | nil => exact .cons h .nil
  | cons link links ih =>
    rw [List.forall_mem_cons] at hlinks
    exact .cons hlinks.1 (ih hlinks.2)

theorem separatedText_links (links : List String) (text : List Char) :
    (String.join (links.map (· ++ " AND "))).toList ++ text =
      separatedText .and (links.map String.toList ++ [text]) := by
  induction links with
  | nil => rfl
  | cons link links ih =>
    rw [List.map_cons, String.join_cons, String.toList_append, String.toList_append,
      List.append_assoc, List.append_assoc, ih]
    cases links <;> rfl

/-- Terms in parentheses are read as what is joined of the terms. -/
theorem means_of_terms (c : Connective) {p : Predicate} {ps : List Predicate}
    {cs : List (Condition Atom Head)} {n : Nat} (hne : ps ≠ [])
    (h : ∃ es, es.length = ps.length ∧ List.Forall₂ (Reads φ.escapes) (texts d n cs) es ∧
      (∀ ts, values es ts = Predicate.values ps ts) ∧
      Stands d φ n (n + countAll d cs) (Predicate.atomsAll ps) (es.flatMap atoms))
    (hvalue : ∀ ts, p.value ts = (c.truth (Predicate.values ps ts).1, (Predicate.values ps ts).2))
    (hatoms : p.atoms = Predicate.atomsAll ps) :
    ∃ e, Reads φ.escapes (Piece.chars n ((Condition.chain c cs).pieces d)) e ∧
      Means d φ n (n + Piece.count ((Condition.chain c cs).pieces d)) p e := by
  obtain ⟨es, hlength, hreads, hvalues, hstands⟩ := h
  have hes : es ≠ [] := fun hnil => by
    rw [hnil, List.length_nil] at hlength
    exact hne (List.length_eq_zero_iff.1 hlength.symm)
  refine ⟨joined c es, ?_, fun ts => ?_, ?_⟩
  · rw [chars_chain]
    exact Reads.chain hreads hes
  · rw [value_joined c hes, hvalues, hvalue]
  · rw [count_chain, atoms_joined, hatoms]
    exact hstands

mutual

/-- **The text of a condition means its predicate.** -/
theorem means_of_ofPredicate (hd : d.Phrased φ) :
    (p : Predicate) → p.Complete → ∀ c, ofPredicate d p = .ok c → ∀ n,
      ∃ e, Reads φ.escapes (Piece.chars n (c.pieces d)) e ∧
        Means d φ n (n + Piece.count (c.pieces d)) p e
  | .const b, _, c, hc, n => by
    cases hc
    have htext : Piece.chars n ((Condition.const b : Condition Atom Head).pieces d) =
        (d.truth b).toList := by
      rw [pieces, Piece.chars_text_cons]
      exact List.append_nil _
    refine ⟨.const b, ?_, fun _ => rfl, .nil⟩
    rw [htext]
    exact hd.truth b
  | .leaf path cmp operand, _, c, hc, n => by
    obtain ⟨a, ha, rfl⟩ := Except.map_eq_ok_iff.1 hc
    exact ⟨_, hd.atom n ha, fun _ => rfl, .leaf ha .nil⟩
  | .and terms, hp, c, hc, n => by
    obtain ⟨cs, hcs, rfl⟩ := Except.map_eq_ok_iff.1 hc
    exact means_of_terms .and hp.1 (means_of_ofPredicates hd terms hp.2 cs hcs n) (fun _ => rfl) rfl
  | .or terms, hp, c, hc, n => by
    obtain ⟨cs, hcs, rfl⟩ := Except.map_eq_ok_iff.1 hc
    exact means_of_terms .or hp.1 (means_of_ofPredicates hd terms hp.2 cs hcs n) (fun _ => rfl) rfl
  | .not inner, hp, c, hc, n => by
    obtain ⟨c, hinner, rfl⟩ := Except.map_eq_ok_iff.1 hc
    obtain ⟨e, hreads, hvalue, hstands⟩ := means_of_ofPredicate hd inner hp c hinner n
    have hnot : ∀ ts, (Expression.not e).value ts = (Predicate.not inner).value ts := fun ts => by
      rw [value, hvalue, Predicate.value]
    by_cases hparen : hasParentheses inner
    · rw [if_pos hparen]
      refine ⟨.not e, ?_, hnot, hstands⟩
      rw [pieces, Piece.chars_text_cons]
      exact hreads.not
    · rw [if_neg hparen]
      refine ⟨.not e, ?_, hnot, ?_⟩
      · rw [chars_notParen]
        exact hreads.notParen
      · rw [count_notParen]
        exact hstands
  | .traverse .subquery via inner, hp, c, hc, n => by
    obtain ⟨h, hvia, hc⟩ := Except.bind_eq_ok_iff.1 hc
    obtain ⟨c, hinner, hc⟩ := Except.bind_eq_ok_iff.1 hc
    cases hc
    obtain ⟨e, hreads, hvalue, hstands⟩ := means_of_ofPredicate hd inner hp.2 c hinner n
    obtain ⟨ws, hws, hordinary⟩ := hd.source hvia
    have hlexes : Lexes φ.escapes (φ.source h).toList (ws.map .word) := by
      rw [hws]
      exact lexes_words fun s hs => (hordinary s hs).toIsWord
    have hwhere : .word "WHERE" ∉ ws.map Token.word := fun hmem => by
      obtain ⟨s, hs, hword⟩ := List.mem_map.1 hmem
      cases hword
      exact (hordinary _ hs).unreserved (by decide)
    refine ⟨.subquery (ofText φ.escapes (φ.source h).toList) (φ.condition h e), ?_,
      fun _ => rfl, ?_⟩
    · have hsubquery := Reads.subquery hlexes hwhere (forall₂_links (hd.link hvia) hreads) (by simp)
      rw [← hlexes.ofText_eq, ← separatedText_links] at hsubquery
      rw [chars_subquery, hd.head hp.1 hvia, Phrasing.condition]
      simpa only [String.toList_append, List.append_assoc] using hsubquery
    · rw [count_subquery]
      exact .subquery hvia hinner hreads hvalue hstands .nil
  | .traverse .join _ inner, hp, c, hc, n => by
    obtain ⟨e, hreads, hvalue, hstands⟩ := means_of_ofPredicate hd inner hp.2 c hc n
    exact ⟨e, hreads, hvalue, hstands⟩
termination_by structural p => p

/-- So do the texts of several conditions. -/
theorem means_of_ofPredicates (hd : d.Phrased φ) :
    (ps : List Predicate) → Predicate.CompleteAll ps → ∀ cs, ofPredicates d ps = .ok cs → ∀ n,
      ∃ es, es.length = ps.length ∧ List.Forall₂ (Reads φ.escapes) (texts d n cs) es ∧
        (∀ ts, values es ts = Predicate.values ps ts) ∧
        Stands d φ n (n + countAll d cs) (Predicate.atomsAll ps) (es.flatMap atoms)
  | [], _, cs, hcs, n => by
    cases hcs
    exact ⟨[], rfl, .nil, fun _ => rfl, .nil⟩
  | p :: rest, hps, cs, hcs, n => by
    obtain ⟨c, hc, hcs⟩ := Except.bind_eq_ok_iff.1 hcs
    obtain ⟨others, hothers, hcs⟩ := Except.bind_eq_ok_iff.1 hcs
    cases hcs
    obtain ⟨e, hreads, hvalue, hstands⟩ := means_of_ofPredicate hd p hps.1 c hc n
    obtain ⟨es, hlength, hothersRead, hvalues, hothersStand⟩ :=
      means_of_ofPredicates hd rest hps.2 others hothers (n + Piece.count (c.pieces d))
    refine ⟨e :: es, congrArg (· + 1) hlength, .cons hreads hothersRead, fun ts => ?_, ?_⟩
    · rw [values, Predicate.values, hvalue, hvalues]
    · rw [countAll, ← Nat.add_assoc]
      exact hstands.append hothersStand
termination_by structural ps => ps

end

end Condition

end RoleQuery
