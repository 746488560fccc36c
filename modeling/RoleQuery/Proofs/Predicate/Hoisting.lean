import RoleQuery.Proofs.Catalog.Examples
import RoleQuery.Proofs.Predicate.Aliases
import RoleQuery.Proofs.Predicate.Written
import RoleQuery.Tables.Basic

/-!
# Joins of the outer statement

A statement lists the joins of its predicate once, before the condition, and the condition
then speaks of one row of each. That is another reading than the one of the predicate,
where every join asks for some row of its own. The two agree for compiled filters. Joins
stand below nothing but conjunctions, so the choice of a row can be made before the others;
what a join asks of its row reads no other row; and the aliases are distinct, so that every
choice can be bound at once.
-/
namespace RoleQuery.Predicate

mutual

/-- A predicate with every join replaced by what it asks of its row. -/
def hoisted : Predicate → Predicate
  | .const b => .const b
  | .leaf path c operand => .leaf path c operand
  | .and terms => .and (hoistedAll terms)
  | .or terms => .or (hoistedAll terms)
  | .not inner => .not (hoisted inner)
  | .traverse .subquery via inner => .traverse .subquery via (hoisted inner)
  | .traverse .join _ inner => hoisted inner
termination_by structural p => p

def hoistedAll : List Predicate → List Predicate
  | [] => []
  | p :: rest => hoisted p :: hoistedAll rest
termination_by structural ps => ps

end

/-- One row for each of several traversals, bound to their aliases. -/
def chosen (vias : List Traversal) (rows : List Json) : Bindings :=
  (vias.map (·.binder)).zip rows

@[simp] theorem chosen_nil (rows : List Json) : chosen [] rows = [] := rfl

@[simp] theorem chosen_cons (via : Traversal) (vias : List Traversal) (row : Json)
    (rows : List Json) :
    chosen (via :: vias) (row :: rows) = (via.binder, row) :: chosen vias rows :=
  rfl

theorem chosen_append {vias others : List Traversal} {rows otherRows : List Json}
    (h : vias.length = rows.length) :
    chosen (vias ++ others) (rows ++ otherRows) = chosen vias rows ++ chosen others otherRows := by
  rw [chosen, List.map_append, List.zip_append (by rwa [List.length_map])]
  rfl

theorem map_fst_chosen {vias : List Traversal} {rows : List Json} (h : vias.length = rows.length) :
    (chosen vias rows).map (·.1) = vias.map (·.binder) :=
  List.map_fst_zip (by rw [List.length_map, h])

/-- Every traversal of which a row is chosen is bound to one with the property. -/
theorem exists_mem_chosen {R : Traversal → Json → Prop} {vias : List Traversal} {rows : List Json}
    (h : List.Forall₂ R vias rows) :
    ∀ via ∈ vias, ∃ row, (via.binder, row) ∈ chosen vias rows ∧ R via row := by
  induction h with
  | nil => simp
  | @cons via row vias rows hrow _ ih =>
    intro other hother
    rcases List.mem_cons.1 hother with rfl | hother
    · exact ⟨row, List.mem_cons_self, hrow⟩
    · obtain ⟨found, hfound, hR⟩ := ih other hother
      exact ⟨found, List.mem_cons_of_mem _ hfound, hR⟩

/-- Where the aliases are distinct, each of them is looked up as it is bound. -/
theorem lookup_of_mem {bindings : Bindings} (hnodup : (bindings.map (·.1)).Nodup) {a : Alias}
    {row : Json} (h : (a, row) ∈ bindings) : bindings.lookup a = some row := by
  induction bindings with
  | nil => cases h
  | cons first rest ih =>
    rw [List.map_cons, List.nodup_cons] at hnodup
    rcases List.mem_cons.1 h with rfl | hrest
    · simp
    · have hne : a ≠ first.1 := fun heq => hnodup.1 (List.mem_map.2 ⟨(a, row), hrest, heq⟩)
      rw [List.lookup_cons, beq_false_of_ne hne]
      exact ih hnodup.2 hrest

/-! ## What a predicate reads -/

mutual

/-- Where no join is allowed there is none to replace. -/
theorem hoisted_eq_self {scope : Scope} :
    (p : Predicate) → Scoped scope false p → hoisted p = p
  | .const _, _ => rfl
  | .leaf _ _ _, _ => rfl
  | .and terms, h => congrArg Predicate.and (hoistedAll_eq_self terms h.2)
  | .or terms, h => congrArg Predicate.or (hoistedAll_eq_self terms h.2)
  | .not inner, h => congrArg Predicate.not (hoisted_eq_self inner h.2)
  | .traverse .subquery via inner, h =>
    congrArg (Predicate.traverse .subquery via) (hoisted_eq_self inner h.2.2.2)
  | .traverse .join _ _, h => absurd (h.1 rfl).1 (by simp)
termination_by structural p => p

theorem hoistedAll_eq_self {scope : Scope} :
    (ps : List Predicate) → ScopedAll scope false ps → hoistedAll ps = ps
  | [], _ => rfl
  | p :: rest, h => by rw [hoistedAll, hoisted_eq_self p h.1, hoistedAll_eq_self rest h.2]
termination_by structural ps => ps

end

mutual

/-- Joins lead away from the scope of the predicate. -/
theorem parent_of_mem_joins {scope : Scope} {joined : Bool} :
    (p : Predicate) → Scoped scope joined p → ∀ via ∈ p.joins, via.parent = scope
  | .const _, _ => by simp [joins]
  | .leaf _ _ _, _ => by simp [joins]
  | .and terms, h => parent_of_mem_joinsAll terms h.2
  | .or terms, h => parent_of_mem_joinsAll terms h.2
  | .not inner, h => parent_of_mem_joins inner h.2
  | .traverse .subquery _ _, _ => by simp [joins]
  | .traverse .join via inner, h => by
    rw [joins, joins_eq_nil inner h.2.2.2]
    simpa using h.2.1
termination_by structural p => p

theorem parent_of_mem_joinsAll {scope : Scope} {joined : Bool} :
    (ps : List Predicate) → ScopedAll scope joined ps → ∀ via ∈ joinsAll ps, via.parent = scope
  | [], _ => by simp [joinsAll]
  | p :: rest, h => by
    rw [joinsAll, List.forall_mem_append]
    exact ⟨parent_of_mem_joins p h.1, parent_of_mem_joinsAll rest h.2⟩
termination_by structural ps => ps

end

section Reading

variable {resolve : Resolver} {root : Json}

mutual

/-- Of the rows that are bound around a predicate, it reads only that of its scope. -/
theorem eval_eq_of_scoped {scope : Scope} {joined : Bool} {bindings bindings' : Bindings}
    (hrow : scope.row? root bindings = scope.row? root bindings') :
    (p : Predicate) → Scoped scope joined p →
      eval resolve root bindings p = eval resolve root bindings' p
  | .const _, _ => rfl
  | .leaf path c operand, h => by rw [eval, eval, h.1, hrow]
  | .and terms, h => congrArg Truth.all (evalAll_eq_of_scoped hrow terms h.2)
  | .or terms, h => congrArg Truth.any (evalAll_eq_of_scoped hrow terms h.2)
  | .not inner, h => congrArg Truth.not (eval_eq_of_scoped hrow inner h.2)
  | .traverse _ via inner, h => by
    have hinner : ∀ row, eval resolve root ((via.binder, row) :: bindings) inner =
        eval resolve root ((via.binder, row) :: bindings') inner := by
      intro row
      apply eval_eq_of_scoped _ inner h.2.2.2
      rw [Scope.row?, Scope.row?, List.lookup_cons_self, List.lookup_cons_self]
    rw [eval, eval, h.2.1, hrow]
    simp only [hinner]
termination_by structural p => p

theorem evalAll_eq_of_scoped {scope : Scope} {joined : Bool} {bindings bindings' : Bindings}
    (hrow : scope.row? root bindings = scope.row? root bindings') :
    (ps : List Predicate) → ScopedAll scope joined ps →
      evalAll resolve root bindings ps = evalAll resolve root bindings' ps
  | [], _ => rfl
  | p :: rest, h => by
    rw [evalAll, evalAll, eval_eq_of_scoped hrow p h.1, evalAll_eq_of_scoped hrow rest h.2]
termination_by structural ps => ps

end

/-- A predicate of the root reads none of the rows that are bound. -/
theorem eval_eq_of_root {p : Predicate} {joined : Bool} (hp : Scoped .root joined p)
    (bindings bindings' : Bindings) :
    eval resolve root bindings p = eval resolve root bindings' p := by
  apply eval_eq_of_scoped _ p hp
  rfl

/-- What a join asks of its row reads the row that is bound to its alias. -/
theorem eval_eq_of_lookup {p : Predicate} {a : Alias} {row : Json} {bindings : Bindings}
    (hp : Scoped (.bound a) false p) (hrow : bindings.lookup a = some row) :
    eval resolve root bindings p = eval resolve root [(a, row)] p := by
  apply eval_eq_of_scoped _ p hp
  rw [Scope.row?, Scope.row?, hrow, List.lookup_cons_self]

end Reading

/-! ## Choosing rows -/

section Choosing

variable {resolve : Resolver} {root : Json}

/-- A join of the root is true if what it asks is true of one of the rows that it leads to. -/
theorem eval_join_eq_true_iff {via : Traversal} {inner : Predicate}
    (hp : Scoped .root true (.traverse .join via inner)) :
    eval resolve root [] (.traverse .join via inner) = some true ↔
      ∃ row ∈ via.rows resolve root, eval resolve root [(via.binder, row)] inner = some true := by
  rw [eval, hp.2.1]
  simp only [Scope.row?, Option.some.injEq, List.any_eq_true, beq_iff_eq]

theorem all_cons_eq_true_iff {t : Truth} {ts : List Truth} :
    Truth.all (t :: ts) = some true ↔ t = some true ∧ Truth.all ts = some true := by
  simp only [Truth.all_eq_true_iff, List.forall_mem_cons]

/-- Rows can be chosen for some joins such that a statement about bindings is true
wherever they are bound. -/
def Choosable (resolve : Resolver) (root : Json) (vias : List Traversal) (P : Bindings → Prop) :
    Prop :=
  ∃ rows, List.Forall₂ (fun via row => row ∈ via.rows resolve root) vias rows ∧
    ∀ bindings : Bindings, (∀ b ∈ chosen vias rows, bindings.lookup b.1 = some b.2) → P bindings

/-- Without joins there is nothing to choose. -/
theorem choosable_of_unjoined {p : Predicate} (hp : Scoped .root false p)
    (h : eval resolve root [] p = some true) :
    Choosable resolve root p.joins fun bindings =>
      eval resolve root bindings p.hoisted = some true := by
  rw [joins_eq_nil p hp, hoisted_eq_self p hp]
  refine ⟨[], .nil, fun bindings _ => ?_⟩
  exact (eval_eq_of_root hp bindings []).trans h

mutual

/-- If a predicate of the root is true, rows can be chosen for its joins of
which the rest is true. -/
theorem choosable_of_eval : (p : Predicate) → Scoped .root true p →
    eval resolve root [] p = some true →
      Choosable resolve root p.joins fun bindings =>
        eval resolve root bindings p.hoisted = some true
  | .const _, hp, h => choosable_of_unjoined hp h
  | .leaf _ _ _, hp, h => choosable_of_unjoined hp h
  | .and terms, hp, h => choosable_of_evalAll terms hp.2 h
  | .or _, hp, h => choosable_of_unjoined hp h
  | .not _, hp, h => choosable_of_unjoined hp h
  | .traverse .subquery _ _, hp, h => choosable_of_unjoined ⟨by simp, hp.2⟩ h
  | .traverse .join via inner, hp, h => by
    obtain ⟨row, hmem, htrue⟩ := (eval_join_eq_true_iff hp).1 h
    have hinner := hp.2.2.2
    rw [joins, joins_eq_nil inner hinner, hoisted, hoisted_eq_self inner hinner]
    refine ⟨[row], .cons hmem .nil, fun bindings hbound => ?_⟩
    exact (eval_eq_of_lookup hinner (hbound _ List.mem_cons_self)).trans htrue
termination_by structural p => p

/-- The choices for the terms of a conjunction are made one after another. -/
theorem choosable_of_evalAll : (ps : List Predicate) → ScopedAll .root true ps →
    Truth.all (evalAll resolve root [] ps) = some true →
      Choosable resolve root (joinsAll ps) fun bindings =>
        Truth.all (evalAll resolve root bindings (hoistedAll ps)) = some true
  | [], _, _ => ⟨[], .nil, fun _ _ => rfl⟩
  | p :: rest, hps, h => by
    rw [evalAll, all_cons_eq_true_iff] at h
    obtain ⟨rows, hrows, htrue⟩ := choosable_of_eval p hps.1 h.1
    obtain ⟨others, hothers, htrues⟩ := choosable_of_evalAll rest hps.2 h.2
    refine ⟨rows ++ others, List.rel_append hrows hothers, fun bindings hbound => ?_⟩
    rw [joinsAll, chosen_append hrows.length_eq, List.forall_mem_append] at hbound
    rw [hoistedAll, evalAll, all_cons_eq_true_iff]
    exact ⟨htrue bindings hbound.1, htrues bindings hbound.2⟩
termination_by structural ps => ps

end

/-- A row that a join leads to is bound to its alias. -/
def Bound (resolve : Resolver) (root : Json) (bindings : Bindings) (via : Traversal) : Prop :=
  ∃ row, bindings.lookup via.binder = some row ∧ row ∈ via.rows resolve root

variable {bindings : Bindings}

theorem eval_of_unjoined {p : Predicate} (hp : Scoped .root false p)
    (h : eval resolve root bindings p.hoisted = some true) :
    eval resolve root [] p = some true := by
  rw [hoisted_eq_self p hp] at h
  exact (eval_eq_of_root hp [] bindings).trans h

mutual

/-- If the rest of a predicate of the root is true of rows that its joins lead
to, so is the predicate. -/
theorem eval_of_hoisted : (p : Predicate) → Scoped .root true p →
    (∀ via ∈ p.joins, Bound resolve root bindings via) →
      eval resolve root bindings p.hoisted = some true → eval resolve root [] p = some true
  | .const _, hp, _, h => eval_of_unjoined hp h
  | .leaf _ _ _, hp, _, h => eval_of_unjoined hp h
  | .and terms, hp, hbound, h => evalAll_of_hoistedAll terms hp.2 hbound h
  | .or _, hp, _, h => eval_of_unjoined hp h
  | .not _, hp, _, h => eval_of_unjoined hp h
  | .traverse .subquery _ _, hp, _, h => eval_of_unjoined ⟨by simp, hp.2⟩ h
  | .traverse .join via inner, hp, hbound, h => by
    obtain ⟨row, hrow, hmem⟩ := hbound via List.mem_cons_self
    have hinner := hp.2.2.2
    rw [hoisted, hoisted_eq_self inner hinner, eval_eq_of_lookup hinner hrow] at h
    exact (eval_join_eq_true_iff hp).2 ⟨row, hmem, h⟩
termination_by structural p => p

theorem evalAll_of_hoistedAll : (ps : List Predicate) → ScopedAll .root true ps →
    (∀ via ∈ joinsAll ps, Bound resolve root bindings via) →
      Truth.all (evalAll resolve root bindings (hoistedAll ps)) = some true →
        Truth.all (evalAll resolve root [] ps) = some true
  | [], _, _, _ => rfl
  | p :: rest, hps, hbound, h => by
    rw [joinsAll, List.forall_mem_append] at hbound
    rw [hoistedAll, evalAll, all_cons_eq_true_iff] at h
    rw [evalAll, all_cons_eq_true_iff]
    exact ⟨eval_of_hoisted p hps.1 hbound.1 h.1, evalAll_of_hoistedAll rest hps.2 hbound.2 h.2⟩
termination_by structural ps => ps

end

end Choosing

/-! ## What a statement says -/

section Written

open Condition (ofPredicate ofPredicates)

variable {Atom Head : Type} (d : Dialect Atom Head) {scope : Scope} {joined : Bool}

mutual

/-- The condition of a statement speaks of rows that are chosen by its joins. -/
theorem ofPredicate_hoisted :
    (p : Predicate) → Scoped scope joined p → ofPredicate d p.hoisted = ofPredicate d p
  | .const _, _ => rfl
  | .leaf _ _ _, _ => rfl
  | .and terms, hp => congrArg (Except.map _) (ofPredicates_hoistedAll terms hp.2)
  | .or terms, hp => by rw [hoisted, hoistedAll_eq_self terms hp.2]
  | .not inner, hp => by rw [hoisted, hoisted_eq_self inner hp.2]
  | .traverse .subquery _ inner, hp => by rw [hoisted, hoisted_eq_self inner hp.2.2.2]
  | .traverse .join _ inner, hp => by
    rw [hoisted, hoisted_eq_self inner hp.2.2.2]
    rfl
termination_by structural p => p

theorem ofPredicates_hoistedAll :
    (ps : List Predicate) → ScopedAll scope joined ps →
      ofPredicates d (hoistedAll ps) = ofPredicates d ps
  | [], _ => rfl
  | p :: rest, hps => by
    rw [hoistedAll, ofPredicates, ofPredicates, ofPredicate_hoisted p hps.1,
      ofPredicates_hoistedAll rest hps.2]
termination_by structural ps => ps

end

end Written

/-- A compiled filter holds of a document if one row can be chosen for each of its joins,
among those that the join leads to, such that the predicate without its joins is true of these
rows. Its joins all lead away from the document, its condition in a statement is the one of
the predicate without joins, and no two joins have one alias: the counter of 32 bits gives
none twice before it has given all. -/
theorem holds_iff_exists_chosen {catalog : Catalog} {e : Entity} {f : Filter} {start : Alias}
    {p : Predicate} (h : (ofFilter catalog e f start).1 = .ok p) :
    (f.traversals catalog (some e) ≤ UInt32.size → (p.joins.map (·.binder)).Nodup) ∧
    (∀ via ∈ p.joins, via.parent = .root) ∧
    (∀ {Atom Head : Type} (d : Dialect Atom Head),
      Condition.ofPredicate d p = Condition.ofPredicate d p.hoisted) ∧
    ((p.joins.map (·.binder)).Nodup → ∀ resolve document,
      p.holds resolve document = true ↔
        ∃ rows, List.Forall₂ (fun via row => row ∈ via.rows resolve document) p.joins rows ∧
          p.hoisted.eval resolve document (chosen p.joins rows) = some true) := by
  have hp := scoped_ofFilter h
  refine ⟨fun hcount => ?_, parent_of_mem_joins p hp,
    fun d => (ofPredicate_hoisted d p hp).symm, ?_⟩
  · exact (joins_sublist_binders p).nodup (nodup_binders h hcount)
  · intro hnodup resolve document
    have hlookup : ∀ rows, p.joins.length = rows.length →
        ∀ b ∈ chosen p.joins rows, (chosen p.joins rows).lookup b.1 = some b.2 := by
      intro rows hlength b hb
      exact lookup_of_mem (by rwa [map_fst_chosen hlength]) hb
    rw [holds, beq_iff_eq]
    constructor
    · intro heval
      obtain ⟨rows, hrows, htrue⟩ := choosable_of_eval p hp heval
      exact ⟨rows, hrows, htrue _ (hlookup rows hrows.length_eq)⟩
    · rintro ⟨rows, hrows, htrue⟩
      apply eval_of_hoisted p hp _ htrue
      intro via hvia
      obtain ⟨row, hmem, hrow⟩ := exists_mem_chosen hrows via hvia
      exact ⟨row, hlookup rows hrows.length_eq _ hmem, hrow⟩

open Examples

/-- Books by Ada with a review of more than five stars. -/
def praisedByAda : Filter :=
  .group [.object "author" [.scalar "name" .eq (.text "Ada")],
    .element "reviews" [.scalar "stars" .gt (.integer 5)]] none none

def reviewedTwice : Json :=
  .object [("id", .int 1),
    ("reviews", .list [.object [("stars", .int 5)], .object [("stars", .int 9)]])]

/-- Ada is the author of every book. -/
def byAda : Resolver := fun _ _ => [.object [("id", .int 7), ("full_name", .str "Ada")]]

/-- An author and a review can be chosen for a book with two reviews by Ada. -/
theorem holds_iff_exists_chosen_praisedByAda :
    ∃ p, (ofFilter library book praisedByAda 1).1 = .ok p ∧ p.joins.map (·.binder) = [1, 2] ∧
      ∃ rows, List.Forall₂ (fun via row => row ∈ via.rows byAda reviewedTwice) p.joins rows ∧
        p.hoisted.eval byAda reviewedTwice (chosen p.joins rows) = some true := by
  refine ⟨_, rfl, rfl, ?_⟩
  have hchosen : ∀ p, (ofFilter library book praisedByAda 1).1 = .ok p →
      (p.joins.map (·.binder)).Nodup → p.holds byAda reviewedTwice = true →
        ∃ rows, List.Forall₂ (fun via row => row ∈ via.rows byAda reviewedTwice) p.joins rows ∧
          p.hoisted.eval byAda reviewedTwice (chosen p.joins rows) = some true := by
    intro p hp hnodup hholds
    exact ((holds_iff_exists_chosen hp).2.2.2 hnodup byAda reviewedTwice).1 hholds
  exact hchosen _ rfl (by decide) rfl

end RoleQuery.Predicate
