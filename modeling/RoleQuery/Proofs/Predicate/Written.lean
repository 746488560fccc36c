import RoleQuery.Proofs.Outcome
import RoleQuery.Proofs.Predicate.Scoping
import RoleQuery.Proofs.Statement.Condition

/-!
# What a condition tells about its predicate

A statement holds the condition of a predicate and the heads of its joins, and neither says
which aliases were bound around a column or which traversal a joined comparison belongs to.
For compiled predicates nothing is lost: a column that is not of the root belongs to a join,
and joins stand in the order of the comparisons that they are joined for. So two compiled
predicates with one condition and the same joins have the same truth of every document.
-/
namespace RoleQuery

variable {Atom Head : Type}

/-- What a comparison and a traversal are written as tells what they mean. The columns of a
row that is bound to one of certain aliases are told from those of the root. -/
structure Dialect.Tells (d : Dialect Atom Head) (resolve : Resolver) (apart : Alias → Prop) :
    Prop where
  leaf : ∀ ⦃path path' c c' operand operand' a⦄, c.Takes operand → c'.Takes operand' →
    path.segments ≠ [] → path'.segments ≠ [] → path.scope = path'.scope →
    d.ofLeaf path c operand = .ok a → d.ofLeaf path' c' operand' = .ok a →
    path.segments = path'.segments ∧ ∀ found, c.test found operand = c'.test found operand'
  scope : ∀ ⦃path path' c c' operand operand' a b⦄, c.Takes operand → c'.Takes operand' →
    d.ofLeaf path c operand = .ok a → d.ofLeaf path' c' operand' = .ok a → path.scope = .root →
    path'.scope = .bound b → ¬ apart b
  traversal : ∀ ⦃via via' h⦄, via.path ≠ [] → via'.path ≠ [] → via.parent = via'.parent →
    d.ofTraversal via = .ok h → d.ofTraversal via' = .ok h →
    via.binder = via'.binder ∧ ∀ row, via.rows resolve row = via'.rows resolve row

/-- The comparisons and sub-queries that a dialect makes of compiled predicates. -/
structure Dialect.Writes (d : Dialect Atom Head) (okAtom : Atom → Prop) (okHead : Head → Prop) :
    Prop where
  atom : ∀ ⦃path c operand a⦄, c.Takes operand → path.segments ≠ [] →
    d.ofLeaf path c operand = .ok a → okAtom a
  head : ∀ ⦃via h⦄, via.path ≠ [] → d.ofTraversal via = .ok h → okHead h

namespace Predicate

open Condition (ofPredicate ofPredicates)

variable {d : Dialect Atom Head} {resolve : Resolver} {apart : Alias → Prop}

/-- A compiled predicate and its condition: what the condition is tells what the predicate is,
except that a comparison may be one of the root or of a joined row. -/
inductive Written (d : Dialect Atom Head) (scope : Scope) (joined : Bool) :
    Predicate → Condition Atom Head → Prop
  | const (b : Bool) : Written d scope joined (.const b) (.const b)
  | leaf {path : ColumnPath} {c : Comparison} {operand : Option Value} {a : Atom}
      (hpath : path.scope = scope) (hne : path.segments ≠ []) (htakes : c.Takes operand)
      (ha : d.ofLeaf path c operand = .ok a) :
      Written d scope joined (.leaf path c operand) (.atom a)
  | not {path : ColumnPath} {c : Comparison} {operand : Option Value} {a : Atom}
      (hpath : path.scope = scope) (hne : path.segments ≠ []) (htakes : c.Takes operand)
      (ha : d.ofLeaf path c operand = .ok a) :
      Written d scope joined (.not (.leaf path c operand)) (.notParen (.atom a))
  | and {terms : List Predicate} {cs : List (Condition Atom Head)} (hlength : 2 ≤ terms.length)
      (hterms : ScopedAll scope joined terms) (hcs : ofPredicates d terms = .ok cs) :
      Written d scope joined (.and terms) (.chain .and cs)
  | or {terms : List Predicate} {cs : List (Condition Atom Head)} (hlength : 2 ≤ terms.length)
      (hterms : ScopedAll scope false terms) (hcs : ofPredicates d terms = .ok cs) :
      Written d scope joined (.or terms) (.chain .or cs)
  | subquery {via : Traversal} {inner : Predicate} {h : Head} {c : Condition Atom Head}
      (hparent : via.parent = scope) (hpath : via.path ≠ [])
      (hinner : Scoped (.bound via.binder) false inner) (hh : d.ofTraversal via = .ok h)
      (hc : ofPredicate d inner = .ok c) :
      Written d scope joined (.traverse .subquery via inner) (.subquery h c)
  | joinLeaf {via : Traversal} {path : ColumnPath} {c : Comparison} {operand : Option Value}
      {a : Atom} (hjoined : joined) (hparent : via.parent = scope) (hvia : via.path ≠ [])
      (hpath : path.scope = .bound via.binder) (hne : path.segments ≠ [])
      (htakes : c.Takes operand) (ha : d.ofLeaf path c operand = .ok a) :
      Written d scope joined (.traverse .join via (.leaf path c operand)) (.atom a)
  | joinNot {via : Traversal} {path : ColumnPath} {c : Comparison} {operand : Option Value}
      {a : Atom} (hjoined : joined) (hparent : via.parent = scope) (hvia : via.path ≠ [])
      (hpath : path.scope = .bound via.binder) (hne : path.segments ≠ [])
      (htakes : c.Takes operand) (ha : d.ofLeaf path c operand = .ok a) :
      Written d scope joined (.traverse .join via (.not (.leaf path c operand)))
        (.notParen (.atom a))

theorem exists_leaf_of_isLeaf {p : Predicate} (h : p.isLeaf) :
    ∃ path c operand, p = .leaf path c operand := by
  cases p with
  | leaf path c operand => exact ⟨path, c, operand, rfl⟩
  | _ => cases h

/-- A compiled predicate has one of the forms. -/
theorem written_of_ofPredicate {scope : Scope} {joined : Bool} {p : Predicate}
    {c : Condition Atom Head} (hp : Scoped scope joined p) (h : ofPredicate d p = .ok c) :
    Written d scope joined p c := by
  cases p with
  | const b =>
    cases h
    exact .const b
  | leaf path cmp operand =>
    obtain ⟨a, ha, rfl⟩ := Except.map_eq_ok_iff.1 h
    exact .leaf hp.1 hp.2.1 hp.2.2 ha
  | and terms =>
    obtain ⟨cs, hcs, rfl⟩ := Except.map_eq_ok_iff.1 h
    exact .and hp.1 hp.2 hcs
  | or terms =>
    obtain ⟨cs, hcs, rfl⟩ := Except.map_eq_ok_iff.1 h
    exact .or hp.1 hp.2 hcs
  | not inner =>
    obtain ⟨path, cmp, operand, rfl⟩ := exists_leaf_of_isLeaf hp.1
    obtain ⟨_, hleaf, rfl⟩ := Except.map_eq_ok_iff.1 h
    obtain ⟨a, ha, rfl⟩ := Except.map_eq_ok_iff.1 hleaf
    exact .not hp.2.1 hp.2.2.1 hp.2.2.2 ha
  | traverse how via inner =>
    obtain ⟨hjoin, hparent, hpath, hinner⟩ := hp
    cases how with
    | subquery =>
      obtain ⟨head, hhead, h⟩ := Except.bind_eq_ok_iff.1 h
      obtain ⟨condition, hcondition, h⟩ := Except.bind_eq_ok_iff.1 h
      cases h
      exact .subquery hparent hpath hinner hhead hcondition
    | join =>
      obtain ⟨hjoined, hsingle⟩ := hjoin rfl
      rw [ofPredicate] at h
      cases inner with
      | leaf path cmp operand =>
        obtain ⟨a, ha, rfl⟩ := Except.map_eq_ok_iff.1 h
        exact .joinLeaf hjoined hparent hpath hinner.1 hinner.2.1 hinner.2.2 ha
      | not inner =>
        obtain ⟨path, cmp, operand, rfl⟩ := exists_leaf_of_isLeaf hinner.1
        obtain ⟨_, hleaf, rfl⟩ := Except.map_eq_ok_iff.1 h
        obtain ⟨a, ha, rfl⟩ := Except.map_eq_ok_iff.1 hleaf
        exact .joinNot hjoined hparent hpath hinner.2.1 hinner.2.2.1 hinner.2.2.2 ha
      | _ => cases hsingle

mutual

/-- Where joins are not allowed there is none. -/
theorem joins_eq_nil {scope : Scope} : (p : Predicate) → Scoped scope false p → p.joins = []
  | .const _, _ | .leaf _ _ _, _ | .traverse .subquery _ _, _ => rfl
  | .and terms, h | .or terms, h => joinsAll_eq_nil terms h.2
  | .not inner, h => joins_eq_nil inner h.2
  | .traverse .join _ _, h => absurd (h.1 rfl).1 (by simp)
termination_by structural p => p

theorem joinsAll_eq_nil {scope : Scope} :
    (ps : List Predicate) → ScopedAll scope false ps → joinsAll ps = []
  | [], _ => rfl
  | p :: rest, h => by
    rw [joinsAll, joins_eq_nil p h.1, joinsAll_eq_nil rest h.2, List.append_nil]
termination_by structural ps => ps

end

theorem length_of_ofPredicates {ps : List Predicate} {cs : List (Condition Atom Head)}
    (h : ofPredicates d ps = .ok cs) : cs.length = ps.length := by
  induction ps generalizing cs with
  | nil => cases h; rfl
  | cons p rest ih =>
    obtain ⟨c, -, h⟩ := Except.bind_eq_ok_iff.1 h
    obtain ⟨others, hothers, h⟩ := Except.bind_eq_ok_iff.1 h
    cases h
    rw [List.length_cons, List.length_cons, ih hothers]

mutual

/-- The condition of a compiled predicate is regular. -/
theorem regular_of_ofPredicate {okAtom : Atom → Prop} {okHead : Head → Prop}
    (hd : d.Writes okAtom okHead) {scope : Scope} {joined : Bool} (p : Predicate)
    {c : Condition Atom Head} (hp : Scoped scope joined p) (hc : ofPredicate d p = .ok c) :
    c.Regular okAtom okHead := by
  have hwritten := written_of_ofPredicate hp hc
  cases hwritten with
  | const b => trivial
  | leaf hpath hne htakes ha => exact hd.atom htakes hne ha
  | not hpath hne htakes ha => exact hd.atom htakes hne ha
  | joinLeaf hjoined hparent hvia hpath hne htakes ha => exact hd.atom htakes hne ha
  | joinNot hjoined hparent hvia hpath hne htakes ha => exact hd.atom htakes hne ha
  | @and terms cs hlength hterms hcs =>
    have hcount := length_of_ofPredicates hcs
    refine ⟨fun hnil => ?_, fun hone => ?_, regularAll_of_ofPredicates hd terms hterms hcs⟩
    · rw [hnil, List.length_nil] at hcount
      omega
    · omega
  | @or terms cs hlength hterms hcs =>
    have hcount := length_of_ofPredicates hcs
    refine ⟨fun hnil => ?_, fun _ => rfl, regularAll_of_ofPredicates hd terms hterms hcs⟩
    rw [hnil, List.length_nil] at hcount
    omega
  | @subquery via inner h c hparent hpath hinner hh hcondition =>
    exact ⟨hd.head hpath hh, regular_of_ofPredicate hd inner hinner hcondition⟩
termination_by structural p

theorem regularAll_of_ofPredicates {okAtom : Atom → Prop} {okHead : Head → Prop}
    (hd : d.Writes okAtom okHead) {scope : Scope} {joined : Bool} (ps : List Predicate)
    {cs : List (Condition Atom Head)} (hps : ScopedAll scope joined ps)
    (hcs : ofPredicates d ps = .ok cs) : Condition.RegularAll okAtom okHead cs := by
  match ps, hps, hcs with
  | [], _, hcs =>
    cases hcs
    trivial
  | p :: rest, hps, hcs =>
    obtain ⟨c, hc, hcs⟩ := Except.bind_eq_ok_iff.1 hcs
    obtain ⟨others, hothers, hcs⟩ := Except.bind_eq_ok_iff.1 hcs
    cases hcs
    exact ⟨regular_of_ofPredicate hd p hps.1 hc, regularAll_of_ofPredicates hd rest hps.2 hothers⟩
termination_by structural ps

end

/-- Comparisons that are written as one have the same truth where their
scopes have the same row. -/
theorem eval_leaf_eq (hd : d.Tells resolve apart) {path path' : ColumnPath} {c c' : Comparison}
    {operand operand' : Option Value} {a : Atom} (htakes : c.Takes operand)
    (htakes' : c'.Takes operand') (hne : path.segments ≠ []) (hne' : path'.segments ≠ [])
    (hscope : path.scope = path'.scope) (ha : d.ofLeaf path c operand = .ok a)
    (ha' : d.ofLeaf path' c' operand' = .ok a) (root : Json) (bindings : Bindings) :
    eval resolve root bindings (.leaf path c operand) =
      eval resolve root bindings (.leaf path' c' operand') := by
  obtain ⟨hsegments, htest⟩ := hd.leaf htakes htakes' hne hne' hscope ha ha'
  rw [eval, eval, hscope, hsegments, htest]

/-- Traversals that are written as one have the same truth if what they
ask of their rows has. -/
theorem eval_traverse_eq (hd : d.Tells resolve apart) {how how' : Lowering} {via via' : Traversal}
    {inner inner' : Predicate} {h : Head} (hne : via.path ≠ []) (hne' : via'.path ≠ [])
    (hparent : via.parent = via'.parent) (hh : d.ofTraversal via = .ok h)
    (hh' : d.ofTraversal via' = .ok h)
    (hinner : ∀ root bindings, eval resolve root bindings inner = eval resolve root bindings inner')
    (root : Json) (bindings : Bindings) :
    eval resolve root bindings (.traverse how via inner) =
      eval resolve root bindings (.traverse how' via' inner') := by
  obtain ⟨hbinder, hrows⟩ := hd.traversal hne hne' hparent hh hh'
  rw [eval, eval, hparent, hbinder]
  simp only [hrows, hinner]

/-! ## The same joins -/

theorem mapM_append_eq_ok {f : Traversal → Except RequestError Head} {xs ys : List Traversal}
    {hs : List Head} (h : (xs ++ ys).mapM f = .ok hs) :
    ∃ as bs, xs.mapM f = .ok as ∧ ys.mapM f = .ok bs ∧ hs = as ++ bs := by
  rw [List.mapM_append] at h
  obtain ⟨as, has, h⟩ := Except.bind_eq_ok_iff.1 h
  obtain ⟨bs, hbs, h⟩ := Except.bind_eq_ok_iff.1 h
  cases h
  exact ⟨as, bs, has, hbs, rfl⟩

theorem mapM_singleton_eq_ok {f : Traversal → Except RequestError Head} {via : Traversal}
    {hs : List Head} (h : [via].mapM f = .ok hs) : ∃ head, f via = .ok head ∧ hs = [head] := by
  rw [List.mapM_cons] at h
  obtain ⟨head, hhead, h⟩ := Except.bind_eq_ok_iff.1 h
  obtain ⟨bs, hbs, h⟩ := Except.bind_eq_ok_iff.1 h
  cases hbs
  cases h
  exact ⟨head, hhead, rfl⟩

/-- Joins that are written the same, if what is written behind them is. Their rows
are apart from the root. -/
structure SameJoins (d : Dialect Atom Head) (apart : Alias → Prop) (vias vias' : List Traversal)
    (rest rest' : List Head) : Prop where
  left : ∀ via ∈ vias, apart via.binder
  right : ∀ via ∈ vias', apart via.binder
  heads : ∃ hs hs', vias.mapM d.ofTraversal = .ok hs ∧ vias'.mapM d.ofTraversal = .ok hs' ∧
    hs ++ rest = hs' ++ rest'

namespace SameJoins

variable {vias vias' more more' : List Traversal} {via via' : Traversal} {rest rest' : List Head}

theorem nil (h : SameJoins d apart [] [] rest rest') : rest = rest' := by
  obtain ⟨hs, hs', hjoins, hjoins', heq⟩ := h.heads
  cases hjoins
  cases hjoins'
  exact heq

theorem singleton (h : SameJoins d apart [via] [via'] rest rest') :
    (∃ head, d.ofTraversal via = .ok head ∧ d.ofTraversal via' = .ok head) ∧ rest = rest' := by
  obtain ⟨hs, hs', hjoins, hjoins', heq⟩ := h.heads
  obtain ⟨head, hhead, rfl⟩ := mapM_singleton_eq_ok hjoins
  obtain ⟨head', hhead', rfl⟩ := mapM_singleton_eq_ok hjoins'
  obtain ⟨rfl, hrest⟩ := List.cons.inj heq
  exact ⟨⟨head, hhead, hhead'⟩, hrest⟩

/-- Of several joins the first ones come first, in front of the others. -/
theorem append (h : SameJoins d apart (vias ++ more) (vias' ++ more') rest rest') :
    ∃ middle middle', SameJoins d apart vias vias' middle middle' ∧
      (middle = middle' → SameJoins d apart more more' rest rest') := by
  obtain ⟨hleft, hright, hs, hs', hjoins, hjoins', heq⟩ := h
  rw [List.forall_mem_append] at hleft hright
  obtain ⟨as, bs, has, hbs, rfl⟩ := mapM_append_eq_ok hjoins
  obtain ⟨as', bs', has', hbs', rfl⟩ := mapM_append_eq_ok hjoins'
  rw [List.append_assoc, List.append_assoc] at heq
  exact ⟨bs ++ rest, bs' ++ rest', ⟨hleft.1, hright.1, as, as', has, has', heq⟩,
    fun hmiddle => ⟨hleft.2, hright.2, bs, bs', hbs, hbs', hmiddle⟩⟩

/-- Joined predicates have the same truth if what they ask of their rows has. -/
theorem eval_eq (h : SameJoins d apart [via] [via'] rest rest') (hd : d.Tells resolve apart)
    (hne : via.path ≠ []) (hne' : via'.path ≠ []) (hparent : via.parent = via'.parent)
    {inner inner' : Predicate} (hinner : via.binder = via'.binder → ∀ root bindings,
      eval resolve root bindings inner = eval resolve root bindings inner') :
    (∀ root bindings, eval resolve root bindings (.traverse .join via inner) =
      eval resolve root bindings (.traverse .join via' inner')) ∧ rest = rest' := by
  obtain ⟨⟨head, hhead, hhead'⟩, hrest⟩ := h.singleton
  obtain ⟨hbinder, -⟩ := hd.traversal hne hne' hparent hhead hhead'
  exact ⟨eval_traverse_eq hd hne hne' hparent hhead hhead' (hinner hbinder), hrest⟩

end SameJoins

section Comparisons

variable (hd : d.Tells resolve apart) {scope : Scope} {joined : Bool}
  (hroot : joined → scope = .root)

include hd hroot

/-- A comparison of the root is not written as one of a joined row. -/
theorem not_leaf_join {path path' : ColumnPath} {c c' : Comparison}
    {operand operand' : Option Value} {a : Atom} {b : Alias} (hjoined : joined)
    (hpath : path.scope = scope) (hpath' : path'.scope = .bound b) (htakes : c.Takes operand)
    (htakes' : c'.Takes operand') (ha : d.ofLeaf path c operand = .ok a)
    (ha' : d.ofLeaf path' c' operand' = .ok a) (hb : apart b) : False :=
  hd.scope htakes htakes' ha ha' (hpath.trans (hroot hjoined)) hpath' hb

variable {p p' : Predicate} {a : Atom} {rest rest' : List Head}
  (h : SameJoins d apart p.joins p'.joins rest rest')

include h

/-- Comparisons that are written as one have the same truth, joined or not. -/
theorem eval_eq_of_atom (hp : Written d scope joined p (.atom a))
    (hp' : Written d scope joined p' (.atom a)) :
    (∀ root bindings, eval resolve root bindings p = eval resolve root bindings p') ∧
      rest = rest' := by
  cases hp with
  | leaf hpath hne htakes ha =>
    cases hp' with
    | leaf hpath' hne' htakes' ha' =>
      exact ⟨eval_leaf_eq hd htakes htakes' hne hne' (hpath.trans hpath'.symm) ha ha', h.nil⟩
    | joinLeaf hjoined hparent hvia hpath' hne' htakes' ha' =>
      exact (not_leaf_join hd hroot hjoined hpath hpath' htakes htakes' ha ha'
        (h.right _ List.mem_cons_self)).elim
  | joinLeaf hjoined hparent hvia hpath hne htakes ha =>
    cases hp' with
    | leaf hpath' hne' htakes' ha' =>
      exact (not_leaf_join hd hroot hjoined hpath' hpath htakes' htakes ha' ha
        (h.left _ List.mem_cons_self)).elim
    | joinLeaf _ hparent' hvia' hpath' hne' htakes' ha' =>
      refine h.eval_eq hd hvia hvia' (hparent.trans hparent'.symm) fun hbinder => ?_
      rw [← hbinder] at hpath'
      exact eval_leaf_eq hd htakes htakes' hne hne' (hpath.trans hpath'.symm) ha ha'

/-- So have negated comparisons. -/
theorem eval_eq_of_notParen (hp : Written d scope joined p (.notParen (.atom a)))
    (hp' : Written d scope joined p' (.notParen (.atom a))) :
    (∀ root bindings, eval resolve root bindings p = eval resolve root bindings p') ∧
      rest = rest' := by
  cases hp with
  | not hpath hne htakes ha =>
    cases hp' with
    | not hpath' hne' htakes' ha' =>
      refine ⟨fun root bindings => congrArg Truth.not ?_, h.nil⟩
      exact eval_leaf_eq hd htakes htakes' hne hne' (hpath.trans hpath'.symm) ha ha' root bindings
    | joinNot hjoined hparent hvia hpath' hne' htakes' ha' =>
      exact (not_leaf_join hd hroot hjoined hpath hpath' htakes htakes' ha ha'
        (h.right _ List.mem_cons_self)).elim
  | joinNot hjoined hparent hvia hpath hne htakes ha =>
    cases hp' with
    | not hpath' hne' htakes' ha' =>
      exact (not_leaf_join hd hroot hjoined hpath' hpath htakes' htakes ha' ha
        (h.left _ List.mem_cons_self)).elim
    | joinNot _ hparent' hvia' hpath' hne' htakes' ha' =>
      refine h.eval_eq hd hvia hvia' (hparent.trans hparent'.symm) fun hbinder root bindings => ?_
      rw [← hbinder] at hpath'
      exact congrArg Truth.not (eval_leaf_eq hd htakes htakes' hne hne'
        (hpath.trans hpath'.symm) ha ha' root bindings)

end Comparisons

/-- Below a sub-query there are no joins, so that none are different. -/
theorem sameJoins_of_scoped {scope scope' : Scope} {p p' : Predicate} (hp : Scoped scope false p)
    (hp' : Scoped scope' false p') : SameJoins d apart p.joins p'.joins [] [] := by
  rw [joins_eq_nil p hp, joins_eq_nil p' hp']
  exact ⟨by simp, by simp, [], [], rfl, rfl, rfl⟩

mutual

/-- Two compiled predicates with one condition and the same joins have the same truth. The
joins may be followed by others, which are then the same as well. -/
theorem eval_eq_of_ofPredicate (hd : d.Tells resolve apart) {scope : Scope} {joined : Bool}
    (hroot : joined → scope = .root) (p p' : Predicate) {c : Condition Atom Head}
    {rest rest' : List Head} (hp : Scoped scope joined p) (hp' : Scoped scope joined p')
    (hc : ofPredicate d p = .ok c) (hc' : ofPredicate d p' = .ok c)
    (h : SameJoins d apart p.joins p'.joins rest rest') :
    (∀ root bindings, eval resolve root bindings p = eval resolve root bindings p') ∧
      rest = rest' := by
  have hwritten := written_of_ofPredicate hp hc
  have hwritten' := written_of_ofPredicate hp' hc'
  cases hwritten with
  | const b =>
    cases hwritten'
    exact ⟨fun _ _ => rfl, h.nil⟩
  | leaf hpath hne htakes ha =>
    exact eval_eq_of_atom hd hroot h (.leaf hpath hne htakes ha) hwritten'
  | not hpath hne htakes ha =>
    exact eval_eq_of_notParen hd hroot h (.not hpath hne htakes ha) hwritten'
  | joinLeaf hjoined hparent hvia hpath hne htakes ha =>
    exact eval_eq_of_atom hd hroot h (.joinLeaf hjoined hparent hvia hpath hne htakes ha) hwritten'
  | joinNot hjoined hparent hvia hpath hne htakes ha =>
    exact eval_eq_of_notParen hd hroot h (.joinNot hjoined hparent hvia hpath hne htakes ha)
      hwritten'
  | @and terms cs hlength hterms hcs =>
    cases hwritten' with
    | @and terms' _ hlength' hterms' hcs' =>
      obtain ⟨heval, hrest⟩ :=
        evalAll_eq_of_ofPredicates hd hroot terms terms' hterms hterms' hcs hcs' h
      refine ⟨fun root bindings => ?_, hrest⟩
      rw [eval, eval, heval]
  | @or terms cs hlength hterms hcs =>
    cases hwritten' with
    | @or terms' _ hlength' hterms' hcs' =>
      obtain ⟨heval, hrest⟩ :=
        evalAll_eq_of_ofPredicates hd (by simp) terms terms' hterms hterms' hcs hcs' h
      refine ⟨fun root bindings => ?_, hrest⟩
      rw [eval, eval, heval]
  | @subquery via inner head c hparent hpath hinner hhead hcondition =>
    cases hwritten' with
    | @subquery via' inner' _ _ hparent' hpath' hinner' hhead' hcondition' =>
      have hsame := hparent.trans hparent'.symm
      obtain ⟨hbinder, -⟩ := hd.traversal hpath hpath' hsame hhead hhead'
      rw [← hbinder] at hinner'
      obtain ⟨heval, -⟩ := eval_eq_of_ofPredicate hd (by simp) inner inner' hinner hinner'
        hcondition hcondition' (sameJoins_of_scoped hinner hinner')
      exact ⟨eval_traverse_eq hd hpath hpath' hsame hhead hhead' heval, h.nil⟩
termination_by structural p

/-- The same of several predicates. -/
theorem evalAll_eq_of_ofPredicates (hd : d.Tells resolve apart) {scope : Scope} {joined : Bool}
    (hroot : joined → scope = .root) (ps ps' : List Predicate) {cs : List (Condition Atom Head)}
    {rest rest' : List Head} (hps : ScopedAll scope joined ps) (hps' : ScopedAll scope joined ps')
    (hcs : ofPredicates d ps = .ok cs) (hcs' : ofPredicates d ps' = .ok cs)
    (h : SameJoins d apart (joinsAll ps) (joinsAll ps') rest rest') :
    (∀ root bindings, evalAll resolve root bindings ps = evalAll resolve root bindings ps') ∧
      rest = rest' := by
  match ps, hps, hcs, h with
  | [], _, hcs, h =>
    cases hcs
    cases ps' with
    | nil => exact ⟨fun _ _ => rfl, h.nil⟩
    | cons p' ps' =>
      obtain ⟨c, -, hcs'⟩ := Except.bind_eq_ok_iff.1 hcs'
      obtain ⟨cs, -, hcs'⟩ := Except.bind_eq_ok_iff.1 hcs'
      cases hcs'
  | p :: ps, hps, hcs, h =>
    obtain ⟨c, hc, hcs⟩ := Except.bind_eq_ok_iff.1 hcs
    obtain ⟨others, hothers, hcs⟩ := Except.bind_eq_ok_iff.1 hcs
    cases hcs
    cases ps' with
    | nil => cases hcs'
    | cons p' ps' =>
      obtain ⟨c', hc', hcs'⟩ := Except.bind_eq_ok_iff.1 hcs'
      obtain ⟨others', hothers', hcs'⟩ := Except.bind_eq_ok_iff.1 hcs'
      cases hcs'
      rw [joinsAll, joinsAll] at h
      obtain ⟨middle, middle', hfirst, hothersSame⟩ := h.append
      obtain ⟨heval, hmiddle⟩ :=
        eval_eq_of_ofPredicate hd hroot p p' hps.1 hps'.1 hc hc' hfirst
      obtain ⟨hevals, hrest⟩ := evalAll_eq_of_ofPredicates hd hroot ps ps' hps.2 hps'.2 hothers
        hothers' (hothersSame hmiddle)
      refine ⟨fun root bindings => ?_, hrest⟩
      rw [evalAll, evalAll, heval, hevals]
termination_by structural ps

end

end Predicate

end RoleQuery
