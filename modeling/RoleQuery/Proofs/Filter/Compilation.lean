import RoleQuery.Predicate.OfFilter
import RoleQuery.Proofs.Filter.Meaning
import RoleQuery.Proofs.Outcome
import Mathlib.Data.List.Nodup
import Mathlib.Data.List.Range

/-!
# What compiling a filter gives

Whichever aliases are free, the compilation of a filter fails with a fault that the filter
alone decides, or it takes one alias after another, one for each traversal, and gives a
predicate. What holds of the predicate is proved here once for all its properties: one that
every comparison has, and that whatever is put together has because its parts have it, is one
of every compiled filter.
-/
namespace RoleQuery

namespace Compilation

variable {α β : Type}

/-- The aliases that are taken if `n` are, the next free one first. -/
def allotted (next : Alias) (n : Nat) : List Alias :=
  (List.range n).map fun i => next + UInt32.ofNat i

@[simp] theorem allotted_zero (next : Alias) : allotted next 0 = [] := rfl

theorem allotted_one (next : Alias) : allotted next 1 = [next] := by
  simp [allotted, List.range_succ]

theorem allotted_add (next : Alias) (m n : Nat) :
    allotted next (m + n) = allotted next m ++ allotted (next + UInt32.ofNat m) n := by
  simp only [allotted, List.range_add, List.map_append, List.map_map]
  congr 1
  apply List.map_congr_left
  intro i _
  rw [Function.comp_apply, UInt32.ofNat_add, UInt32.add_assoc]

/-- No alias is taken twice before all have been taken. -/
theorem nodup_allotted (next : Alias) {n : Nat} (hn : n ≤ UInt32.size) :
    (allotted next n).Nodup := by
  apply List.Nodup.map_on _ List.nodup_range
  intro i hi j hj hij
  rw [List.mem_range] at hi hj
  have hsame : (UInt32.ofNat i).toNat = (UInt32.ofNat j).toNat :=
    congrArg UInt32.toNat ((UInt32.add_right_inj next).1 hij)
  rwa [UInt32.toNat_ofNat_of_lt' (by omega), UInt32.toNat_ofNat_of_lt' (by omega)] at hsame

/-- Whichever alias is the next free one, the compilation fails with the given fault. If there
is none it takes `n` aliases, and its result has a property together with them. -/
def Yields (c : Compilation α) (fault : Except RequestError Unit) (n : Nat)
    (P : α → List Alias → Prop) : Prop :=
  ∀ next, match c.run next with
    | (.error error, _) => fault = .error error
    | (.ok a, after) => fault = .ok () ∧ after = next + UInt32.ofNat n ∧ P a (allotted next n)

/-- One compilation after another: the second takes its aliases after those of the first. -/
theorem run_bind (c : Compilation α) (f : α → Compilation β) (next : Alias) :
    (c >>= f).run next =
      match c.run next with
      | (.error error, next) => (.error error, next)
      | (.ok a, next) => (f a).run next := by
  rw [ExceptT.run_bind]
  change (StateT.bind c.run _ next : Id _) = _
  unfold StateT.bind
  rcases c.run next with ⟨_ | a, n⟩ <;> rfl

variable {fault rest : Except RequestError Unit} {m n : Nat} {P Q : α → List Alias → Prop}

theorem yields_pure {a : α} (h : P a []) : Yields (pure a : Compilation α) (.ok ()) 0 P :=
  fun next => ⟨rfl, (UInt32.add_zero next).symm, h⟩

theorem Yields.mono {c : Compilation α} (h : Yields c fault n P) (hPQ : ∀ a as, P a as → Q a as) :
    Yields c fault n Q := by
  intro next
  have hn := h next
  revert hn
  rcases c.run next with ⟨error | a, after⟩
  · exact id
  · exact fun hn => ⟨hn.1, hn.2.1, hPQ a _ hn.2.2⟩

theorem yields_liftExcept (x : Except RequestError α) :
    Yields (liftExcept x) (x.map fun _ => ()) 0 fun a as => x = .ok a ∧ as = [] := by
  cases x with
  | error error => exact fun _ => rfl
  | ok a => exact fun next => ⟨rfl, (UInt32.add_zero next).symm, rfl, rfl⟩

/-- The fault of the first part counts before that of the second, which takes its aliases
after those of the first. -/
theorem Yields.bind {c : Compilation α} {f : α → Compilation β} {Q : β → List Alias → Prop}
    (hc : Yields c fault m P)
    (hf : ∀ a as, P a as → Yields (f a) rest n fun b bs => Q b (as ++ bs)) :
    Yields (c >>= f) (do fault; rest) (m + n) Q := by
  intro next
  have hn := hc next
  rw [run_bind]
  rcases hrun : c.run next with ⟨error | a, middle⟩
  · rw [hrun] at hn
    simp only at hn ⊢
    rw [hn]
    rfl
  · rw [hrun] at hn
    obtain ⟨rfl, rfl, ha⟩ := hn
    have hrest := hf a _ ha (next + UInt32.ofNat m)
    simp only
    revert hrest
    rcases (f a).run (next + UInt32.ofNat m) with ⟨error | b, after⟩
    · exact id
    · rintro ⟨hfault, rfl, hb⟩
      rw [UInt32.ofNat_add, ← UInt32.add_assoc, allotted_add]
      exact ⟨hfault, rfl, hb⟩

/-- A last step that cannot fail leaves the fault as it is, and takes no alias. -/
theorem Yields.bind_pure {c : Compilation α} {g : α → β} {Q : β → List Alias → Prop}
    (hc : Yields c fault n fun a as => Q (g a) as) : Yields (do return g (← c)) fault n Q := by
  intro next
  have hn := hc next
  rw [run_bind]
  rcases hrun : c.run next with ⟨error | a, after⟩
  · rwa [hrun] at hn
  · rwa [hrun] at hn

/-- A check takes no alias. -/
theorem yields_liftExcept_bind {x : Except RequestError α} {f : α → Compilation β}
    {Q : β → List Alias → Prop} (hf : ∀ a, x = .ok a → Yields (f a) rest n Q) :
    Yields (do f (← liftExcept x)) (do x.map fun _ => (); rest) n Q := by
  have hbind : Yields (do f (← liftExcept x)) (do x.map fun _ => (); rest) (0 + n) Q := by
    apply (yields_liftExcept x).bind
    rintro a _ ⟨ha, rfl⟩
    exact hf a ha
  rwa [Nat.zero_add] at hbind

/-- Taking an alias cannot fail; it comes before those of what follows. -/
theorem yields_fresh_bind {f : Alias → Compilation β} {Q : β → List Alias → Prop}
    (hf : ∀ a, Yields (f a) fault n fun b bs => Q b (a :: bs)) :
    Yields (do f (← fresh)) fault (1 + n) Q := by
  intro next
  have hn := hf next (next + 1)
  rw [run_bind]
  change match (f next).run (next + 1) with | (.error error, _) => _ | (.ok a, after) => _
  revert hn
  rcases (f next).run (next + 1) with ⟨error | b, after⟩
  · exact id
  · rintro ⟨hfault, rfl, hb⟩
    rw [UInt32.ofNat_add, ← UInt32.add_assoc, allotted_add, allotted_one]
    exact ⟨hfault, rfl, hb⟩

/-- The compilation fails with the fault if there is one. -/
theorem Yields.run_error {c : Compilation α} (h : Yields c fault n P) {error : RequestError}
    (hfault : fault = .error error) (next : Alias) : (c.run next).1 = .error error := by
  have hn := h next
  revert hn
  rcases c.run next with ⟨other | a, after⟩
  · rintro rfl
    cases hfault
    rfl
  · rintro ⟨rfl, -⟩
    cases hfault

/-- The compilation succeeds if there is no fault. -/
theorem Yields.run_ok {c : Compilation α} (h : Yields c fault n P) (hfault : fault = .ok ())
    (next : Alias) : ∃ a, (c.run next).1 = .ok a ∧ P a (allotted next n) := by
  have hn := h next
  revert hn
  rcases c.run next with ⟨other | a, after⟩
  · rintro rfl
    cases hfault
  · exact fun hn => ⟨a, rfl, hn.2.2⟩

/-- What a compilation that succeeds has taken and given. -/
theorem Yields.of_run {c : Compilation α} (h : Yields c fault n P) {next : Alias} {a : α}
    (ha : (c.run next).1 = .ok a) :
    (c.run next).2 = next + UInt32.ofNat n ∧ P a (allotted next n) := by
  have hn := h next
  revert hn ha
  rcases c.run next with ⟨other | b, after⟩
  · intro ha
    cases ha
  · rintro ⟨⟩ hn
    exact hn.2

end Compilation

/-! ## Faults and traversals -/

namespace Filter

mutual

/-- The fault that keeps a filter from having a predicate: the first operand that does not
suit its operator, or the first relationship that leads nowhere. -/
def expressible (catalog : Catalog) (entity : Option Entity) :
    Filter → Except RequestError Unit
  | .scalar field op operand =>
    if operand.isNull then .ok ()
    else (op.check operand).mapError fun fault => .input (.operandOn fault field)
  | .object field children =>
    match relationshipOf entity field with
    | some r => do
      (Predicate.linkOf catalog r).map fun _ => ()
      expressibleAll catalog (nested catalog entity field) children
    | none => expressibleAll catalog (nested catalog entity field) children
  | .element field children => do
    ((relationshipOf entity field).mapM (Predicate.linkOf catalog)).map fun _ => ()
    expressibleAll catalog (nested catalog entity field) children
  | .group fields allOf anyOf => do
    expressibleAll catalog entity fields
    expressibleList catalog entity allOf
    expressibleList catalog entity anyOf
termination_by structural x => x

def expressibleAll (catalog : Catalog) (entity : Option Entity) :
    List Filter → Except RequestError Unit
  | [] => .ok ()
  | x :: rest => do
    expressible catalog entity x
    expressibleAll catalog entity rest
termination_by structural xs => xs

def expressibleList (catalog : Catalog) (entity : Option Entity) :
    Option (List Filter) → Except RequestError Unit
  | none => .ok ()
  | some xs => expressibleAll catalog entity xs
termination_by structural xs => xs

end

mutual

/-- How many traversals a filter has whose members belong to `entity`: one for each
relationship that it follows and one for each list that it enters. -/
def traversals (catalog : Catalog) (entity : Option Entity) : Filter → Nat
  | .scalar _ _ _ => 0
  | .object field children =>
    match relationshipOf entity field with
    | some _ => 1 + traversalsAll catalog (nested catalog entity field) children
    | none => traversalsAll catalog (nested catalog entity field) children
  | .element field children => 1 + traversalsAll catalog (nested catalog entity field) children
  | .group fields allOf anyOf =>
    traversalsAll catalog entity fields +
      (traversalsList catalog entity allOf + traversalsList catalog entity anyOf)
termination_by structural x => x

def traversalsAll (catalog : Catalog) (entity : Option Entity) : List Filter → Nat
  | [] => 0
  | x :: rest => traversals catalog entity x + traversalsAll catalog entity rest
termination_by structural xs => xs

def traversalsList (catalog : Catalog) (entity : Option Entity) : Option (List Filter) → Nat
  | none => 0
  | some xs => traversalsAll catalog entity xs
termination_by structural xs => xs

end

/-- A member that leads to other rows: to the elements of a list, or along a relationship. -/
def Traverses (entity : Option Entity) (field : String) (children : List Filter) (x : Filter) :
    Prop :=
  x = .element field children ∨ x = .object field children ∧ (relationshipOf entity field).isSome

variable {entity : Option Entity} {field : String} {children : List Filter} {x : Filter}

theorem expressible_of_traverses (catalog : Catalog) (h : Traverses entity field children x) :
    x.expressible catalog entity = (do
      ((relationshipOf entity field).mapM (Predicate.linkOf catalog)).map fun _ => ()
      expressibleAll catalog (nested catalog entity field) children) := by
  rcases h with rfl | ⟨rfl, hr⟩
  · rw [expressible]
  · obtain ⟨r, hr⟩ := Option.isSome_iff_exists.1 hr
    rw [expressible, hr]
    cases hlink : Predicate.linkOf catalog r <;> simp [hlink] <;> rfl

theorem traversals_of_traverses (catalog : Catalog) (h : Traverses entity field children x) :
    x.traversals catalog entity =
      1 + traversalsAll catalog (nested catalog entity field) children := by
  rcases h with rfl | ⟨rfl, hr⟩
  · rw [traversals]
  · obtain ⟨r, hr⟩ := Option.isSome_iff_exists.1 hr
    rw [traversals, hr]

end Filter

namespace Predicate

open Compilation RoleQuery.Filter

theorem expressible_scalar (catalog : Catalog) (frame : Frame) (field : String) (op : Operator)
    (operand : Value) :
    ((ofScalar frame field op operand).map fun _ => ()) =
      Filter.expressible catalog frame.entity (.scalar field op operand) := by
  rw [ofScalar, Filter.expressible]
  by_cases hnull : operand.isNull
  · rw [if_pos hnull, if_pos hnull]
    rfl
  · rw [if_neg hnull, if_neg hnull]
    cases op.check operand with
    | error fault => rfl
    | ok _ => cases op <;> rfl

/-- Whichever member leads to other rows, it is compiled to a traversal. -/
theorem ofNode_of_traverses (catalog : Catalog) (navigations : List String) {frame : Frame}
    {field : String} {children : List Filter} {x : Filter}
    (h : Traverses frame.entity field children x) :
    ofNode catalog navigations frame x = do
      let link ← liftExcept ((relationshipOf frame.entity field).mapM (linkOf catalog))
      let a ← fresh
      let terms ← ofNodes catalog navigations (frame.row catalog field a) children
      return some (ofTraversal frame navigations field a link (allTerms terms)) := by
  rcases h with rfl | ⟨rfl, hr⟩
  · rw [ofNode]
    rfl
  · obtain ⟨r, hr⟩ := Option.isSome_iff_exists.1 hr
    rw [ofNode, show frame.relationship? field = some r from hr, hr, Option.mapM_some]
    dsimp only
    cases linkOf catalog r <;> rfl

/-! ## What compilation keeps -/

/-- What is kept of several filters is kept of a list of them, if there is a list. -/
def Listed (nodes : Frame → List Filter → List Predicate → List Alias → Prop) (frame : Frame)
    (list : Option (List Filter)) (ps : Option (List Predicate)) (as : List Alias) : Prop :=
  match list, ps with
  | none, none => as = []
  | some xs, some ps => nodes frame xs ps as
  | _, _ => False

theorem Listed.cases {nodes : Frame → List Filter → List Predicate → List Alias → Prop}
    {frame : Frame} {list : Option (List Filter)} {ps : Option (List Predicate)} {as : List Alias}
    (h : Listed nodes frame list ps as) :
    list = none ∧ ps = none ∧ as = [] ∨
      ∃ xs qs, list = some xs ∧ ps = some qs ∧ nodes frame xs qs as := by
  cases list <;> cases ps
  · exact .inl ⟨rfl, rfl, h⟩
  · exact h.elim
  · exact h.elim
  · exact .inr ⟨_, _, rfl, rfl, h⟩

/-- What compilation keeps from the parts of a filter to the whole: something about the
predicate of a part, if it has one, and the aliases that were taken for it; and about
those of several parts. -/
structure Composes (catalog : Catalog) (navigations : List String)
    (node : Frame → Filter → Option Predicate → List Alias → Prop)
    (nodes : Frame → List Filter → List Predicate → List Alias → Prop) : Prop where
  scalar : ∀ {frame field op operand p}, ofScalar frame field op operand = .ok p →
    node frame (.scalar field op operand) p []
  traversal : ∀ {frame field children x a link terms as}, Traverses frame.entity field children x →
    (relationshipOf frame.entity field).mapM (linkOf catalog) = .ok link →
    nodes (frame.row catalog field a) children terms as →
    node frame x (some (ofTraversal frame navigations field a link (allTerms terms))) (a :: as)
  document : ∀ {frame field children terms as}, relationshipOf frame.entity field = none →
    nodes (frame.document catalog field) children terms as →
    node frame (.object field children) (some (allTerms terms)) as
  group : ∀ {frame fields allOf anyOf ps qs rs as bs cs}, nodes frame fields ps as →
    Listed nodes frame allOf qs bs → Listed nodes { frame with conjunctive := false } anyOf rs cs →
    node frame (.group fields allOf anyOf)
      (some (allTerms (ps ++ (qs.map all).toList ++ (rs.map any).toList))) (as ++ (bs ++ cs))
  nil : ∀ {frame}, nodes frame [] [] []
  cons : ∀ {frame x rest p ps as bs}, node frame x p as → nodes frame rest ps bs →
    nodes frame (x :: rest) (p.toList ++ ps) (as ++ bs)

namespace Composes

variable {catalog : Catalog} {navigations : List String}
  {node : Frame → Filter → Option Predicate → List Alias → Prop}
  {nodes : Frame → List Filter → List Predicate → List Alias → Prop}

theorem yields_traversal (h : Composes catalog navigations node nodes) {frame : Frame}
    {field : String} {children : List Filter} {x : Filter}
    (hx : Traverses frame.entity field children x)
    (hchildren : ∀ a, Yields (ofNodes catalog navigations (frame.row catalog field a) children)
      (expressibleAll catalog (nested catalog frame.entity field) children)
      (traversalsAll catalog (nested catalog frame.entity field) children)
      (nodes (frame.row catalog field a) children)) :
    Yields (ofNode catalog navigations frame x) (x.expressible catalog frame.entity)
      (x.traversals catalog frame.entity) (node frame x) := by
  rw [ofNode_of_traverses catalog navigations hx, expressible_of_traverses catalog hx,
    traversals_of_traverses catalog hx]
  apply yields_liftExcept_bind
  intro link hlink
  apply yields_fresh_bind
  intro a
  apply Yields.bind_pure
  exact (hchildren a).mono fun terms as hterms => h.traversal hx hlink hterms

mutual

/-- The predicate of a compiled filter has what compilation keeps. -/
theorem yields_ofNode (h : Composes catalog navigations node nodes) (frame : Frame) : (x : Filter) →
    Yields (ofNode catalog navigations frame x) (x.expressible catalog frame.entity)
      (x.traversals catalog frame.entity) (node frame x)
  | .scalar field op operand => by
    rw [ofNode, ← expressible_scalar, traversals]
    apply (yields_liftExcept _).mono
    rintro p _ ⟨hp, rfl⟩
    exact h.scalar hp
  | .object field children => by
    cases hr : relationshipOf frame.entity field with
    | some r =>
      refine h.yields_traversal (.inr ⟨rfl, hr ▸ rfl⟩) fun a => ?_
      exact h.yields_ofNodes (frame.row catalog field a) children
    | none =>
      rw [ofNode, expressible, traversals, show frame.relationship? field = none from hr, hr]
      apply Yields.bind_pure
      apply (h.yields_ofNodes (frame.document catalog field) children).mono
      exact fun terms as hterms => h.document hr hterms
  | .element field children =>
    h.yields_traversal (.inl rfl) fun a => h.yields_ofNodes (frame.row catalog field a) children
  | .group fields allOf anyOf => by
    rw [ofNode, expressible, traversals]
    apply (h.yields_ofNodes frame fields).bind
    intro ps as hps
    apply (h.yields_ofList frame allOf).bind
    intro qs bs hqs
    apply Yields.bind_pure
    apply (h.yields_ofList { frame with conjunctive := false } anyOf).mono
    exact fun rs cs hrs => h.group hps hqs hrs
termination_by structural x => x

/-- So have the predicates of several compiled filters. -/
theorem yields_ofNodes (h : Composes catalog navigations node nodes) (frame : Frame) :
    (xs : List Filter) → Yields (ofNodes catalog navigations frame xs)
      (expressibleAll catalog frame.entity xs) (traversalsAll catalog frame.entity xs)
      (nodes frame xs)
  | [] => yields_pure h.nil
  | x :: rest => by
    rw [ofNodes, expressibleAll, traversalsAll]
    apply (h.yields_ofNode frame x).bind
    intro p as hp
    apply Yields.bind_pure
    exact (h.yields_ofNodes frame rest).mono fun ps bs hps => h.cons hp hps
termination_by structural xs => xs

/-- The same of a list that may be absent. -/
theorem yields_ofList (h : Composes catalog navigations node nodes) (frame : Frame) :
    (list : Option (List Filter)) → Yields (ofList catalog navigations frame list)
      (expressibleList catalog frame.entity list) (traversalsList catalog frame.entity list)
      (Listed nodes frame list)
  | none => yields_pure rfl
  | some xs => by
    rw [ofList, expressibleList, traversalsList]
    apply Yields.bind_pure
    exact h.yields_ofNodes frame xs
termination_by structural list => list

end

end Composes

/-- The frame of the members of an entity. -/
def rootFrame (e : Entity) (allowJoins : Bool) : Frame := ⟨some e, .root, [], "", allowJoins⟩

/-- A whole filter is compiled as the part that it is of a larger one. -/
theorem compile_eq (catalog : Catalog) (e : Entity) (allowJoins : Bool) (f : Filter) :
    compile catalog e allowJoins f = do
      return (← ofNode catalog (f.navigations "") (rootFrame e allowJoins) f).getD alwaysFalse :=
  rfl

/-- A compiled filter has what compilation keeps; a filter that asks nothing cannot hold. -/
theorem Composes.yields_compile {catalog : Catalog} {f : Filter}
    {node : Frame → Filter → Option Predicate → List Alias → Prop}
    {nodes : Frame → List Filter → List Predicate → List Alias → Prop}
    (h : Composes catalog (f.navigations "") node nodes) (e : Entity) (allowJoins : Bool) :
    Yields (compile catalog e allowJoins f) (f.expressible catalog (some e))
      (f.traversals catalog (some e)) fun p as =>
        ∃ q, p = q.getD alwaysFalse ∧ node (rootFrame e allowJoins) f q as := by
  rw [compile_eq]
  apply Yields.bind_pure
  exact (h.yields_ofNode (rootFrame e allowJoins) f).mono fun q as hq => ⟨q, rfl, hq⟩

end Predicate

end RoleQuery
