import RoleQuery.Proofs.Predicate.Aliases
import RoleQuery.Proofs.Predicate.Scoping

/-!
# The parts of compiled predicates

What the writers of statements rely on, said of every part of a compiled predicate: no chain
is of less than two terms, only comparisons are negated, every column is of a row that is
bound around it, and a join stands where a statement can hold it. The compiler keeps these
as one shape that it passes down with the frames, and the parts are reached from the whole
by following that shape.
-/
namespace RoleQuery.Predicate

/-- The parts of a predicate, each with the aliases that are bound around
it, from the outside in. -/
inductive Part : Predicate → List Alias → Predicate → Prop
  | self (p : Predicate) : Part p [] p
  | and {terms : List Predicate} {p q : Predicate} {as : List Alias} (hp : p ∈ terms)
      (h : Part p as q) : Part (.and terms) as q
  | or {terms : List Predicate} {p q : Predicate} {as : List Alias} (hp : p ∈ terms)
      (h : Part p as q) : Part (.or terms) as q
  | not {inner q : Predicate} {as : List Alias} (h : Part inner as q) : Part (.not inner) as q
  | traverse {how : Lowering} {via : Traversal} {inner q : Predicate} {as : List Alias}
      (h : Part inner as q) : Part (.traverse how via inner) (via.binder :: as) q

/-- No part of the predicate is carried out as a join. -/
def Unjoined (p : Predicate) : Prop :=
  ∀ as via inner, ¬ Part p as (.traverse .join via inner)

/-- The row is the one that is filtered, or one of those bound to certain aliases. -/
def Known (as : List Alias) (scope : Scope) : Prop :=
  scope = .root ∨ ∃ a ∈ as, scope = .bound a

/-- What the writers of statements rely on. -/
structure WellFormed (p : Predicate) : Prop where
  and : ∀ as terms, Part p as (.and terms) → 2 ≤ terms.length
  or : ∀ as terms, Part p as (.or terms) → 2 ≤ terms.length ∧ ∀ q ∈ terms, Unjoined q
  not : ∀ as inner, Part p as (.not inner) → inner.isLeaf ∧ Unjoined inner
  leaf : ∀ as path c operand, Part p as (.leaf path c operand) → Known as path.scope
  traverse : ∀ as how via inner, Part p as (.traverse how via inner) →
    Known as via.parent ∧ Unjoined inner
  join : ∀ as via inner, Part p as (.traverse .join via inner) →
    via.parent = .root ∧ inner.isSingleLeaf ∧ fansOut via.link = false

/-! ## The shape of the parts -/

variable {p q : Predicate} {as : List Alias} {scope : Scope} {joined : Bool}

/-- A part of a predicate has its shape: in the scope of the predicate or that of an
alias bound around the part, and with joins only in the scope of the predicate and
where these are allowed. -/
theorem Part.exists_scoped (h : Part p as q) (hp : Scoped scope joined p) :
    ∃ inner allowed, Scoped inner allowed q ∧ (inner = scope ∨ ∃ a ∈ as, inner = .bound a) ∧
      (allowed = true → joined = true ∧ inner = scope) := by
  induction h generalizing scope joined with
  | self p => exact ⟨scope, joined, hp, .inl rfl, fun h => ⟨h, rfl⟩⟩
  | and hmem _ ih => exact ih (scopedAll_iff.1 hp.2 _ hmem)
  | or hmem _ ih =>
    obtain ⟨inner, allowed, hq, hinner, hallowed⟩ := ih (scopedAll_iff.1 hp.2 _ hmem)
    exact ⟨inner, allowed, hq, hinner, fun h => absurd (hallowed h).1 (by simp)⟩
  | not _ ih =>
    obtain ⟨inner, allowed, hq, hinner, hallowed⟩ := ih hp.2
    exact ⟨inner, allowed, hq, hinner, fun h => absurd (hallowed h).1 (by simp)⟩
  | traverse _ ih =>
    obtain ⟨inner, allowed, hq, hinner, hallowed⟩ := ih hp.2.2.2
    refine ⟨inner, allowed, hq, .inr ?_, fun h => absurd (hallowed h).1 (by simp)⟩
    rcases hinner with rfl | ⟨a, ha, rfl⟩
    · exact ⟨_, List.mem_cons_self, rfl⟩
    · exact ⟨a, List.mem_cons_of_mem _ ha, rfl⟩

/-- Where joins are not allowed no part is one. -/
theorem Scoped.unjoined (hp : Scoped scope false p) : Unjoined p := by
  intro as via inner hpart
  obtain ⟨_, allowed, hjoin, -, hallowed⟩ := hpart.exists_scoped hp
  cases (hallowed (hjoin.1 rfl).1).1

/-! ## Joins that lead to several rows -/

/-- No join leads to several rows. -/
def Narrow (p : Predicate) : Prop :=
  ∀ as via inner, Part p as (.traverse .join via inner) → fansOut via.link = false

theorem Narrow.and {terms : List Predicate} (h : ∀ p ∈ terms, Narrow p) : Narrow (.and terms) := by
  rintro as via inner (_ | ⟨hmem, hpart⟩)
  exact h _ hmem as via inner hpart

theorem Narrow.or {terms : List Predicate} (h : ∀ p ∈ terms, Narrow p) : Narrow (.or terms) := by
  rintro as via inner (_ | _ | ⟨hmem, hpart⟩)
  exact h _ hmem as via inner hpart

theorem narrow_all {ps : List Predicate} (h : ∀ p ∈ ps, Narrow p) : Narrow (all ps) := by
  match ps, h with
  | [], _ => exact fun _ _ _ hpart => nomatch hpart
  | [p], h => exact h p List.mem_cons_self
  | _ :: _ :: _, h => exact .and h

theorem narrow_any {ps : List Predicate} (h : ∀ p ∈ ps, Narrow p) : Narrow (any ps) := by
  match ps, h with
  | [], _ => exact fun _ _ _ hpart => nomatch hpart
  | [p], h => exact h p List.mem_cons_self
  | _ :: _ :: _, h => exact .or h

/-- A comparison, negated or not, has no join. -/
theorem narrow_ofScalar {frame : Frame} {field : String} {op : Operator} {operand : Value}
    {p : Option Predicate} (h : ofScalar frame field op operand = .ok p) : ∀ q ∈ p, Narrow q := by
  intro q hq as via inner hpart
  have hunjoined := (scoped_ofScalar h false q hq).unjoined
  exact absurd hpart (hunjoined as via inner)

theorem narrow_ofTraversal {frame : Frame} {navigations : List String} {field : String} {a : Alias}
    {link : Option Link} {inner : Predicate} (hinner : Narrow inner) :
    Narrow (ofTraversal frame navigations field a link inner) := by
  intro as via below hpart
  rw [ofTraversal] at hpart
  generalize hhow : loweringOf frame navigations field link inner = how at hpart
  cases hpart with
  | self =>
    rw [loweringOf] at hhow
    split at hhow
    · rename_i hcondition
      simp only [Bool.and_eq_true, Bool.not_eq_true'] at hcondition
      exact hcondition.1.2
    · cases hhow
  | traverse hpart => exact hinner _ via below hpart

/-- Compilation joins only what leads to one row. -/
theorem compositional_narrow (catalog : Catalog) (navigations : List String) :
    Compositional catalog navigations (fun _ => True) fun _ p => Narrow p where
  row := id
  document := id
  alternatives := id
  scalar := narrow_ofScalar
  nested := id
  traversal _ _ hinner := narrow_ofTraversal hinner
  all := narrow_all
  any := narrow_any

/-- The parts of a compiled predicate are such as the writers of statements rely on. -/
theorem wellFormed_ofFilter {catalog : Catalog} {e : Entity} {f : Filter} {start : Alias}
    (h : (ofFilter catalog e f start).1 = .ok p) : p.WellFormed := by
  have hp := scoped_ofFilter h
  have hnarrow : Narrow p := (compositional_narrow catalog _).of_compile trivial h
  exact {
    and := fun as terms hpart => by
      obtain ⟨inner, allowed, hq, -, -⟩ := hpart.exists_scoped hp
      exact hq.1
    or := fun as terms hpart => by
      obtain ⟨inner, allowed, hq, -, -⟩ := hpart.exists_scoped hp
      exact ⟨hq.1, fun q hmem => (scopedAll_iff.1 hq.2 q hmem).unjoined⟩
    not := fun as inner hpart => by
      obtain ⟨scope, allowed, hq, -, -⟩ := hpart.exists_scoped hp
      exact ⟨hq.1, hq.2.unjoined⟩
    leaf := fun as path c operand hpart => by
      obtain ⟨scope, allowed, hq, hscope, -⟩ := hpart.exists_scoped hp
      rwa [← hq.1] at hscope
    traverse := fun as how via inner hpart => by
      obtain ⟨scope, allowed, hq, hscope, -⟩ := hpart.exists_scoped hp
      rw [← hq.2.1] at hscope
      exact ⟨hscope, hq.2.2.2.unjoined⟩
    join := fun as via inner hpart => by
      obtain ⟨scope, allowed, hq, -, hallowed⟩ := hpart.exists_scoped hp
      obtain ⟨hallow, hsingle⟩ := hq.1 rfl
      exact ⟨hq.2.1.trans (hallowed hallow).2, hsingle, hnarrow as via inner hpart⟩ }

end RoleQuery.Predicate
