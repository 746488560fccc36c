import RoleQuery.Proofs.Filter.Compilation

/-!
# The shape of compiled predicates

A predicate that was compiled from a filter reads every column from the innermost row that is
bound around it, or from the root where none is. Conjunctions and disjunctions have several
terms, only comparisons are negated, and a traversal is joined only where the statement can
hold the join: below nothing but conjunctions of the root, around a single comparison.
-/
namespace RoleQuery

/-- Whether a comparison takes an operand: a text comparison takes a text, and the test
for null none at all. -/
def Comparison.Takes (c : Comparison) (operand : Option Value) : Prop :=
  match c with
  | .isNull => operand = none
  | .contains | .startsWith | .endsWith => ∃ s, operand = some (.text s)
  | _ => operand.isSome

def textComparisons : List Comparison := [.contains, .startsWith, .endsWith]

def valueComparisons : List Comparison := [.eq, .neq, .gt, .gte, .lt, .lte]

/-- A comparison that takes an operand is the test for null, or one of texts or of values. -/
theorem Comparison.Takes.cases {c : Comparison} {operand : Option Value} (h : c.Takes operand) :
    c = .isNull ∧ operand = none ∨
      (c ∈ textComparisons ∧ ∃ s, operand = some (.text s)) ∨
      (c ∈ valueComparisons ∧ ∃ v, operand = some v) := by
  cases c with
  | isNull => exact .inl ⟨rfl, h⟩
  | contains | startsWith | endsWith => exact .inr (.inl ⟨by decide, h⟩)
  | _ => exact .inr (.inr ⟨by decide, Option.isSome_iff_exists.1 h⟩)

def signs : List String := valueComparisons.map Comparison.sign

theorem not_mem_of_mem_signs {sign : String} (h : sign ∈ signs) : ' ' ∉ sign.toList := by
  have hall : ∀ s ∈ signs, ' ' ∉ s.toList := by decide
  exact hall sign h

namespace Predicate

mutual

/-- A predicate that reads its columns from `scope` or from the rows that it binds itself;
traversals may be joined if `joined` says so. -/
def Scoped (scope : Scope) (joined : Bool) : Predicate → Prop
  | .const _ => True
  | .leaf path c operand => path.scope = scope ∧ path.segments ≠ [] ∧ c.Takes operand
  | .and terms => 2 ≤ terms.length ∧ ScopedAll scope joined terms
  | .or terms => 2 ≤ terms.length ∧ ScopedAll scope false terms
  | .not inner => inner.isLeaf ∧ Scoped scope false inner
  | .traverse how via inner =>
    (how = .join → joined ∧ inner.isSingleLeaf) ∧ via.parent = scope ∧ via.path ≠ [] ∧
      Scoped (.bound via.binder) false inner
termination_by structural p => p

def ScopedAll (scope : Scope) (joined : Bool) : List Predicate → Prop
  | [] => True
  | p :: rest => Scoped scope joined p ∧ ScopedAll scope joined rest
termination_by structural ps => ps

end

theorem scopedAll_iff {scope : Scope} {joined : Bool} {ps : List Predicate} :
    ScopedAll scope joined ps ↔ ∀ p ∈ ps, Scoped scope joined p := by
  induction ps with
  | nil => simp [ScopedAll]
  | cons p rest ih => simp [ScopedAll, ih]

mutual

/-- Where joins are allowed there need not be any. -/
theorem Scoped.allowing {scope : Scope} (joined : Bool) :
    (p : Predicate) → Scoped scope false p → Scoped scope joined p
  | .const _, _ => trivial
  | .leaf _ _ _, h => h
  | .and terms, h => ⟨h.1, ScopedAll.allowing joined terms h.2⟩
  | .or _, h => h
  | .not _, h => h
  | .traverse _ _ _, h => ⟨fun hhow => absurd (h.1 hhow).1 (by simp), h.2⟩
termination_by structural p => p

theorem ScopedAll.allowing {scope : Scope} (joined : Bool) :
    (ps : List Predicate) → ScopedAll scope false ps → ScopedAll scope joined ps
  | [], _ => trivial
  | p :: rest, h => ⟨Scoped.allowing joined p h.1, ScopedAll.allowing joined rest h.2⟩
termination_by structural ps => ps

end

theorem scoped_all {scope : Scope} {joined : Bool} {ps : List Predicate}
    (h : ∀ p ∈ ps, Scoped scope joined p) : Scoped scope joined (all ps) := by
  match ps, h with
  | [], _ => trivial
  | [p], h => exact h p List.mem_cons_self
  | p :: q :: rest, h => exact ⟨by simp, scopedAll_iff.2 h⟩

theorem scoped_any {scope : Scope} {joined : Bool} {ps : List Predicate}
    (h : ∀ p ∈ ps, Scoped scope false p) : Scoped scope joined (any ps) := by
  match ps, h with
  | [], _ => trivial
  | [p], h => exact Scoped.allowing joined p (h p List.mem_cons_self)
  | p :: q :: rest, h => exact ⟨by simp, scopedAll_iff.2 h⟩

/-- A text comparison is given a text. -/
theorem exists_text_of_check {op : Operator} {operand : Value} (hnull : operand.isNull = false)
    (hop : op.matchesText) (h : op.check operand = .ok ()) : ∃ s, operand = .text s := by
  cases operand with
  | text s => exact ⟨s, rfl⟩
  | null => cases hnull
  | _ => cases op <;> simp_all [Operator.check, Value.kind?, Operator.matchesText]

theorem takes_comparisonOf {op : Operator} {operand : Value} (hnull : operand.isNull = false)
    (h : op.check operand = .ok ()) (hop : op ≠ .isNull) :
    (comparisonOf op).Takes (some operand) := by
  cases op with
  | isNull => exact absurd rfl hop
  | contains | notContains | startsWith | endsWith =>
    obtain ⟨s, rfl⟩ := exists_text_of_check hnull (by rfl) h
    exact ⟨s, rfl⟩
  | _ => rfl

/-- A comparison reads its column from the scope of its frame. -/
theorem scoped_ofScalar {frame : Frame} {field : String} {op : Operator} {operand : Value}
    {p : Option Predicate} (h : ofScalar frame field op operand = .ok p) (joined : Bool) :
    ∀ q ∈ p, Scoped frame.scope joined q := by
  rw [ofScalar] at h
  split at h
  · cases h
    simp
  · rename_i hnull
    rw [Bool.not_eq_true] at hnull
    split at h
    · cases h
    · rename_i hcheck
      have hleaf : ∀ (c : Comparison) (operand : Option Value), c.Takes operand → ∀ joined,
          Scoped frame.scope joined
            (.leaf ⟨frame.scope, frame.path ++ [frame.column field]⟩ c operand) :=
        fun c operand htakes joined => ⟨rfl, by simp, htakes⟩
      have hother := takes_comparisonOf hnull hcheck
      cases op with
      | isNull =>
        simp only [Except.ok.injEq] at h
        subst h
        rintro q ⟨⟩
        split
        · exact hleaf .isNull none rfl _
        · exact ⟨rfl, hleaf .isNull none rfl _⟩
      | notContains =>
        cases h
        rintro q ⟨⟩
        exact ⟨rfl, hleaf _ _ (hother (by simp)) _⟩
      | _ =>
        cases h
        rintro q ⟨⟩
        exact hleaf _ _ (hother (by simp)) _

/-- A traversal leads away from the scope of its frame, and is joined only where the frame
allows it and a single comparison is asked for. -/
theorem scoped_ofTraversal {frame : Frame} {navigations : List String} {field : String} {a : Alias}
    {link : Option Link} {inner : Predicate} (hinner : Scoped (.bound a) false inner) :
    Scoped frame.scope frame.conjunctive (ofTraversal frame navigations field a link inner) := by
  refine ⟨fun hjoin => ?_, rfl, by simp, hinner⟩
  rw [loweringOf] at hjoin
  split at hjoin
  · rename_i hcondition
    simp only [Bool.and_eq_true] at hcondition
    exact ⟨hcondition.1.1.1, hcondition.2⟩
  · cases hjoin

/-- A property of predicates in frames that compilation keeps: comparisons have it, and
whatever is made of predicates that have it. The frames may be restricted, if all that
compilation goes on to are allowed. -/
structure Compositional (catalog : Catalog) (navigations : List String) (ok : Frame → Prop)
    (P : Frame → Predicate → Prop) : Prop where
  row : ∀ {frame field a}, ok frame → ok (frame.row catalog field a)
  document : ∀ {frame field}, ok frame → ok (frame.document catalog field)
  alternatives : ∀ {frame : Frame}, ok frame → ok { frame with conjunctive := false }
  scalar : ∀ {frame field op operand p}, ofScalar frame field op operand = .ok p →
    ∀ q ∈ p, P frame q
  nested : ∀ {frame field q}, P (frame.document catalog field) q → P frame q
  traversal : ∀ {frame field a link inner}, ok frame →
    (frame.relationship? field).mapM (linkOf catalog) = .ok link →
    P (frame.row catalog field a) inner →
    P frame (ofTraversal frame navigations field a link inner)
  all : ∀ {frame ps}, (∀ p ∈ ps, P frame p) → P frame (all ps)
  any : ∀ {frame ps}, (∀ p ∈ ps, P { frame with conjunctive := false } p) → P frame (any ps)

section Compositional

variable {catalog : Catalog} {navigations : List String} {ok : Frame → Prop}
  {P : Frame → Predicate → Prop}

theorem Compositional.allTerms (hP : Compositional catalog navigations ok P) {frame : Frame}
    {ps : List Predicate} (h : ∀ p ∈ ps, P frame p) : P frame (allTerms ps) := by
  rw [Predicate.allTerms]
  split
  · have hnone : P frame (Predicate.all []) := hP.all (List.forall_mem_nil _)
    exact hnone
  · exact hP.all h

/-- What is kept of predicates is kept of the compilation of filters. -/
theorem Compositional.composes (hP : Compositional catalog navigations ok P) :
    Composes catalog navigations (fun frame _ p _ => ok frame → ∀ q ∈ p, P frame q)
      (fun frame _ ps _ => ok frame → ∀ p ∈ ps, P frame p) where
  scalar hp _ := hP.scalar hp
  traversal _ hlink hterms hframe := by
    rintro q ⟨⟩
    exact hP.traversal hframe hlink (hP.allTerms (hterms (hP.row hframe)))
  document _ hterms hframe := by
    rintro q ⟨⟩
    exact hP.nested (hP.allTerms (hterms (hP.document hframe)))
  group {frame fields allOf anyOf ps qs rs as bs cs} hps hqs hrs hframe := by
    rintro q ⟨⟩
    apply hP.allTerms
    intro p hp
    simp only [List.mem_append, Option.mem_toList, Option.map_eq_some_iff] at hp
    rcases hp with (hp | ⟨ps, rfl, rfl⟩) | ⟨ps, rfl, rfl⟩
    · exact hps hframe p hp
    · obtain ⟨-, ⟨⟩, -⟩ | ⟨_, _, -, ⟨⟩, hall⟩ := hqs.cases
      exact hP.all (hall hframe)
    · obtain ⟨-, ⟨⟩, -⟩ | ⟨_, _, -, ⟨⟩, hany⟩ := hrs.cases
      exact hP.any (hany (hP.alternatives hframe))
  nil _ := List.forall_mem_nil _
  cons hp hps hframe := by
    intro q hq
    rcases List.mem_append.1 hq with hq | hq
    · exact hp hframe q (Option.mem_toList.1 hq)
    · exact hps hframe q hq

/-- A compiled filter has what compilation keeps, and so has the predicate that stands for one
of which nothing is left. -/
theorem Compositional.of_compile {e : Entity} {allowJoins : Bool} {f : Filter} {start : Alias}
    {p : Predicate} (hP : Compositional catalog (f.navigations "") ok P)
    (hok : ok (rootFrame e allowJoins))
    (h : ((compile catalog e allowJoins f).run start).1 = .ok p) :
    P (rootFrame e allowJoins) p := by
  obtain ⟨-, q, rfl, hq⟩ := (hP.composes.yields_compile e allowJoins).of_run h
  cases q with
  | none => exact hP.allTerms (List.forall_mem_nil _)
  | some q => exact hq hok q rfl

end Compositional

/-- Compilation keeps the scope of each frame. -/
theorem compositional_scoped (catalog : Catalog) (navigations : List String) :
    Compositional catalog navigations (fun _ => True)
      fun frame p => Scoped frame.scope frame.conjunctive p where
  row := id
  document := id
  alternatives := id
  scalar h := scoped_ofScalar h _
  nested := id
  traversal _ _ hinner := scoped_ofTraversal hinner
  all := scoped_all
  any := scoped_any

/-- The predicate of a filter reads its columns from the root or from the rows
that it binds itself. -/
theorem scoped_ofFilter {catalog : Catalog} {e : Entity} {f : Filter} {start : Alias}
    {p : Predicate} (h : (ofFilter catalog e f start).1 = .ok p) : Scoped .root true p := by
  exact (compositional_scoped catalog _).of_compile trivial h

/-- The predicate of a policy on a written row has no joins. -/
theorem scoped_ofWritePolicy {catalog : Catalog} {e : Entity} {f : Filter} {p : Predicate}
    (h : ofWritePolicy catalog e f = .ok p) : Scoped .root false p := by
  exact (compositional_scoped catalog _).of_compile trivial h

end Predicate

end RoleQuery
