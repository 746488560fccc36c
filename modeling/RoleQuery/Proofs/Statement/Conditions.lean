import RoleQuery.Proofs.Catalog.Columns
import RoleQuery.Proofs.DocumentQuery.Phrasing
import RoleQuery.Proofs.Filter.Correctness
import RoleQuery.Proofs.Predicate.Scoping
import RoleQuery.Proofs.Predicate.Terms
import RoleQuery.Proofs.Sql.Phrasing

/-!
# The conditions of compiled filters

The relationships of a catalog that was built from a configuration pair columns, so every link
of a compiled predicate does. No conjunction and no disjunction of a compiled predicate is
without terms. With these two facts the condition of a compiled predicate, in SQL and in
queries of documents, is read as an expression that means the predicate.
-/
namespace RoleQuery

/-! ## Compiled predicates -/

namespace Predicate

variable {catalog : Catalog} {ps : List Predicate}

theorem complete_all (h : ∀ p ∈ ps, Complete p) : Complete (all ps) := by
  match ps, h with
  | [], _ => trivial
  | [p], h => exact h p List.mem_cons_self
  | p :: q :: rest, h => exact ⟨by simp, completeAll_iff.2 h⟩

theorem complete_any (h : ∀ p ∈ ps, Complete p) : Complete (any ps) := by
  match ps, h with
  | [], _ => trivial
  | [p], h => exact h p List.mem_cons_self
  | p :: q :: rest, h => exact ⟨by simp, completeAll_iff.2 h⟩

/-- A scalar is a comparison or a negated one. -/
theorem complete_ofScalar {frame : Frame} {field : String} {op : Operator} {operand : Value}
    {p : Option Predicate} (h : ofScalar frame field op operand = .ok p) : ∀ q ∈ p, Complete q := by
  rcases ofScalar_cases h with ⟨-, rfl⟩ | ⟨-, c, taken, rfl | rfl⟩
  · simp
  · rintro q ⟨⟩
    trivial
  · rintro q ⟨⟩
    trivial

/-- A link copies the columns of a relationship. -/
theorem pairs_of_linkOf {frame : Frame} (hframe : ∀ e ∈ frame.entity, e.Pairs) {field : String}
    {link : Option Link} (h : (frame.relationship? field).mapM (linkOf catalog) = .ok link) :
    ∀ l ∈ link, l.sourceColumns ≠ [] ∧ l.targetColumns ≠ [] := by
  intro l hl
  cases hr : frame.relationship? field with
  | none =>
    rw [hr] at h
    cases h
    cases hl
  | some r =>
    rw [hr] at h
    obtain ⟨l', hlink, rfl⟩ := Except.mapM_some_eq_ok h
    cases hl
    obtain ⟨e, he, hfound⟩ := Option.bind_eq_some_iff.1 hr
    rw [linkOf] at hlink
    split at hlink
    · cases hlink
      exact hframe e he r (List.mem_of_find?_eq_some hfound)
    · cases hlink

/-- Compilation keeps predicates complete, in frames of entities of the catalog. -/
theorem compositional_complete (hcatalog : ∀ e ∈ catalog.entities, e.Pairs)
    (navigations : List String) :
    Compositional catalog navigations (fun frame => ∀ e ∈ frame.entity, e ∈ catalog.entities)
      fun _ p => Complete p where
  row _ _ he := Filter.mem_entities_of_nested he
  document _ _ he := Filter.mem_entities_of_nested he
  alternatives := id
  scalar := complete_ofScalar
  nested := id
  traversal hframe hlink hinner :=
    ⟨pairs_of_linkOf (fun e he => hcatalog e (hframe e he)) hlink, hinner⟩
  all := complete_all
  any := complete_any

/-- Compiled predicates are complete. -/
theorem complete_of_compile (hcatalog : ∀ e ∈ catalog.entities, e.Pairs) {e : Entity}
    (he : e ∈ catalog.entities) {allowJoins : Bool} {f : Filter} {start : Alias} {p : Predicate}
    (h : ((compile catalog e allowJoins f).run start).1 = .ok p) : Complete p := by
  refine (compositional_complete hcatalog _).of_compile ?_ h
  rintro _ ⟨⟩
  exact he

end Predicate

/-! ## Conditions -/

/-- The text of a condition, whose first operand has the number `n`, is read as an expression
that means a predicate. It is read so as a factor, whatever text it stands in. -/
def Condition.Says {Atom Head : Type} (d : Dialect Atom Head) (φ : Phrasing Head) (n : Nat)
    (p : Predicate) (c : Condition Atom Head) : Prop :=
  ∃ e, Expression.parse? φ.escapes (String.join (Piece.render n (c.pieces d))) = some e ∧
    Expression.Reads φ.escapes (Piece.chars n (c.pieces d)) e ∧
    Expression.Means d φ n (n + Piece.count (c.pieces d)) p e

theorem Condition.says_of_complete {Atom Head : Type} {d : Dialect Atom Head} {φ : Phrasing Head}
    (hd : d.Phrased φ) {p : Predicate} (hp : p.Complete) {c : Condition Atom Head}
    (hc : Condition.ofPredicate d p = .ok c) (n : Nat) : c.Says d φ n p := by
  obtain ⟨e, hreads, hmeans⟩ := means_of_ofPredicate hd p hp c hc n
  exact ⟨e, hreads.parse?_eq, hreads, hmeans⟩

/-- **The text of a condition means its predicate.** The predicate is that of a filter, or of
a policy on written rows, on an entity of a configured catalog; its condition in either
dialect, if it has one, is read as an expression with its comparisons and sub-queries in their
order, and with its value whatever truths these are assigned. -/
theorem Catalog.says_of_compiled {config : Config} {catalog : Catalog}
    (hconfig : Catalog.ofConfig config = .ok catalog) {e : Entity} (he : e ∈ catalog.entities)
    {f : Filter} {p : Predicate}
    (hp : (∃ start, (Predicate.ofFilter catalog e f start).1 = .ok p) ∨
      Predicate.ofWritePolicy catalog e f = .ok p) (n : Nat) :
    (∀ c, Sql.ofPredicate p = .ok c → c.Says Sql.dialect Sql.phrasing n p) ∧
      ∀ c, DocumentQuery.ofPredicate p = .ok c →
        c.Says DocumentQuery.dialect DocumentQuery.phrasing n p := by
  have hpairs : ∀ e ∈ catalog.entities, e.Pairs := fun _ => pairs_of_ofConfig hconfig
  have hcomplete : p.Complete := by
    rcases hp with ⟨start, hp⟩ | hp
    · exact Predicate.complete_of_compile hpairs he hp
    · exact Predicate.complete_of_compile hpairs he hp
  exact ⟨fun c hc => Condition.says_of_complete Sql.phrased_dialect hcomplete hc n,
    fun c hc => Condition.says_of_complete DocumentQuery.phrased_dialect hcomplete hc n⟩

/-- A harbor whose ships lie at berths. -/
def harborConfig : Config where
  settings := .default
  entities :=
    [("Berth", {
        object := "berths"
        backend := .relational
        displayNames := none
        fields := [⟨"id", none, true, .scalar, none⟩, ⟨"pier", none, false, .scalar, none⟩]
        relationships := [("ships", ⟨"Ship", .many, ["id"], ["berth"]⟩)]
        permissions := []
        cache := none }),
      ("Ship", {
        object := "ships"
        backend := .relational
        displayNames := none
        fields := [⟨"id", none, true, .scalar, none⟩, ⟨"berth", none, false, .scalar, none⟩,
          ⟨"name", none, false, .scalar, none⟩]
        relationships := []
        permissions := []
        cache := none })]

def harborBerth : Entity :=
  (Entity.ofFields "Berth" "berths" .relational
    [⟨"id", "id", true, .scalar⟩, ⟨"pier", "pier", false, .scalar⟩]).withRelationship
    ⟨"ships", "Ship", .many, ["id"], ["berth"]⟩

def harbor : Catalog :=
  (((Catalog.empty .default).addEntity harborBerth).addEntity
    (Entity.ofFields "Ship" "ships" .relational
      [⟨"id", "id", true, .scalar⟩, ⟨"berth", "berth", false, .scalar⟩,
        ⟨"name", "name", false, .scalar⟩])).withPermissions .empty

/-- The berths at the first pier or at none, with a later ship whose
name is without a letter. -/
def berthsInUse : Filter :=
  .group [.element "ships" [.scalar "name" .notContains (.text "x"), .scalar "id" .gt (.integer 5)]]
    none (some [.scalar "pier" .eq (.integer 1), .scalar "pier" .isNull (.boolean true)])

def inUse : Predicate :=
  .and
    [.traverse .subquery ⟨1, .root, ["ships"], some ⟨"Ship", "ships", .many, ["id"], ["berth"]⟩⟩
      (.and [.not (.leaf ⟨.bound 1, ["name"]⟩ .contains (some (.text "x"))),
        .leaf ⟨.bound 1, ["id"]⟩ .gt (some (.integer 5))]),
      .or [.leaf ⟨.root, ["pier"]⟩ .eq (some (.integer 1)), .leaf ⟨.root, ["pier"]⟩ .isNull none]]

def inUseCondition : Sql.Condition :=
  .chain .and
    [.subquery ⟨"ships", "t1", [(⟨"t1", "berth"⟩, ⟨"t0", "id"⟩)]⟩
      (.chain .and [.notParen (.atom (.like ⟨"t1", "name"⟩ "%x%")),
        .atom (.compare ⟨"t1", "id"⟩ ">" (.integer 5))]),
      .chain .or [.atom (.compare ⟨"t0", "pier"⟩ "=" (.integer 1)), .atom (.isNull ⟨"t0", "pier"⟩)]]

/-- The condition of the berths in use means what was asked for. -/
theorem Catalog.says_of_compiled_berthsInUse :
    Catalog.ofConfig harborConfig = .ok harbor ∧ harborBerth ∈ harbor.entities ∧
      (Predicate.ofFilter harbor harborBerth berthsInUse 1).1 = .ok inUse ∧
      Sql.ofPredicate inUse = .ok inUseCondition ∧
      String.join (Piece.render 0 (inUseCondition.pieces Sql.dialect)) =
        "(EXISTS (SELECT 1 FROM \"ships\" AS t1 WHERE t1.\"berth\" = t0.\"id\" AND " ++
          "(NOT (t1.\"name\" LIKE @param0 ESCAPE '\\') AND t1.\"id\" > @param1)) AND " ++
          "(t0.\"pier\" = @param2 OR t0.\"pier\" IS NULL))" ∧
      inUseCondition.Says Sql.dialect Sql.phrasing 0 inUse := by
  have hconfig : Catalog.ofConfig harborConfig = .ok harbor := rfl
  have hberth : harborBerth ∈ harbor.entities := .head _
  have hfilter : (Predicate.ofFilter harbor harborBerth berthsInUse 1).1 = .ok inUse := rfl
  have hcondition : Sql.ofPredicate inUse = .ok inUseCondition := rfl
  refine ⟨hconfig, hberth, hfilter, hcondition, ?_, ?_⟩
  · decide +kernel
  · exact (Catalog.says_of_compiled hconfig hberth (.inl ⟨1, hfilter⟩) 0).1 _ hcondition

end RoleQuery
