import RoleQuery.Proofs.Catalog.Examples
import RoleQuery.Proofs.Filter.Erasure
import RoleQuery.Proofs.Sql.Outline
import RoleQuery.Statement.OfPlan

/-!
# Values never reach the text

Two plans that differ only in their values are refused for one reason or become statements
with one text and the same names of parameters, on either backend. So a value can change what
a statement finds, but not what it is. The same holds from the filter of a client on: which
predicate it becomes, and how its traversals are carried out, is decided without its operands.

Both sides are compared with the statement of the erased plan, which is one for both.
-/
namespace RoleQuery

namespace DocumentQuery

/-- Comparisons are written alike, whatever their operands are. -/
theorem separates_dialect : dialect.Separates := by
  intro path c v w
  cases c <;> rfl

/-- A plan is refused or written as its erasure is. -/
theorem Select.map_outline_ofPlan (plan : QueryPlan) :
    (ofPlan plan.erase).map (fun s => s.pieces.map Piece.erase) =
      (ofPlan plan).map fun s => s.pieces.map Piece.erase := by
  have hjoins : (plan.erase.predicate.map Predicate.joins).getD [] =
      (plan.predicate.map Predicate.joins).getD [] := by
    simp [QueryPlan.erase, Function.comp_def]
  have hcondition : (plan.erase.predicate.mapM ofPredicate).map
        (Option.map (Condition.outline dialect)) =
      (plan.predicate.mapM ofPredicate).map (Option.map (Condition.outline dialect)) := by
    cases hp : plan.predicate with
    | none => simp only [QueryPlan.erase, hp]; rfl
    | some p =>
      simp only [QueryPlan.erase, hp]
      exact Except.map_map_congr (Condition.map_outline_ofPredicate separates_dialect p)
        fun _ _ h => congrArg some h
  have hmask : plan.erase.mask = plan.mask := rfl
  unfold ofPlan
  rw [hjoins, hmask]
  by_cases hrelated : (!plan.mask.relationships.isEmpty) = true
  · simp only [hrelated]
    rfl
  simp only [hrelated]
  refine Except.map_bind_congr (f := id) rfl fun joins _ hjoined => ?_
  obtain rfl : joins = _ := hjoined
  refine Except.map_bind_congr hcondition fun c c' hc => congrArg Except.ok ?_
  cases c with
  | none =>
    cases c' with
    | none => rfl
    | some c' => cases hc
  | some c =>
    cases c' with
    | none => cases hc
    | some c' =>
      have hpieces : (c.pieces dialect).map Piece.erase = (c'.pieces dialect).map Piece.erase :=
        Option.some.inj hc
      simp only [pieces, List.map_append, List.map_cons, hpieces]
      rfl

end DocumentQuery

variable {catalog : Catalog} {e : Entity}

/-- A plan is refused or written as its erasure is. -/
theorem QueryPlan.map_outline_statement (plan : QueryPlan) :
    plan.erase.statement.map Statement.outline = plan.statement.map Statement.outline := by
  have hbackend : plan.erase.backend = plan.backend := rfl
  rw [statement, statement, hbackend]
  cases plan.backend with
  | relational =>
    exact Except.map_map_congr (Sql.Select.map_outline_ofPlan plan) fun _ _ h =>
      Statement.outline_ofPieces_congr h
  | hierarchical =>
    exact Except.map_map_congr (DocumentQuery.Select.map_outline_ofPlan plan) fun _ _ h =>
      Statement.outline_ofPieces_congr h

/-- The statement of a write is refused, absent or written as that of its erasure. -/
theorem WritePlan.map_outline_statement? (plan : WritePlan) :
    plan.erase.statement?.map (Option.map Statement.outline) =
      plan.statement?.map (Option.map Statement.outline) := by
  have hbackend : plan.erase.backend = plan.backend := rfl
  rw [statement?, statement?, hbackend]
  cases plan.backend with
  | relational =>
    exact Except.map_map_congr (Sql.Write.map_outline_ofPlan plan) fun _ _ h =>
      congrArg some (Statement.outline_ofPieces_congr h)
  | hierarchical => rfl

/-- The parameters of the statement of a read are named by their numbers. -/
theorem QueryPlan.names_of_statement {plan : QueryPlan} {s : Statement}
    (h : plan.statement = .ok s) :
    s.parameters.map (·.1) = (List.range s.parameters.length).map Piece.parameterName := by
  rw [statement] at h
  cases hbackend : plan.backend <;> rw [hbackend] at h
  all_goals
    obtain ⟨_, -, rfl⟩ := Except.map_eq_ok_iff.1 h
    exact Statement.names_ofPieces _

/-- So are those of a write. -/
theorem WritePlan.names_of_statement? {plan : WritePlan} {s : Statement}
    (h : plan.statement? = .ok (some s)) :
    s.parameters.map (·.1) = (List.range s.parameters.length).map Piece.parameterName := by
  rw [statement?] at h
  cases hbackend : plan.backend with
  | relational =>
    rw [hbackend] at h
    obtain ⟨_, -, hs⟩ := Except.map_eq_ok_iff.1 h
    cases hs
    exact Statement.names_ofPieces _
  | hierarchical =>
    rw [hbackend] at h
    cases h

/-- The statement of a plan that takes its predicate from a filter. -/
def QueryPlan.statementOf (plan : QueryPlan) (catalog : Catalog) (e : Entity) (f : Filter)
    (start : Alias) : Except RequestError Statement := do
  let predicate ← (Predicate.ofFilter catalog e f start).1
  { plan with
    predicate := some predicate
    nextAlias := (Predicate.ofFilter catalog e f start).2 }.statement

/-- The statement of a valid filter is that of its erasure. -/
theorem QueryPlan.map_outline_statementOf {f : Filter} (h : f.validate catalog e = .ok ())
    (plan : QueryPlan) (start : Alias) :
    (plan.statementOf catalog e f.erase start).map Statement.outline =
      (plan.statementOf catalog e f start).map Statement.outline := by
  obtain ⟨halias, hpredicate⟩ := Predicate.erase_ofFilter h start
  unfold statementOf
  rw [halias]
  refine Except.map_bind_congr hpredicate fun p p' hp => ?_
  let asking (p : Predicate) : QueryPlan :=
    { plan with predicate := some p, nextAlias := (Predicate.ofFilter catalog e f start).2 }
  have herase : (asking p).erase = (asking p').erase := by
    simp only [asking, erase, Option.map_some, hp]
  change (asking p).statement.map _ = (asking p').statement.map _
  rw [← map_outline_statement, herase, map_outline_statement]

/-- **Values never reach the text of a statement.** Plans of reads that differ only in the
operands of their predicates and in the values of their positions, nulls apart, plans of
writes that differ only in the values of keys, of columns and of their policies, and valid
filters that differ only in operands, nulls and tests for null apart, are refused for one
reason or have statements of one text, with the same parameters `@param0`, `@param1`, … -/
theorem Statement.outline_eq_of_erase_eq :
    (∀ plan₁ plan₂ : QueryPlan, plan₁.erase = plan₂.erase →
      plan₁.statement.map outline = plan₂.statement.map outline ∧
      ∀ s, plan₁.statement = .ok s →
        s.parameters.map (·.1) = (List.range s.parameters.length).map Piece.parameterName) ∧
    (∀ plan₁ plan₂ : WritePlan, plan₁.erase = plan₂.erase →
      plan₁.statement?.map (Option.map outline) = plan₂.statement?.map (Option.map outline) ∧
      ∀ s, plan₁.statement? = .ok (some s) →
        s.parameters.map (·.1) = (List.range s.parameters.length).map Piece.parameterName) ∧
    ∀ (catalog : Catalog) (e : Entity) (f₁ f₂ : Filter) (plan : QueryPlan) (start : Alias),
      f₁.validate catalog e = .ok () → f₂.validate catalog e = .ok () → f₁.erase = f₂.erase →
      (plan.statementOf catalog e f₁ start).map outline =
        (plan.statementOf catalog e f₂ start).map outline := by
  refine ⟨fun plan₁ plan₂ h => ⟨?_, fun _ => plan₁.names_of_statement⟩,
    fun plan₁ plan₂ h => ⟨?_, fun _ => plan₁.names_of_statement?⟩,
    fun catalog e f₁ f₂ plan start h₁ h₂ h => ?_⟩
  · rw [← plan₁.map_outline_statement, h, plan₂.map_outline_statement]
  · rw [← plan₁.map_outline_statement?, h, plan₂.map_outline_statement?]
  · rw [← plan.map_outline_statementOf h₁, h, plan.map_outline_statementOf h₂]

/-- Books of a title, in the order of their titles and after a position. -/
def booksTitled (title : Value) (position : List Value) : QueryPlan where
  entity := "Book"
  object := "books"
  backend := .relational
  predicate := some (.leaf ⟨.root, ["title"]⟩ .contains (some title))
  mask := ⟨some "Book", some "books", [.plain "title" "title" "title" none]⟩
  pagination := ⟨.relational, [⟨"title", "title", .asc, true⟩, ⟨"id", "id", .asc, false⟩], 10,
    .after position⟩
  nextAlias := 1

/-- A new title for a book that nobody has locked. -/
def retitled (id title locked : Value) : WritePlan where
  entity := "Book"
  object := "books"
  backend := .relational
  operation := .update
  key := [("id", id)]
  values := [("title", title)]
  policy := some (.not (.leaf ⟨.root, ["locked"]⟩ .eq (some locked)))

open Examples

/-- Books of a title with a review by somebody. -/
def reviewedBy (title reviewer : String) : Filter :=
  .group [.scalar "title" .eq (.text title), .element "reviews" [.scalar "by" .eq (.text reviewer)]]
    none none

theorem validate_reviewedBy (title reviewer : String) :
    (reviewedBy title reviewer).validate library book = .ok () := rfl

/-- A title, a key or a name that ends a literal and goes on as SQL does
not change a statement. -/
theorem Statement.outline_eq_of_erase_eq_quoted :
    ((booksTitled (.text "Dune") [.text "Dune", .integer 7]).statement.map outline =
        (booksTitled (.text "' OR 1 = 1 --") [.boolean true, .text "';"]).statement.map outline) ∧
      ((retitled (.integer 7) (.text "Dune") (.boolean true)).statement?.map (Option.map outline) =
        (retitled (.text "7 OR 1 = 1") .null (.text "'")).statement?.map (Option.map outline)) ∧
      (reviewedBy "Dune" "Ada").validate library book = .ok () ∧
      (reviewedBy "'; --" "\"").validate library book = .ok () ∧
      ((booksTitled .null []).statementOf library book (reviewedBy "Dune" "Ada") 1).map outline =
        ((booksTitled .null []).statementOf library book (reviewedBy "'; --" "\"") 1).map
          outline := by
  obtain ⟨hreads, hwrites, hfilters⟩ := outline_eq_of_erase_eq
  have hread : (booksTitled (.text "Dune") [.text "Dune", .integer 7]).erase =
      (booksTitled (.text "' OR 1 = 1 --") [.boolean true, .text "';"]).erase := rfl
  have hwrite : (retitled (.integer 7) (.text "Dune") (.boolean true)).erase =
      (retitled (.text "7 OR 1 = 1") .null (.text "'")).erase := rfl
  have hfilter : (reviewedBy "Dune" "Ada").erase = (reviewedBy "'; --" "\"").erase := rfl
  exact ⟨(hreads _ _ hread).1, (hwrites _ _ hwrite).1, validate_reviewedBy _ _,
    validate_reviewedBy _ _,
    hfilters _ _ _ _ _ 1 (validate_reviewedBy _ _) (validate_reviewedBy _ _) hfilter⟩

end RoleQuery
