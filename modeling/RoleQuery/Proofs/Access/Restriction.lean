import RoleQuery.Access.Policy
import RoleQuery.Filter.Parser
import RoleQuery.Proofs.Catalog.Examples
import RoleQuery.Proofs.Filter.Truth

/-!
# Policies restrict what filters admit

A filter and a policy are compiled together: they share the aliases, and each counts the
navigations of the other, so that one may change how the other is carried out. What they
admit together is still what each of them admits alone. Clients and grants write groups,
which always ask something.
-/
namespace RoleQuery

namespace Filter

/-- Whether a filter combines members. -/
def isGroup : Filter → Bool
  | .group _ _ _ => true
  | _ => false

/-- Whether the predicate of a filter, compiled with aliases from `start` on, holds of a
document; a filter that does not compile has a cause. -/
def admits (catalog : Catalog) (e : Entity) (start : Alias) (resolve : Resolver) (document : Json)
    (f : Filter) : Except RequestError Bool :=
  (Predicate.ofFilter catalog e f start).1.map fun p => p.holds resolve document

/-- A filter written in JSON is a group. -/
theorem isGroup_of_ofJson {catalog : Catalog} {e : Entity} {input : Json} {f : Filter}
    (h : ofJson catalog e input = .ok f) : f.isGroup := by
  rw [ofJson] at h
  cases input with
  | object ms =>
    rw [ofObject] at h
    cases hgroup : ofMembers catalog (some e) e.name {} ms with
    | error fault => rw [hgroup] at h; cases h
    | ok group => rw [hgroup] at h; cases h; rfl
  | _ => cases h

/-- What a filter admits is told by its faults and by what it says of the row. -/
theorem admits_eq (catalog : Catalog) (e : Entity) (start : Alias) (resolve : Resolver)
    (document : Json) (f : Filter) :
    f.admits catalog e start resolve document =
      (f.expressible catalog (some e)).map fun _ =>
        (f.truthAt catalog resolve (some e) document (some document)).getD (some false) ==
          some true := by
  have hyields := Predicate.yields_compile catalog e true f
  rw [admits]
  cases hfault : f.expressible catalog (some e) with
  | error error =>
    have hrun := hyields.run_error hfault (firstAlias start)
    rw [Predicate.ofFilter, hrun]
    rfl
  | ok _ =>
    obtain ⟨p, hp, htruth⟩ := hyields.run_ok hfault (firstAlias start)
    rw [Predicate.ofFilter, hp]
    simp only [Except.map, Predicate.holds, htruth]

/-- A group always says something. -/
theorem truthAt_of_isGroup {f : Filter} (h : f.isGroup) (catalog : Catalog) (resolve : Resolver)
    (entity : Option Entity) (row : Json) (document : Option Json) :
    ∃ t, f.truthAt catalog resolve entity row document = some t := by
  cases f with
  | group fields allOf anyOf => exact ⟨_, by rw [truthAt]⟩
  | _ => cases h

end Filter

namespace Policy

/-- Resolving the claims of a policy keeps it a group. -/
theorem isGroup_of_resolve {caller : Caller} {policy p : Filter} (hpolicy : policy.isGroup)
    (h : resolve caller policy = .ok p) : p.isGroup := by
  cases policy with
  | group fields allOf anyOf =>
    simp only [resolve, Filter.mapOperands, bind, Except.bind] at h
    repeat' split at h
    all_goals cases h
    rfl
  | _ => cases hpolicy

/-- A filter restricted by a policy has the first fault of the two. -/
theorem expressible_conjunction (catalog : Catalog) (entity : Option Entity) (f p : Filter) :
    (Filter.conjunction [f, p]).expressible catalog entity =
      (f.expressible catalog entity >>= fun _ => p.expressible catalog entity) := by
  simp only [Filter.conjunction, Filter.expressible, Filter.expressibleAll, Filter.expressibleList]
  cases f.expressible catalog entity with
  | error error => rfl
  | ok _ => cases p.expressible catalog entity <;> rfl

/-- A filter restricted by a policy says what both of them say. -/
theorem truthAt_conjunction {f p : Filter} (hf : f.isGroup) (hp : p.isGroup) (catalog : Catalog)
    (resolve : Resolver) (entity : Option Entity) (row : Json) (document : Option Json) :
    ∃ s t, f.truthAt catalog resolve entity row document = some s ∧
      p.truthAt catalog resolve entity row document = some t ∧
      (Filter.conjunction [f, p]).truthAt catalog resolve entity row document =
        some (Truth.conjunction [s, t]) := by
  obtain ⟨s, hs⟩ := Filter.truthAt_of_isGroup hf catalog resolve entity row document
  obtain ⟨t, ht⟩ := Filter.truthAt_of_isGroup hp catalog resolve entity row document
  refine ⟨s, t, hs, ht, ?_⟩
  simp [Filter.conjunction, Filter.truthAt, Filter.truthsAt, Filter.listTruthsAt, hs, ht]

/-- Whichever aliases are free, a filter restricted by a policy admits the documents that the
filter and the policy both admit, and a policy alone admits what it admits; a filter that does
not compile is the first cause, and a policy that does not is the next. -/
theorem admits_restrict {f p : Filter} (hf : f.isGroup) (hp : p.isGroup) (catalog : Catalog)
    (e : Entity) (start first second : Alias) (resolve : Resolver) (document : Json) :
    (restrict (some f) (some p)).map (·.admits catalog e start resolve document) =
        some (do
          let a ← f.admits catalog e first resolve document
          let b ← p.admits catalog e second resolve document
          return a && b) ∧
      (restrict none (some p)).map (·.admits catalog e start resolve document) =
        some (p.admits catalog e second resolve document) := by
  constructor
  · obtain ⟨s, t, hs, ht, hboth⟩ :=
      truthAt_conjunction hf hp catalog resolve (some e) document (some document)
    have hholds : (Truth.conjunction [s, t] == some true) = (s == some true && t == some true) := by
      rw [Bool.eq_iff_iff]
      simp only [Bool.and_eq_true, beq_iff_eq, Truth.conjunction_pair_eq_true]
    simp only [restrict, Option.map_some, Filter.admits_eq, expressible_conjunction, hs, ht, hboth,
      Option.getD_some, hholds]
    cases f.expressible catalog (some e) with
    | error error => rfl
    | ok _ => cases p.expressible catalog (some e) <;> rfl
  · simp only [restrict, Option.map_some, Filter.admits_eq]

open Examples

/-- A book with one good review. -/
def praised (publisher : Int) : Json :=
  .object [("publisher_id", .int publisher), ("reviews", .list [.object [("stars", .int 5)]])]

/-- A client asks for books with a good review, or of any publisher at all; the policy
admits the books of the caller's publisher that have a good review. Both follow the
same list. Such a book is admitted, and one of another publisher is refused that the
client's filter alone admits. -/
theorem admits_restrict_book :
    ∃ f p, Filter.ofJson library book
        (.object [("or", .list [
          .object [("reviews", .object [("stars", .object [("gt", .int 3)])])],
          .object [("publisher", .object [("isNull", .bool false)])]])]) = .ok f ∧
      resolve ⟨"editor", [("publisher", .integer 7)]⟩
        (.group [.scalar "publisher" .eq (.text "@claims.publisher"),
          .element "reviews" [.scalar "stars" .gt (.integer 3)]] none none) = .ok p ∧
      f.isGroup ∧ p.isGroup ∧
      (restrict (some f) (some p)).map (·.admits library book 0
        noRelations (praised 7)) = some (.ok true) ∧
      (restrict (some f) (some p)).map (·.admits library book 0
        noRelations (praised 8)) = some (.ok false) ∧
      (restrict none (some p)).map (·.admits library book 0
        noRelations (praised 7)) = some (.ok true) ∧
      f.admits library book 0 noRelations (praised 8) = .ok true := by
  refine ⟨_, _, rfl, rfl, rfl, rfl, ?_, ?_, ?_, rfl⟩
  · rw [(admits_restrict rfl rfl _ _ 0 0 0 _ _).1]
    rfl
  · rw [(admits_restrict rfl rfl _ _ 0 0 0 _ _).1]
    rfl
  · rw [(admits_restrict (f := .group [] none none) rfl rfl _ _ 0 0 0 _ _).2]
    rfl

end Policy

end RoleQuery
