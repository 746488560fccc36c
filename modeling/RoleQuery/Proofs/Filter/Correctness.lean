import RoleQuery.Proofs.Catalog.Entities
import RoleQuery.Proofs.Catalog.Examples
import RoleQuery.Proofs.Filter.Truth
import RoleQuery.Proofs.Outcome

/-!
# Compiled filters mean what the filters mean

A valid filter compiles, whichever alias is the next free one, and its predicate is true,
false or unknown of a document as the filter is. Relationships must be followed from rows: a
predicate looks up the columns of a relationship in the row, not in a document inside it.
-/
namespace RoleQuery

namespace Filter

/-! ## Filters that follow relationships from rows only -/

mutual

/-- If relationships are followed from rows only, a filter says of a document inside a
row what it means there. -/
theorem truthAt_eq_meaning (catalog : Catalog) (resolve : Resolver) (entity : Option Entity)
    (nestedIn : Bool) (row : Json) (document : Option Json)
    (hdocument : nestedIn = false → document = some row) :
    (x : Filter) → x.relatesRows catalog entity nestedIn = true →
      x.truthAt catalog resolve entity row document = x.meaning catalog resolve entity document
  | .scalar field op operand, _ => by rw [truthAt, meaning]
  | .object field children, h => by
    rw [relatesRows] at h
    rw [truthAt, meaning, rowsOf]
    cases hr : relationshipOf entity field with
    | some r =>
      rw [hr] at h
      obtain ⟨hnested, hchildren⟩ := Bool.and_eq_true_iff.1 h
      rw [hdocument (by simpa using hnested)]
      simp only
      congr 3
      funext child
      rw [truthsAt_eq_meanings catalog resolve _ false child (some child) (fun _ => rfl) children
        hchildren]
    | none =>
      rw [hr] at h
      simp only
      rw [truthsAt_eq_meanings catalog resolve _ true row _ (by simp) children h]
  | .element field children, h => by
    rw [relatesRows, Bool.and_eq_true] at h
    obtain ⟨hrelated, hchildren⟩ := h
    have hrows : rowsOf catalog resolve entity row document field =
        match relationshipOf entity field with
        | some r => catalog.relatedRows resolve r document
        | none => Json.elements (memberOf entity field document) := by
      rw [rowsOf]
      cases hr : relationshipOf entity field with
      | none => rfl
      | some r =>
        rw [hr] at hrelated
        rw [hdocument (by simpa using hrelated)]
    rw [truthAt, meaning, hrows]
    congr 3
    funext child
    rw [truthsAt_eq_meanings catalog resolve _ false child (some child) (fun _ => rfl) children
      hchildren]
  | .group fields allOf anyOf, h => by
    rw [relatesRows, Bool.and_eq_true, Bool.and_eq_true] at h
    obtain ⟨⟨hfields, hall⟩, hany⟩ := h
    rw [truthAt, meaning,
      truthsAt_eq_meanings catalog resolve entity nestedIn row document hdocument fields hfields,
      listTruthsAt_eq_listMeanings catalog resolve entity nestedIn row document hdocument
        allOf hall,
      listTruthsAt_eq_listMeanings catalog resolve entity nestedIn row document hdocument
        anyOf hany]
termination_by structural x => x

/-- The same of several filters. -/
theorem truthsAt_eq_meanings (catalog : Catalog) (resolve : Resolver) (entity : Option Entity)
    (nestedIn : Bool) (row : Json) (document : Option Json)
    (hdocument : nestedIn = false → document = some row) :
    (xs : List Filter) → relatesRowsAll catalog entity nestedIn xs = true →
      truthsAt catalog resolve entity row document xs =
        meanings catalog resolve entity document xs
  | [], _ => rfl
  | x :: rest, h => by
    rw [relatesRowsAll, Bool.and_eq_true] at h
    rw [truthsAt, meanings,
      truthAt_eq_meaning catalog resolve entity nestedIn row document hdocument x h.1,
      truthsAt_eq_meanings catalog resolve entity nestedIn row document hdocument rest h.2]
termination_by structural xs => xs

/-- The same of a list that may be absent. -/
theorem listTruthsAt_eq_listMeanings (catalog : Catalog) (resolve : Resolver)
    (entity : Option Entity) (nestedIn : Bool) (row : Json) (document : Option Json)
    (hdocument : nestedIn = false → document = some row) :
    (list : Option (List Filter)) → relatesRowsList catalog entity nestedIn list = true →
      listTruthsAt catalog resolve entity row document list =
        listMeanings catalog resolve entity document list
  | none, _ => rfl
  | some xs, h => by
    rw [relatesRowsList] at h
    rw [listTruthsAt, listMeanings,
      truthsAt_eq_meanings catalog resolve entity nestedIn row document hdocument xs h]
termination_by structural list => list

end

/-! ## Valid filters -/

section Valid

variable {catalog : Catalog} {entity : Option Entity}

/-- An entity that a member leads to belongs to the catalog. -/
theorem mem_entities_of_nested {field : String} {inner : Entity}
    (h : nested catalog entity field = some inner) : inner ∈ catalog.entities := by
  obtain ⟨e, -, he⟩ := Option.bind_eq_some_iff.1 h
  exact Catalog.mem_entities_of_nestedEntity? he

/-- The only fault left is a relationship of the catalog that leads to no entity. -/
def OrDangling (catalog : Catalog) (fault : Except RequestError Unit) : Prop :=
  fault = .ok () ∨ ∃ e ∈ catalog.entities, ∃ r ∈ e.relationships,
    catalog.entity? r.target = none ∧ fault = .error (.unknownEntity r.target)

theorem OrDangling.bind {fault rest : Except RequestError Unit} (hfault : OrDangling catalog fault)
    (hrest : OrDangling catalog rest) : OrDangling catalog (do fault; rest) := by
  rcases hfault with rfl | ⟨e, he, r, hr, htarget, rfl⟩
  · exact hrest
  · exact .inr ⟨e, he, r, hr, htarget, rfl⟩

/-- Where every relationship leads somewhere, no fault is left. -/
theorem OrDangling.eq_ok (hcat : catalog.TargetsExist) {fault : Except RequestError Unit}
    (h : OrDangling catalog fault) : fault = .ok () := by
  rcases h with hok | ⟨e, he, r, hr, htarget, -⟩
  · exact hok
  · have hsome := hcat e he r hr
    rw [htarget] at hsome
    cases hsome

/-- A relationship of an entity of the catalog has a link unless it leads to no entity. -/
theorem orDangling_linkOf (hentity : ∀ e ∈ entity, e ∈ catalog.entities) {field : String}
    {r : Relationship} (hr : relationshipOf entity field = some r) :
    OrDangling catalog ((Predicate.linkOf catalog r).map fun _ => ()) := by
  obtain ⟨e, he, hfind⟩ := Option.bind_eq_some_iff.1 hr
  rw [Predicate.linkOf]
  cases htarget : catalog.entity? r.target with
  | some target => exact .inl rfl
  | none => exact .inr ⟨e, hentity e he, r, List.mem_of_find?_eq_some hfind, htarget, rfl⟩

theorem orDangling_linkOf_mapM (hentity : ∀ e ∈ entity, e ∈ catalog.entities) (field : String) :
    OrDangling catalog
      (((relationshipOf entity field).mapM (Predicate.linkOf catalog)).map fun _ => ()) := by
  cases hr : relationshipOf entity field with
  | none => exact .inl rfl
  | some r =>
    have hlink := orDangling_linkOf hentity hr
    rw [Option.mapM_some]
    revert hlink
    cases Predicate.linkOf catalog r <;> exact id

theorem check_of_validateScalar {path field : String} {op : Operator} {operand : Value}
    (h : validateScalar entity path field op operand = .ok ()) : op.check operand = .ok () := by
  rw [validateScalar] at h
  split at h
  · cases h
  · cases hcheck : op.check operand with
    | error fault => rw [hcheck] at h; cases h
    | ok _ => rfl

mutual

/-- A valid filter has no fault that keeps it from having a predicate, unless it follows a
relationship that leads to no entity. -/
theorem orDangling_of_validateNode (entity : Option Entity)
    (hentity : ∀ e ∈ entity, e ∈ catalog.entities) (path : String) :
    (x : Filter) → x.validateNode catalog entity path = .ok () →
      OrDangling catalog (x.expressible catalog entity)
  | .scalar field op operand, h => by
    rw [validateNode] at h
    rw [expressible, check_of_validateScalar h]
    split <;> exact .inl rfl
  | .object field children, h => by
    rw [validateNode, Except.check_bind_eq_ok_iff] at h
    have hchildren := orDangling_of_validateAll (nested catalog entity field)
      (fun _ => mem_entities_of_nested) _ children h.2
    rw [expressible]
    cases hr : relationshipOf entity field with
    | none => exact hchildren
    | some r => exact (orDangling_linkOf hentity hr).bind hchildren
  | .element field children, h => by
    rw [validateNode, Except.check_bind_eq_ok_iff] at h
    rw [expressible]
    exact (orDangling_linkOf_mapM hentity field).bind
      (orDangling_of_validateAll (nested catalog entity field) (fun _ => mem_entities_of_nested) _
        children h.2)
  | .group fields allOf anyOf, h => by
    rw [validateNode, Except.check_bind_eq_ok_iff, Except.check_bind_eq_ok_iff] at h
    obtain ⟨hfields, hall, hany⟩ := h
    rw [expressible]
    exact (orDangling_of_validateAll entity hentity path fields hfields).bind
      ((orDangling_of_validateList entity hentity path allOf hall).bind
        (orDangling_of_validateList entity hentity path anyOf hany))
termination_by structural x => x

/-- Nor have several valid filters. -/
theorem orDangling_of_validateAll (entity : Option Entity)
    (hentity : ∀ e ∈ entity, e ∈ catalog.entities) (path : String) :
    (xs : List Filter) → validateAll catalog entity path xs = .ok () →
      OrDangling catalog (expressibleAll catalog entity xs)
  | [], _ => .inl rfl
  | x :: rest, h => by
    rw [validateAll, Except.check_bind_eq_ok_iff] at h
    rw [expressibleAll]
    exact (orDangling_of_validateNode entity hentity path x h.1).bind
      (orDangling_of_validateAll entity hentity path rest h.2)
termination_by structural xs => xs

/-- Nor has a valid list that may be absent. -/
theorem orDangling_of_validateList (entity : Option Entity)
    (hentity : ∀ e ∈ entity, e ∈ catalog.entities) (path : String) :
    (list : Option (List Filter)) → validateList catalog entity path list = .ok () →
      OrDangling catalog (expressibleList catalog entity list)
  | none, _ => .inl rfl
  | some xs, h => by
    rw [validateList] at h
    rw [expressibleList]
    exact orDangling_of_validateAll entity hentity path xs h
termination_by structural list => list

end

/-- A valid filter on an entity of the catalog has no fault that keeps it from having a
predicate, unless it follows a relationship that leads to no entity. -/
theorem orDangling_of_validate {e : Entity} (he : e ∈ catalog.entities) {f : Filter}
    (hvalid : f.validate catalog e = .ok ()) :
    OrDangling catalog (f.expressible catalog (some e)) := by
  apply orDangling_of_validateNode (some e) _ e.name f hvalid
  rintro other ⟨⟩
  exact he

end Valid

end Filter

namespace Predicate

/-- A valid filter compiles, from whichever alias, and its predicate is true, false or unknown
of a document as the filter means it; a filter that asks nothing cannot hold. -/
theorem eval_ofFilter {catalog : Catalog} (hcat : catalog.TargetsExist) {e : Entity}
    (he : e ∈ catalog.entities) {f : Filter} (hvalid : f.validate catalog e = .ok ())
    (hrelates : f.relatesRows catalog (some e) false = true) (start : Alias) :
    ∃ p, (ofFilter catalog e f start).1 = .ok p ∧
      ∀ resolve document, p.eval resolve document [] =
        (f.meaning catalog resolve (some e) (some document)).getD (some false) := by
  have hexpressible := (Filter.orDangling_of_validate he hvalid).eq_ok hcat
  obtain ⟨p, hp, hmeaning⟩ :=
    (yields_compile catalog e true f).run_ok hexpressible (firstAlias start)
  refine ⟨p, hp, fun resolve document => ?_⟩
  rw [hmeaning, Filter.truthAt_eq_meaning catalog resolve (some e) false document (some document)
    (fun _ => rfl) f hrelates]

open Examples

/-- Books that were lent, in a red box or with a review without stars; the
title does not matter. -/
def lentInRed : Filter :=
  .group [.scalar "title" .eq .null, .element "loans" [.scalar "id" .gt (.integer 0)]] none
    (some [.object "box" [.scalar "red" .eq (.boolean true)],
      .element "reviews" [.scalar "stars" .isNull (.boolean true)]])

/-- The filter compiles from the last alias, and is true of a book that is in no box and has a
review without stars, if it was lent. -/
theorem eval_ofFilter_lentInRed :
    library.TargetsExist ∧ book ∈ library.entities ∧
      lentInRed.validate library book = .ok () ∧
      lentInRed.relatesRows library (some book) false = true ∧
      ∃ p, (ofFilter library book lentInRed 4294967295).1 = .ok p ∧
        p.eval (fun _ _ => [.object [("id", .int 7)]])
          (.object [("id", .int 1), ("reviews", .list [.object []])]) [] = some true := by
  have hcat : library.TargetsExist := by unfold Catalog.TargetsExist; decide
  have he : book ∈ library.entities := by decide
  have hvalid : lentInRed.validate library book = .ok () := by rfl
  have hrelates : lentInRed.relatesRows library (some book) false = true := by decide
  obtain ⟨p, hp, hmeaning⟩ := eval_ofFilter hcat he hvalid hrelates 4294967295
  refine ⟨hcat, he, hvalid, hrelates, p, hp, ?_⟩
  rw [hmeaning]
  decide

end Predicate

end RoleQuery
