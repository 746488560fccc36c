import RoleQuery.Filter.Parser
import RoleQuery.Filter.Validation
import RoleQuery.Predicate.Evaluation
import Mathlib.Data.List.Infix

/-!
# What filters mean

A filter is true, false or unknown of a document, or it asks nothing of it. The meaning is
read off the filter alone: fields are looked up in the document, nested documents are
entered, and the elements of a list and the related items are tried one by one. No predicate,
alias or path occurs in it.
-/
namespace RoleQuery

namespace Truth

/-- All of several truths; where there is none at all, false. -/
def conjunction : List Truth → Truth
  | [] => some false
  | ts => all ts

theorem conjunction_of_ne_nil {ts : List Truth} (h : ts ≠ []) : conjunction ts = all ts := by
  cases ts with
  | nil => exact absurd rfl h
  | cons t rest => rfl

@[simp] theorem conjunction_singleton (t : Truth) : conjunction [t] = t := by
  rcases t with _ | _ | _ <;> rfl

@[simp] theorem any_singleton (t : Truth) : any [t] = t := by
  rcases t with _ | _ | _ <;> rfl

/-- One falsehood makes a conjunction false. -/
theorem conjunction_eq_false {ts : List Truth} (h : some false ∈ ts) :
    conjunction ts = some false := by
  rw [conjunction_of_ne_nil (List.ne_nil_of_mem h)]
  exact all_eq_false_iff.2 h

theorem conjunction_pair_eq_true {s t : Truth} :
    conjunction [s, t] = some true ↔ s = some true ∧ t = some true := by
  rw [conjunction_of_ne_nil (by simp), all_eq_true_iff]
  simp

end Truth

/-- Whether one text is found in another is whether it is a part of it. -/
theorem occursIn_eq_decide (part s : List Char) : occursIn part s = decide (part <:+: s) := by
  induction s with
  | nil => cases part <;> simp [occursIn]
  | cons c rest ih =>
    rw [occursIn, ih, Bool.eq_iff_iff]
    simp [List.infix_cons_iff]

namespace Operator

/-- A comparison of two texts; it is unknown of anything else. -/
def ofTexts (test : List Char → List Char → Bool) (actual operand : Value) : Truth :=
  match actual, operand with
  | .text s, .text part => some (test part.toList s.toList)
  | _, _ => none

/-- What an operator says of two scalars; it is unknown where they do not compare. -/
def relates (op : Operator) (actual operand : Value) : Truth :=
  match op with
  | .eq => (actual.compare? operand).map (· == .eq)
  | .neq => (actual.compare? operand).map (· != .eq)
  | .gt => (actual.compare? operand).map (· == .gt)
  | .gte => (actual.compare? operand).map (· != .lt)
  | .lt => (actual.compare? operand).map (· == .lt)
  | .lte => (actual.compare? operand).map (· != .gt)
  | .contains => ofTexts (fun part s => decide (part <:+: s)) actual operand
  | .notContains => Truth.not (ofTexts (fun part s => decide (part <:+: s)) actual operand)
  | .startsWith => ofTexts (fun part s => decide (part <+: s)) actual operand
  | .endsWith => ofTexts (fun part s => decide (part <:+ s)) actual operand
  | .isNull => none

/-- What a comparison says of the value that was found. The test for null is never unknown;
any other comparison is unknown of what is missing, null or no scalar. -/
def truth (op : Operator) (found : Option Json) (operand : Value) : Truth :=
  if op = .isNull then
    let absent : Truth := some (found.getD .null).isNull
    if operand = .boolean true then absent else Truth.not absent
  else
    match found.bind Value.ofJson? with
    | none | some .null => none
    | some actual => op.relates actual operand

theorem truth_notContains (found : Option Json) (operand : Value) :
    Operator.notContains.truth found operand =
      Truth.not (Operator.contains.truth found operand) := by
  simp only [truth, reduceCtorEq, ↓reduceIte]
  cases found.bind Value.ofJson? with
  | none => rfl
  | some actual => cases actual <;> rfl

end Operator

theorem Value.boolean?_eq_some {v : Value} {b : Bool} :
    v.boolean? = some b ↔ v = .boolean b := by
  cases v <;> simp [Value.boolean?]

/-- The rows that a relationship leads to from a document. -/
def Catalog.relatedRows (catalog : Catalog) (resolve : Resolver) (r : Relationship)
    (document : Option Json) : List Json :=
  match catalog.entity? r.target, document with
  | some target, some row =>
    resolve ⟨target.name, target.object, r.cardinality, r.sourceColumns, r.targetColumns⟩ row
  | _, _ => []

/-- The elements of a list; nothing else has elements. -/
def Json.elements : Option Json → List Json
  | some (.list items) => items
  | _ => []

/-- Every relationship of the catalog leads to an entity of the catalog. -/
def Catalog.TargetsExist (catalog : Catalog) : Prop :=
  ∀ e ∈ catalog.entities, ∀ r ∈ e.relationships, (catalog.entity? r.target).isSome

namespace Filter

/-- The column behind a member; inside a type that the catalog does
not know it is its name. -/
def columnOf (entity : Option Entity) (field : String) : String :=
  match entity with
  | some e => e.column field
  | none => field

/-- The relationship that a member carries. -/
def relationshipOf (entity : Option Entity) (field : String) : Option Relationship :=
  entity.bind (·.relationship? field)

/-- What a member holds in a document. -/
def memberOf (entity : Option Entity) (field : String) (document : Option Json) : Option Json :=
  document.bind (·.get? (columnOf entity field))

mutual

/-- What a filter whose members belong to `entity` says of a document, which may be missing.
It says nothing when it compares with null. -/
def meaning (catalog : Catalog) (resolve : Resolver) (entity : Option Entity)
    (document : Option Json) : Filter → Option Truth
  | .scalar field op operand =>
    if operand.isNull then none else some (op.truth (memberOf entity field document) operand)
  | .object field children =>
    match relationshipOf entity field with
    | some r =>
      some (some ((catalog.relatedRows resolve r document).any fun row =>
        Truth.conjunction
          (meanings catalog resolve (nested catalog entity field) (some row) children)
          == some true))
    | none =>
      some (Truth.conjunction (meanings catalog resolve (nested catalog entity field)
        (memberOf entity field document) children))
  | .element field children =>
    let rows := match relationshipOf entity field with
      | some r => catalog.relatedRows resolve r document
      | none => Json.elements (memberOf entity field document)
    some (some (rows.any fun row =>
      Truth.conjunction (meanings catalog resolve (nested catalog entity field) (some row) children)
        == some true))
  | .group fields allOf anyOf =>
    some (Truth.conjunction (meanings catalog resolve entity document fields ++
      ((listMeanings catalog resolve entity document allOf).map Truth.conjunction).toList ++
      ((listMeanings catalog resolve entity document anyOf).map Truth.any).toList))
termination_by structural x => x

/-- What several filters say, apart from those that say nothing. -/
def meanings (catalog : Catalog) (resolve : Resolver) (entity : Option Entity)
    (document : Option Json) : List Filter → List Truth
  | [] => []
  | x :: rest =>
    (meaning catalog resolve entity document x).toList ++
      meanings catalog resolve entity document rest
termination_by structural xs => xs

/-- What the filters of a list say, if there is a list. -/
def listMeanings (catalog : Catalog) (resolve : Resolver) (entity : Option Entity)
    (document : Option Json) : Option (List Filter) → Option (List Truth)
  | none => none
  | some xs => some (meanings catalog resolve entity document xs)
termination_by structural xs => xs

end

mutual

/-- Whether relationships are followed only from rows, and none from inside a nested document;
`nestedIn` says whether the members stand in one. -/
def relatesRows (catalog : Catalog) (entity : Option Entity) (nestedIn : Bool) : Filter → Bool
  | .scalar _ _ _ => true
  | .object field children =>
    match relationshipOf entity field with
    | some _ => !nestedIn && relatesRowsAll catalog (nested catalog entity field) false children
    | none => relatesRowsAll catalog (nested catalog entity field) true children
  | .element field children =>
    !((relationshipOf entity field).isSome && nestedIn) &&
      relatesRowsAll catalog (nested catalog entity field) false children
  | .group fields allOf anyOf =>
    relatesRowsAll catalog entity nestedIn fields &&
      relatesRowsList catalog entity nestedIn allOf && relatesRowsList catalog entity nestedIn anyOf
termination_by structural x => x

def relatesRowsAll (catalog : Catalog) (entity : Option Entity) (nestedIn : Bool) :
    List Filter → Bool
  | [] => true
  | x :: rest =>
    relatesRows catalog entity nestedIn x && relatesRowsAll catalog entity nestedIn rest
termination_by structural xs => xs

/-- Whether the filters of a list that may be absent follow relationships only from rows. -/
def relatesRowsList (catalog : Catalog) (entity : Option Entity) (nestedIn : Bool) :
    Option (List Filter) → Bool
  | none => true
  | some xs => relatesRowsAll catalog entity nestedIn xs
termination_by structural xs => xs

end

end Filter

end RoleQuery
