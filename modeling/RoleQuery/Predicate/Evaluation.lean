import RoleQuery.Predicate.Basic

/-!
# What predicates mean

A predicate is true, false or unknown of a document. A comparison with a missing or null value
is unknown, and so is one of values that do not compare; a document satisfies a predicate only
if the predicate is true of it. A traversal is true or false: some row it reaches satisfies
the inner predicate, or none does.
-/
namespace RoleQuery

/-- True, false, or unknown as `none`. -/
abbrev Truth := Option Bool

namespace Truth

/-- False if one is false, else unknown if one is unknown, else true. -/
def all : List Truth → Truth
  | [] => some true
  | some true :: rest => all rest
  | some false :: _ => some false
  | none :: rest =>
    match all rest with
    | some false => some false
    | _ => none

/-- True if one is true, else unknown if one is unknown, else false. -/
def any : List Truth → Truth
  | [] => some false
  | some false :: rest => any rest
  | some true :: _ => some true
  | none :: rest =>
    match any rest with
    | some true => some true
    | _ => none

/-- The opposite; unknown stays unknown. -/
def not (t : Truth) : Truth := t.map (!·)

theorem all_eq_true_iff {ts : List Truth} : all ts = some true ↔ ∀ t ∈ ts, t = some true := by
  induction ts with
  | nil => simp [all]
  | cons t rest ih =>
    match t with
    | some true => simp [all, ih]
    | some false => simp [all]
    | none =>
      simp only [all, List.mem_cons, forall_eq_or_imp, reduceCtorEq, false_and, iff_false]
      split <;> simp

theorem all_eq_false_iff {ts : List Truth} : all ts = some false ↔ some false ∈ ts := by
  induction ts with
  | nil => simp [all]
  | cons t rest ih =>
    match t with
    | some true => simp [all, ih]
    | some false => simp [all]
    | none =>
      simp only [all, List.mem_cons, reduceCtorEq, false_or, ← ih]
      split <;> simp_all

theorem any_eq_true_iff {ts : List Truth} : any ts = some true ↔ some true ∈ ts := by
  induction ts with
  | nil => simp [any]
  | cons t rest ih =>
    match t with
    | some false => simp [any, ih]
    | some true => simp [any]
    | none =>
      simp only [any, List.mem_cons, reduceCtorEq, false_or, ← ih]
      split <;> simp_all

end Truth

/-- The rows related to a row through a link. -/
abbrev Resolver := Link → Json → List Json

/-- The resolver of documents that stand alone. -/
def noRelations : Resolver := fun _ _ => []

/-- Rows bound to aliases, innermost first. -/
abbrev Bindings := List (Alias × Json)

def Scope.row? (root : Json) (bindings : Bindings) : Scope → Option Json
  | .root => some root
  | .bound a => bindings.lookup a

/-- Whether characters occur in others, one after another. -/
def occursIn (part : List Char) : List Char → Bool
  | [] => part.isEmpty
  | c :: rest => part.isPrefixOf (c :: rest) || occursIn part rest

/-- Compare two scalars, neither of them null. -/
def Comparison.compare? (c : Comparison) (actual operand : Value) : Truth :=
  match c with
  | .contains => do return occursIn (← operand.text?).toList (← actual.text?).toList
  | .startsWith => do
    return (← operand.text?).toList.isPrefixOf (← actual.text?).toList
  | .endsWith => do
    return (← operand.text?).toList.isSuffixOf (← actual.text?).toList
  | .isNull => some false
  | .eq => (actual.compare? operand).map (· == .eq)
  | .neq => (actual.compare? operand).map (· != .eq)
  | .gt => (actual.compare? operand).map (· == .gt)
  | .gte => (actual.compare? operand).map (· != .lt)
  | .lt => (actual.compare? operand).map (· == .lt)
  | .lte => (actual.compare? operand).map (· != .gt)

/-- Compare what was found in a row with an operand. -/
def Comparison.test (c : Comparison) (found : Option Json) (operand : Option Value) : Truth :=
  if c = .isNull then
    match found with
    | none => some true
    | some j => some j.isNull
  else
    match found.bind Value.ofJson?, operand with
    | some actual, some operand =>
      if actual.isNull || operand.isNull then none else c.compare? actual operand
    | _, _ => none

/-- The rows that a traversal reaches from a row of its parent scope. -/
def Traversal.rows (resolve : Resolver) (via : Traversal) (parent : Json) : List Json :=
  match via.link with
  | some link => resolve link parent
  | none =>
    match parent.at? via.path with
    | some (.list items) => items
    | _ => []

namespace Predicate

mutual

/-- The truth of a predicate of a document, under the rows bound so far. -/
def eval (resolve : Resolver) (root : Json) (bindings : Bindings) : Predicate → Truth
  | .const b => some b
  | .leaf path comparison operand =>
    comparison.test ((path.scope.row? root bindings).bind (·.at? path.segments)) operand
  | .and terms => Truth.all (evalAll resolve root bindings terms)
  | .or terms => Truth.any (evalAll resolve root bindings terms)
  | .not inner => Truth.not (eval resolve root bindings inner)
  | .traverse _ via inner =>
    match via.parent.row? root bindings with
    | none => some false
    | some parent =>
      some ((via.rows resolve parent).any fun row =>
        eval resolve root ((via.binder, row) :: bindings) inner == some true)
termination_by structural p => p

def evalAll (resolve : Resolver) (root : Json) (bindings : Bindings) : List Predicate → List Truth
  | [] => []
  | p :: rest => eval resolve root bindings p :: evalAll resolve root bindings rest
termination_by structural ps => ps

end

/-- Whether a document satisfies a predicate. -/
def holds (resolve : Resolver) (p : Predicate) (document : Json) : Bool :=
  p.eval resolve document [] == some true

end Predicate

end RoleQuery
