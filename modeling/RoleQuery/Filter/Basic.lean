import RoleQuery.Filter.Operator

/-!
# Filters

A filter is a tree of comparisons. Members of a nested document, of the elements of a list or
of related items stand below the field that leads to them, and groups combine members that
must all hold with lists of alternatives.
-/
namespace RoleQuery

/-- A filter. -/
inductive Filter where
  /-- Compare a field with an operand. A null operand stands for no comparison at all. -/
  | scalar (field : String) (op : Operator) (operand : Value)
  /-- The nested document, or the one related item, satisfies the children. -/
  | object (field : String) (children : List Filter)
  /-- Some element of the list, or some related item, satisfies the children. -/
  | element (field : String) (children : List Filter)
  /-- The members all hold, all of the first list hold and some of the second list holds. A
  list that is absent asks nothing; one that is empty cannot hold. -/
  | group (fields : List Filter) (allOf anyOf : Option (List Filter))
  deriving Repr, Inhabited

namespace Filter

/-- All of several filters; a single one is itself. -/
def conjunction : List Filter → Filter
  | [f] => f
  | fs => .group [] (some fs) none

/-- Compare a field with null, which asks nothing. -/
def isNullScalar : Filter → Bool
  | .scalar _ _ operand => operand.isNull
  | _ => false

def field? : Filter → Option String
  | .scalar field _ _ | .object field _ | .element field _ => some field
  | .group _ _ _ => none

mutual

/-- Replace every operand, keeping the shape; the first failure counts. -/
def mapOperands {ε : Type} (f : Value → Except ε Value) : Filter → Except ε Filter
  | .scalar field op operand => (f operand).map (.scalar field op)
  | .object field children => (mapOperandsAll f children).map (.object field)
  | .element field children => (mapOperandsAll f children).map (.element field)
  | .group fields allOf anyOf => do
    let fields ← mapOperandsAll f fields
    let allOf ← mapOperandsList f allOf
    let anyOf ← mapOperandsList f anyOf
    return .group fields allOf anyOf
termination_by structural x => x

def mapOperandsAll {ε : Type} (f : Value → Except ε Value) : List Filter → Except ε (List Filter)
  | [] => .ok []
  | x :: rest => do
    let x ← mapOperands f x
    let rest ← mapOperandsAll f rest
    return x :: rest
termination_by structural xs => xs

def mapOperandsList {ε : Type} (f : Value → Except ε Value) :
    Option (List Filter) → Except ε (Option (List Filter))
  | none => .ok none
  | some xs => (mapOperandsAll f xs).map some
termination_by structural xs => xs

end

mutual

/-- Every node, parents before children. -/
def walk : Filter → List Filter
  | .scalar field op operand => [.scalar field op operand]
  | .object field children => .object field children :: walkAll children
  | .element field children => .element field children :: walkAll children
  | .group fields allOf anyOf =>
    .group fields allOf anyOf :: (walkAll fields ++ walkList allOf ++ walkList anyOf)
termination_by structural x => x

def walkAll : List Filter → List Filter
  | [] => []
  | x :: rest => walk x ++ walkAll rest
termination_by structural xs => xs

def walkList : Option (List Filter) → List Filter
  | none => []
  | some xs => walkAll xs
termination_by structural xs => xs

end

/-- A path one field longer; the empty path is the root. -/
def extendPath (path field : String) : String :=
  if path.isEmpty then field else path ++ "." ++ field

mutual

/-- The paths navigated by a filter that stands at a path, each as often as it is. -/
def navigations (path : String) : Filter → List String
  | .scalar _ _ _ => []
  | .object field children | .element field children =>
    extendPath path field :: navigationsAll (extendPath path field) children
  | .group fields allOf anyOf =>
    navigationsAll path fields ++ navigationsList path allOf ++ navigationsList path anyOf
termination_by structural x => x

def navigationsAll (path : String) : List Filter → List String
  | [] => []
  | x :: rest => navigations path x ++ navigationsAll path rest
termination_by structural xs => xs

def navigationsList (path : String) : Option (List Filter) → List String
  | none => []
  | some xs => navigationsAll path xs
termination_by structural xs => xs

end

end Filter

end RoleQuery
