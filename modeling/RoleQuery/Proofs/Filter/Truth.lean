import RoleQuery.Proofs.Filter.Compilation

/-!
# What compiled filters say of rows

A filter is compiled below a frame, which says in which row and how deep inside it the members
stand. Its predicate is true, false or unknown of that row as the filter is, whichever aliases
are free and however its traversals are carried out.
-/
namespace RoleQuery

namespace Frame

/-- The row that a traversal reaches is the row of its own scope,
whatever is bound around it. -/
theorem row?_row (frame : Frame) (catalog : Catalog) (field : String) (a : Alias) (root row : Json)
    (bindings : Bindings) :
    (frame.row catalog field a).scope.row? root ((a, row) :: bindings) = some row := by
  simp [Frame.row, Scope.row?]

end Frame

theorem Json.at?_append_singleton (j : Json) (path : List String) (name : String) :
    j.at? (path ++ [name]) = (j.at? path).bind (·.get? name) := by
  induction path generalizing j with
  | nil => simp [Json.at?, Option.bind_some]
  | cons first rest ih =>
    simp only [List.cons_append, Json.at?, Option.bind_assoc]
    congr 1
    funext inner
    exact ih inner

namespace Filter

/-- The rows that a member leads to from a document inside a row: those related to the row, or
the elements of a list in the document. -/
def rowsOf (catalog : Catalog) (resolve : Resolver) (entity : Option Entity) (row : Json)
    (document : Option Json) (field : String) : List Json :=
  match relationshipOf entity field with
  | some r => catalog.relatedRows resolve r (some row)
  | none => Json.elements (memberOf entity field document)

mutual

/-- What a filter says of a document inside a row. Relationships are followed from the row,
however deep inside it the document is. -/
def truthAt (catalog : Catalog) (resolve : Resolver) (entity : Option Entity) (row : Json)
    (document : Option Json) : Filter → Option Truth
  | .scalar field op operand =>
    if operand.isNull then none else some (op.truth (memberOf entity field document) operand)
  | .object field children =>
    match relationshipOf entity field with
    | some _ =>
      some (some ((rowsOf catalog resolve entity row document field).any fun child =>
        Truth.conjunction
          (truthsAt catalog resolve (nested catalog entity field) child (some child) children)
          == some true))
    | none =>
      some (Truth.conjunction (truthsAt catalog resolve (nested catalog entity field) row
        (memberOf entity field document) children))
  | .element field children =>
    some (some ((rowsOf catalog resolve entity row document field).any fun child =>
      Truth.conjunction
        (truthsAt catalog resolve (nested catalog entity field) child (some child) children)
        == some true))
  | .group fields allOf anyOf =>
    some (Truth.conjunction (truthsAt catalog resolve entity row document fields ++
      ((listTruthsAt catalog resolve entity row document allOf).map Truth.conjunction).toList ++
      ((listTruthsAt catalog resolve entity row document anyOf).map Truth.any).toList))
termination_by structural x => x

/-- What several filters say, apart from those that say nothing. -/
def truthsAt (catalog : Catalog) (resolve : Resolver) (entity : Option Entity) (row : Json)
    (document : Option Json) : List Filter → List Truth
  | [] => []
  | x :: rest =>
    (truthAt catalog resolve entity row document x).toList ++
      truthsAt catalog resolve entity row document rest
termination_by structural xs => xs

/-- What the filters of a list say, if there is a list. -/
def listTruthsAt (catalog : Catalog) (resolve : Resolver) (entity : Option Entity) (row : Json)
    (document : Option Json) : Option (List Filter) → Option (List Truth)
  | none => none
  | some xs => some (truthsAt catalog resolve entity row document xs)
termination_by structural xs => xs

end

theorem truthAt_of_traverses {entity : Option Entity} {field : String} {children : List Filter}
    {x : Filter} (h : Traverses entity field children x) (catalog : Catalog) (resolve : Resolver)
    (row : Json) (document : Option Json) :
    x.truthAt catalog resolve entity row document =
      some (some ((rowsOf catalog resolve entity row document field).any fun child =>
        Truth.conjunction
          (truthsAt catalog resolve (nested catalog entity field) child (some child) children)
          == some true)) := by
  rcases h with rfl | ⟨rfl, hr⟩
  · rw [truthAt]
  · obtain ⟨r, hr⟩ := Option.isSome_iff_exists.1 hr
    rw [truthAt, hr]

end Filter

namespace Predicate

open Compilation (Yields)

@[simp] theorem evalAll_append (resolve : Resolver) (root : Json) (bindings : Bindings)
    (ps qs : List Predicate) :
    evalAll resolve root bindings (ps ++ qs) =
      evalAll resolve root bindings ps ++ evalAll resolve root bindings qs := by
  induction ps with
  | nil => rfl
  | cons p rest ih => simp [evalAll, ih]

@[simp] theorem evalAll_toList (resolve : Resolver) (root : Json) (bindings : Bindings)
    (p : Option Predicate) :
    evalAll resolve root bindings p.toList = (p.map (eval resolve root bindings)).toList := by
  cases p <;> rfl

theorem eval_all (resolve : Resolver) (root : Json) (bindings : Bindings) (ps : List Predicate) :
    (all ps).eval resolve root bindings =
      Truth.conjunction (evalAll resolve root bindings ps) := by
  match ps with
  | [] => rfl
  | [p] => simp [all, evalAll]
  | p :: q :: rest => rfl

theorem eval_any (resolve : Resolver) (root : Json) (bindings : Bindings) (ps : List Predicate) :
    (any ps).eval resolve root bindings = Truth.any (evalAll resolve root bindings ps) := by
  match ps with
  | [] => rfl
  | [p] => simp [any, evalAll]
  | p :: q :: rest => rfl

theorem map_eval_all (resolve : Resolver) (root : Json) (bindings : Bindings)
    (list : Option (List Predicate)) :
    (list.map all).map (eval resolve root bindings) =
      (list.map (evalAll resolve root bindings)).map Truth.conjunction := by
  cases list with
  | none => rfl
  | some ps => exact congrArg some (eval_all resolve root bindings ps)

theorem map_eval_any (resolve : Resolver) (root : Json) (bindings : Bindings)
    (list : Option (List Predicate)) :
    (list.map any).map (eval resolve root bindings) =
      (list.map (evalAll resolve root bindings)).map Truth.any := by
  cases list with
  | none => rfl
  | some ps => exact congrArg some (eval_any resolve root bindings ps)

/-- A term that cannot hold is false, and makes a conjunction false. -/
theorem false_mem_evalAll {resolve : Resolver} {root : Json} {bindings : Bindings}
    {ps : List Predicate} (h : ps.any isAlwaysFalse) :
    some false ∈ evalAll resolve root bindings ps := by
  induction ps with
  | nil => simp at h
  | cons p rest ih =>
    simp only [List.any_cons, Bool.or_eq_true] at h
    rcases h with hp | hrest
    · cases p with
      | const b => cases b <;> simp_all [isAlwaysFalse, evalAll, eval]
      | _ => simp [isAlwaysFalse] at hp
    · exact List.mem_cons_of_mem _ (ih hrest)

/-- Cutting a conjunction short keeps its truth. -/
theorem eval_allTerms (resolve : Resolver) (root : Json) (bindings : Bindings)
    (ps : List Predicate) :
    (allTerms ps).eval resolve root bindings =
      Truth.conjunction (evalAll resolve root bindings ps) := by
  rw [allTerms]
  split
  · next h => rw [Truth.conjunction_eq_false (false_mem_evalAll h)]; rfl
  · exact eval_all resolve root bindings ps

/-! ## One comparison -/

/-- A comparison of two scalars says what its operator says, the negated operators apart. -/
theorem compare?_comparisonOf {op : Operator} (hnull : op ≠ .isNull) (hnot : op ≠ .notContains)
    (actual operand : Value) :
    (comparisonOf op).compare? actual operand = op.relates actual operand := by
  cases op with
  | isNull => exact absurd rfl hnull
  | notContains => exact absurd rfl hnot
  | contains =>
    cases actual <;> cases operand <;> try rfl
    exact congrArg some (occursIn_eq_decide _ _)
  | startsWith =>
    cases actual <;> cases operand <;> try rfl
    exact congrArg some (Bool.eq_iff_iff.2 (by simp))
  | endsWith =>
    cases actual <;> cases operand <;> try rfl
    exact congrArg some (Bool.eq_iff_iff.2 (by simp))
  | _ => rfl

/-- Contrary to its opposite, a comparison is unknown of what is
missing, null or no scalar. -/
theorem test_comparisonOf {op : Operator} (hnull : op ≠ .isNull) (hnot : op ≠ .notContains)
    (found : Option Json) {operand : Value} (hoperand : operand.isNull = false) :
    (comparisonOf op).test found (some operand) = op.truth found operand := by
  have hc : comparisonOf op ≠ .isNull := by cases op <;> simp_all [comparisonOf]
  simp only [Comparison.test, if_neg hc, Operator.truth, if_neg hnull]
  cases found.bind Value.ofJson? with
  | none => rfl
  | some actual =>
    cases actual with
    | null => rfl
    | _ =>
      simp only [hoperand, Bool.or_false]
      exact compare?_comparisonOf hnull hnot _ operand

/-- The test for null is never unknown. -/
theorem test_isNull (found : Option Json) :
    Comparison.isNull.test found none = some (found.getD .null).isNull := by
  cases found <;> rfl

/-- The predicate of a comparison is none if it compares with null, and otherwise says of the
rows of its scope what the operator says. -/
theorem eval_ofScalar {frame : Frame} {field : String} {op : Operator} {operand : Value}
    {p : Option Predicate} (h : ofScalar frame field op operand = .ok p) {resolve : Resolver}
    {root row : Json} {bindings : Bindings} (hrow : frame.scope.row? root bindings = some row) :
    p.map (eval resolve root bindings) =
      if operand.isNull then none
      else some (op.truth (Filter.memberOf frame.entity field (row.at? frame.path)) operand) := by
  have hfound : (frame.scope.row? root bindings).bind
      (·.at? (frame.path ++ [frame.column field])) =
        Filter.memberOf frame.entity field (row.at? frame.path) := by
    rw [hrow, Option.bind_some, Json.at?_append_singleton]
    rfl
  rw [ofScalar] at h
  by_cases hnull : operand.isNull
  · rw [if_pos hnull] at h ⊢
    cases h
    rfl
  · rw [if_neg hnull] at h ⊢
    have hoperand : operand.isNull = false := by simpa using hnull
    cases hcheck : op.check operand with
    | error fault => rw [hcheck] at h; cases h
    | ok _ =>
      rw [hcheck] at h
      by_cases hisNull : op = .isNull
      · subst hisNull
        cases h
        rw [Option.map_some, Operator.truth, if_pos rfl]
        by_cases hb : operand.boolean? = some true
        · rw [if_pos hb, if_pos (Value.boolean?_eq_some.1 hb), eval, hfound, test_isNull]
        · rw [if_neg hb, if_neg (mt Value.boolean?_eq_some.2 hb), eval, eval, hfound, test_isNull]
      · by_cases hnot : op = .notContains
        · subst hnot
          cases h
          have hother : Operator.contains ≠ .isNull ∧ Operator.contains ≠ .notContains := by decide
          have hcontains := test_comparisonOf hother.1 hother.2
            (Filter.memberOf frame.entity field (row.at? frame.path)) hoperand
          rw [comparisonOf] at hcontains
          rw [Option.map_some, eval, eval, hfound, hcontains, Operator.truth_notContains]
        · have hp : p = some (.leaf ⟨frame.scope, frame.path ++ [frame.column field]⟩
              (comparisonOf op) (some operand)) := by
            cases op <;> first | contradiction | (cases h; rfl)
          rw [hp, Option.map_some, eval, hfound, test_comparisonOf hisNull hnot _ hoperand]

/-! ## Filters -/

/-- The link of a relationship leads to the rows that are related to a row. -/
theorem relatedRows_eq_of_linkOf {catalog : Catalog} {r : Relationship} {link : Link}
    (h : linkOf catalog r = .ok link) (resolve : Resolver) (row : Json) :
    catalog.relatedRows resolve r (some row) = resolve link row := by
  rw [linkOf] at h
  cases htarget : catalog.entity? r.target with
  | none => rw [htarget] at h; cases h
  | some target =>
    rw [htarget] at h
    cases h
    simp only [Catalog.relatedRows, htarget]

/-- The rows that a traversal reaches are those that its member leads to. -/
theorem rows_ofTraversal {catalog : Catalog} {frame : Frame} {field : String} {link : Option Link}
    (hlink : (Filter.relationshipOf frame.entity field).mapM (linkOf catalog) = .ok link)
    (a : Alias) (resolve : Resolver) (row : Json) :
    Traversal.rows resolve
      { binder := a
        parent := frame.scope
        path := frame.path ++ [if link.isSome then field else frame.column field]
        link := link } row =
      Filter.rowsOf catalog resolve frame.entity row (row.at? frame.path) field := by
  rw [Filter.rowsOf]
  cases hr : Filter.relationshipOf frame.entity field with
  | none =>
    rw [hr] at hlink
    cases hlink
    simp only [Traversal.rows, Option.isSome_none, Bool.false_eq_true, ↓reduceIte,
      Json.at?_append_singleton]
    rfl
  | some r =>
    rw [hr] at hlink
    obtain ⟨found, hfound, rfl⟩ := Except.mapM_some_eq_ok hlink
    exact (relatedRows_eq_of_linkOf hfound resolve row).symm

/-- A traversal is true of a row if what it asks is true of one of the rows it leads to. -/
theorem eval_ofTraversal {catalog : Catalog} {frame : Frame} {field : String} {link : Option Link}
    (hlink : (Filter.relationshipOf frame.entity field).mapM (linkOf catalog) = .ok link)
    (navigations : List String) (a : Alias) (inner : Predicate) {resolve : Resolver}
    {root row : Json} {bindings : Bindings} (hrow : frame.scope.row? root bindings = some row) :
    (ofTraversal frame navigations field a link inner).eval resolve root bindings =
      some ((Filter.rowsOf catalog resolve frame.entity row (row.at? frame.path) field).any
        fun child => inner.eval resolve root ((a, child) :: bindings) == some true) := by
  rw [ofTraversal, eval, hrow, ← rows_ofTraversal hlink a]

/-- The predicate of a part of a filter says of the rows of its scope what the part says. -/
def Tells (catalog : Catalog) (frame : Frame) (x : Filter) (p : Option Predicate) : Prop :=
  ∀ resolve root bindings row, frame.scope.row? root bindings = some row →
    p.map (eval resolve root bindings) =
      x.truthAt catalog resolve frame.entity row (row.at? frame.path)

/-- The predicates of several parts say what those of them say that ask something. -/
def TellsAll (catalog : Catalog) (frame : Frame) (xs : List Filter) (ps : List Predicate) : Prop :=
  ∀ resolve root bindings row, frame.scope.row? root bindings = some row →
    evalAll resolve root bindings ps =
      Filter.truthsAt catalog resolve frame.entity row (row.at? frame.path) xs

theorem tells_listed {catalog : Catalog} {frame : Frame} {list : Option (List Filter)}
    {ps : Option (List Predicate)} {as : List Alias}
    (h : Listed (fun frame xs ps _ => TellsAll catalog frame xs ps) frame list ps as)
    {resolve : Resolver} {root row : Json} {bindings : Bindings}
    (hrow : frame.scope.row? root bindings = some row) :
    ps.map (evalAll resolve root bindings) =
      Filter.listTruthsAt catalog resolve frame.entity row (row.at? frame.path) list := by
  rcases h.cases with ⟨rfl, rfl, -⟩ | ⟨xs, qs, rfl, rfl, hqs⟩
  · rfl
  · rw [Option.map_some, hqs resolve root bindings row hrow, Filter.listTruthsAt]

/-- Compilation keeps what the parts of a filter say. -/
theorem composes_tells (catalog : Catalog) (navigations : List String) :
    Composes catalog navigations (fun frame x p _ => Tells catalog frame x p)
      (fun frame xs ps _ => TellsAll catalog frame xs ps) where
  scalar hp resolve root bindings row hrow := by rw [eval_ofScalar hp hrow, Filter.truthAt]
  traversal {frame field children x a link terms as} hx hlink hterms := by
    intro resolve root bindings row hrow
    rw [Option.map_some, eval_ofTraversal hlink navigations a _ hrow,
      Filter.truthAt_of_traverses hx]
    simp only [eval_allTerms]
    congr 3
    funext child
    rw [hterms resolve root ((a, child) :: bindings) child (frame.row?_row _ _ _ _ _ _)]
    rfl
  document {frame field children terms as} hr hterms := by
    intro resolve root bindings row hrow
    rw [Option.map_some, eval_allTerms, hterms resolve root bindings row hrow, Filter.truthAt, hr]
    simp only [Frame.document, Json.at?_append_singleton]
    rfl
  group {frame fields allOf anyOf ps qs rs as bs cs} hps hqs hrs := by
    intro resolve root bindings row hrow
    have hrs : rs.map (evalAll resolve root bindings) =
        Filter.listTruthsAt catalog resolve frame.entity row (row.at? frame.path) anyOf :=
      tells_listed hrs hrow
    rw [Option.map_some, eval_allTerms, evalAll_append, evalAll_append, evalAll_toList,
      evalAll_toList, map_eval_all, map_eval_any, hps resolve root bindings row hrow,
      tells_listed hqs hrow, hrs, Filter.truthAt]
  nil _ _ _ _ _ := rfl
  cons hp hps := by
    intro resolve root bindings row hrow
    rw [evalAll_append, evalAll_toList, hp resolve root bindings row hrow,
      hps resolve root bindings row hrow, Filter.truthsAt]

/-- Whichever aliases are free, a filter on an entity fails to compile with the fault that it
has, and otherwise its predicate is true, false or unknown of a document as the filter is; a
filter that asks nothing cannot hold. -/
theorem yields_compile (catalog : Catalog) (e : Entity) (allowJoins : Bool) (f : Filter) :
    Yields (compile catalog e allowJoins f) (f.expressible catalog (some e))
      (f.traversals catalog (some e)) fun p _ => ∀ resolve document, p.eval resolve document [] =
        (f.truthAt catalog resolve (some e) document (some document)).getD (some false) := by
  apply ((composes_tells catalog _).yields_compile e allowJoins).mono
  rintro _ _ ⟨q, rfl, hq⟩ resolve document
  have heval : q.map (eval resolve document []) =
      f.truthAt catalog resolve (some e) document (some document) :=
    hq resolve document [] document rfl
  rw [← heval]
  cases q <;> rfl

end Predicate

end RoleQuery
