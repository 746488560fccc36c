import RoleQuery.Proofs.Filter.Parallel

/-!
# Predicates without names

A filter is compiled into the same predicate wherever it stands, but for the names of the rows
that are bound and for the way its traversals are carried out: these depend on the aliases
that are free and on the paths that the rest of the filter navigates. So the part of a larger
filter has the core that it has alone.
-/
namespace RoleQuery

/-- Frames in which the same members stand, at the same place in their rows. -/
structure Frame.Near (frame frame' : Frame) : Prop where
  entity : frame.entity = frame'.entity
  path : frame.path = frame'.path

namespace Frame.Near

variable {frame frame' : Frame} (h : frame.Near frame')

include h

theorem alternatives :
    Frame.Near { frame with conjunctive := false } { frame' with conjunctive := false } :=
  ⟨h.entity, h.path⟩

variable (catalog : Catalog) (field : String)

theorem relationship?_eq : frame.relationship? field = frame'.relationship? field := by
  rw [relationship?, relationship?, h.entity]

theorem column_eq : frame.column field = frame'.column field := by
  rw [column, column, h.entity]

theorem nested_eq : frame.nested catalog field = frame'.nested catalog field := by
  rw [nested, nested, h.entity]

theorem document : (frame.document catalog field).Near (frame'.document catalog field) where
  entity := h.nested_eq catalog field
  path := by rw [Frame.document, Frame.document, h.path, h.column_eq field]

theorem row (a a' : Alias) : (frame.row catalog field a).Near (frame'.row catalog field a') where
  entity := h.nested_eq catalog field
  path := rfl

end Frame.Near

namespace Predicate

mutual

/-- A predicate without the names of its rows, and with all its traversals as sub-queries. -/
def core : Predicate → Predicate
  | .const b => .const b
  | .leaf path c operand => .leaf ⟨.root, path.segments⟩ c operand
  | .and terms => .and (coreAll terms)
  | .or terms => .or (coreAll terms)
  | .not inner => .not (core inner)
  | .traverse _ via inner => .traverse .subquery ⟨0, .root, via.path, via.link⟩ (core inner)
termination_by structural p => p

def coreAll : List Predicate → List Predicate
  | [] => []
  | p :: rest => core p :: coreAll rest
termination_by structural ps => ps

end

theorem coreAll_eq_map (ps : List Predicate) : coreAll ps = ps.map core := by
  induction ps with
  | nil => rfl
  | cons p rest ih => rw [coreAll, List.map_cons, ih]

theorem termwise_core : Termwise core where
  const _ := rfl
  and ps := congrArg Predicate.and (coreAll_eq_map ps)
  or ps := congrArg Predicate.or (coreAll_eq_map ps)
  isAlwaysFalse p := by cases p <;> rfl

section

variable {navigations navigations' : List String} {catalog : Catalog}

theorem core_ofScalar {frame frame' : Frame} (h : frame.Near frame') (field : String)
    (op : Operator) (operand : Value) :
    (ofScalar frame field op operand).map (Option.map core) =
      (ofScalar frame' field op operand).map (Option.map core) := by
  rw [ofScalar, ofScalar, h.path, h.column_eq field]
  by_cases hnull : operand.isNull
  · rw [if_pos hnull, if_pos hnull]
  · rw [if_neg hnull, if_neg hnull]
    cases op.check operand with
    | error fault => rfl
    | ok _ =>
      cases op with
      | isNull => by_cases hb : operand.boolean? = some true <;> simp [hb, Except.map, core]
      | _ => rfl

theorem core_ofTraversal {frame frame' : Frame} (h : frame.Near frame') (field : String)
    (a a' : Alias)
    (link : Option Link) {inner inner' : Predicate} (hinner : inner.core = inner'.core) :
    (ofTraversal frame navigations field a link inner).core =
      (ofTraversal frame' navigations' field a' link inner').core := by
  rw [ofTraversal, ofTraversal, core, core, hinner, h.path, h.column_eq field]

/-- Compilations in frames with the same members keep the same core,
whichever aliases are free. -/
theorem parallel_core : Parallel catalog navigations navigations' (fun _ _ => True) Frame.Near
    (fun x => x) (fun _ => True) core core where
  memberwise := Filter.memberwise_id
  termwise := termwise_core
  termwise' := termwise_core
  fresh _ _ := id
  relationship? h := h.relationship?_eq _
  row h _ := h.row catalog _ _ _
  document h := h.document catalog _
  alternatives h := h.alternatives
  scalar {frame frame' field op operand} h _ := by
    rw [ofNode, ofNode]
    exact Compilation.matches_liftExcept
      (Except.agree_iff_map_eq.2 (core_ofScalar h field op operand))
  traversal h _ hinner := core_ofTraversal h _ _ _ _ hinner

/-- A part of a filter has one core in all frames with the same members. -/
theorem map_core_ofNode {frame frame' : Frame} (h : frame.Near frame') (x : Filter)
    (next next' : Alias) :
    ((ofNode catalog navigations frame x).run next).1.map (Option.map core) =
      ((ofNode catalog navigations' frame' x).run next').1.map (Option.map core) :=
  Except.agree_iff_map_eq.1 (parallel_core.ofNode h x trivial next next' trivial).2

variable {e : Entity}

/-- Two filters that must both hold are compiled one after the other. -/
theorem compile_conjunction (allowJoins : Bool) (f g : Filter) :
    compile catalog e allowJoins (.conjunction [f, g]) = do
      let p ← ofNode catalog ((Filter.conjunction [f, g]).navigations "") (rootFrame e allowJoins) f
      let q ← ofNode catalog ((Filter.conjunction [f, g]).navigations "") (rootFrame e allowJoins) g
      return allTerms [all (p.toList ++ q.toList)] := by
  have hgroup : Filter.conjunction [f, g] = .group [] (some [f, g]) none := rfl
  rw [compile_eq, hgroup, ofNode, ofList, ofList, ofNodes, ofNodes, ofNodes, ofNodes]
  simp

end

end Predicate

end RoleQuery
