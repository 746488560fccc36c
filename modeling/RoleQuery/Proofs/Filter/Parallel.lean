import RoleQuery.Proofs.Filter.Compilation
import RoleQuery.Proofs.Predicate.Terms

/-!
# Two compilations of one filter

A filter is often compiled twice: in two frames, from other aliases, with and without its
operands. If the two compilations take corresponding steps, then they fail alike or give
predicates of which the same is kept. That is proved here once for every pair of frames, every
map of the filter and whatever is kept.
-/
namespace RoleQuery

namespace Compilation

variable {α β γ δ : Type}

/-- From aliases that correspond, two compilations come to aliases that do; both fail with one
error, or their results are related. -/
def Matches (A : Alias → Alias → Prop) (R : α → β → Prop) (c : Compilation α) (c' : Compilation β) :
    Prop :=
  ∀ next next', A next next' →
    A (c.run next).2 (c'.run next').2 ∧ Except.Agree R (c.run next).1 (c'.run next').1

variable {A : Alias → Alias → Prop} {R : α → β → Prop} {S : γ → δ → Prop}

theorem matches_pure {a : α} {b : β} (h : R a b) :
    Matches A R (pure a : Compilation α) (pure b : Compilation β) :=
  fun _ _ hnext => ⟨hnext, .ok h⟩

theorem matches_liftExcept {x : Except RequestError α} {y : Except RequestError β}
    (h : Except.Agree R x y) : Matches A R (liftExcept x) (liftExcept y) := by
  intro next next' hnext
  cases h with
  | error e => exact ⟨hnext, .error e⟩
  | ok h => exact ⟨hnext, .ok h⟩

theorem matches_fresh (hA : ∀ a a', A a a' → A (a + 1) (a' + 1)) : Matches A A fresh fresh :=
  fun next next' hnext => ⟨hA next next' hnext, .ok hnext⟩

/-- What follows needs to match only after related results. -/
theorem Matches.bind {c : Compilation α} {c' : Compilation β} {k : α → Compilation γ}
    {k' : β → Compilation δ} (h : Matches A R c c') (hk : ∀ a b, R a b → Matches A S (k a) (k' b)) :
    Matches A S (c >>= k) (c' >>= k') := by
  intro next next' hnext
  obtain ⟨hafter, hresults⟩ := h next next' hnext
  rw [run_bind, run_bind]
  rcases hc : c.run next with ⟨x, n⟩
  rcases hc' : c'.run next' with ⟨y, n'⟩
  rw [hc, hc'] at hafter hresults
  cases hresults with
  | error e => exact ⟨hafter, .error e⟩
  | ok hab => exact hk _ _ hab n n' hafter

theorem Matches.bind_pure {c : Compilation α} {c' : Compilation β} {k : α → γ} {k' : β → δ}
    (h : Matches A R c c') (hk : ∀ a b, R a b → S (k a) (k' b)) :
    Matches A S (do return k (← c)) (do return k' (← c')) :=
  h.bind fun a b hab => matches_pure (hk a b hab)

end Compilation

namespace Filter

/-- A map of filters that is applied to the members, and a condition
that the members inherit. -/
structure Memberwise (g : Filter → Filter) (ok : Filter → Prop) : Prop where
  object : ∀ field children, g (.object field children) = .object field (children.map g)
  element : ∀ field children, g (.element field children) = .element field (children.map g)
  group : ∀ fields allOf anyOf, g (.group fields allOf anyOf) =
    .group (fields.map g) (allOf.map (List.map g)) (anyOf.map (List.map g))
  ofObject : ∀ {field children}, ok (.object field children) → ∀ x ∈ children, ok x
  ofElement : ∀ {field children}, ok (.element field children) → ∀ x ∈ children, ok x
  ofGroup : ∀ {fields allOf anyOf}, ok (.group fields allOf anyOf) → (∀ x ∈ fields, ok x) ∧
    (∀ xs ∈ allOf, ∀ x ∈ xs, ok x) ∧ ∀ xs ∈ anyOf, ∀ x ∈ xs, ok x

theorem memberwise_id : Memberwise (fun x => x) fun _ => True where
  object _ children := by rw [List.map_id']
  element _ children := by rw [List.map_id']
  group fields allOf anyOf := by
    cases allOf <;> cases anyOf <;> simp only [List.map_id', Option.map_none, Option.map_some]
  ofObject _ _ _ := trivial
  ofElement _ _ _ := trivial
  ofGroup _ := ⟨fun _ _ => trivial, fun _ _ _ _ => trivial, fun _ _ _ _ => trivial⟩

end Filter

namespace Predicate

open Compilation RoleQuery.Filter

/-- Two compilations that take corresponding steps: `A` relates the aliases, `near` the
frames, the first one is of the filter mapped by `g`, and of the results `kept` and
`kept'` are compared. -/
structure Parallel (catalog : Catalog) (navigations navigations' : List String)
    (A : Alias → Alias → Prop) (near : Frame → Frame → Prop) (g : Filter → Filter)
    (ok : Filter → Prop) (kept kept' : Predicate → Predicate) : Prop where
  memberwise : Memberwise g ok
  termwise : Termwise kept
  termwise' : Termwise kept'
  fresh : ∀ a a', A a a' → A (a + 1) (a' + 1)
  relationship? : ∀ {frame frame' field}, near frame frame' →
    frame.relationship? field = frame'.relationship? field
  row : ∀ {frame frame' field a a'}, near frame frame' → A a a' →
    near (frame.row catalog field a) (frame'.row catalog field a')
  document : ∀ {frame frame' field}, near frame frame' →
    near (frame.document catalog field) (frame'.document catalog field)
  alternatives : ∀ {frame frame'}, near frame frame' →
    near { frame with conjunctive := false } { frame' with conjunctive := false }
  scalar : ∀ {frame frame' field op operand}, near frame frame' → ok (.scalar field op operand) →
    Matches A (fun p p' => Option.map kept p = Option.map kept' p')
      (ofNode catalog navigations frame (g (.scalar field op operand)))
      (ofNode catalog navigations' frame' (.scalar field op operand))
  traversal : ∀ {frame frame' field a a' link p p'}, near frame frame' → A a a' →
    kept p = kept' p' →
    kept (ofTraversal frame navigations field a link p) =
      kept' (ofTraversal frame' navigations' field a' link p')

namespace Parallel

variable {catalog : Catalog} {navigations navigations' : List String} {A : Alias → Alias → Prop}
  {near : Frame → Frame → Prop} {g : Filter → Filter} {ok : Filter → Prop}
  {kept kept' : Predicate → Predicate}

section

variable (h : Parallel catalog navigations navigations' A near g ok kept kept')

include h

theorem allTerms {ps ps' : List Predicate} (hps : ps.map kept = ps'.map kept') :
    kept (Predicate.allTerms ps) = kept' (Predicate.allTerms ps') := by
  rw [h.termwise.allTerms, h.termwise'.allTerms, hps]

theorem group {ps ps' : List Predicate} {qs qs' rs rs' : Option (List Predicate)}
    (hps : ps.map kept = ps'.map kept')
    (hqs : qs.map (List.map kept) = qs'.map (List.map kept'))
    (hrs : rs.map (List.map kept) = rs'.map (List.map kept')) :
    kept (Predicate.allTerms (ps ++ (qs.map all).toList ++ (rs.map any).toList)) =
      kept' (Predicate.allTerms (ps' ++ (qs'.map all).toList ++ (rs'.map any).toList)) := by
  have hall : (qs.map all).map kept = (qs'.map all).map kept' := by
    simpa only [Option.map_map, Function.comp_def, h.termwise.all, h.termwise'.all]
      using congrArg (Option.map all) hqs
  have hany : (rs.map any).map kept = (rs'.map any).map kept' := by
    simpa only [Option.map_map, Function.comp_def, h.termwise.any, h.termwise'.any]
      using congrArg (Option.map any) hrs
  apply h.allTerms
  simp only [List.map_append, ← Option.toList_map, hps, hall, hany]

/-- What two traversals ask is compiled alike, and so are the traversals. -/
theorem ofNodes_bind {frame frame' : Frame} (hnear : near frame frame') (field : String)
    (link : Option Link) {children : List Filter}
    (hchildren : ∀ a a', A a a' → Matches A (fun ps ps' => ps.map kept = ps'.map kept')
      (ofNodes catalog navigations (frame.row catalog field a) (children.map g))
      (ofNodes catalog navigations' (frame'.row catalog field a') children)) :
    Matches A (fun p p' => Option.map kept p = Option.map kept' p')
      (do
        let a ← Compilation.fresh
        let terms ← ofNodes catalog navigations (frame.row catalog field a) (children.map g)
        return some (ofTraversal frame navigations field a link (Predicate.allTerms terms)))
      (do
        let a ← Compilation.fresh
        let terms ← ofNodes catalog navigations' (frame'.row catalog field a) children
        return some (ofTraversal frame' navigations' field a link (Predicate.allTerms terms))) := by
  refine (matches_fresh h.fresh).bind fun a a' ha => ?_
  refine (hchildren a a' ha).bind_pure fun terms terms' hterms => ?_
  exact congrArg some (h.traversal hnear ha (h.allTerms hterms))

end

mutual

/-- Of the predicates of a filter and of its image the same is kept. -/
theorem ofNode (h : Parallel catalog navigations navigations' A near g ok kept kept')
    {frame frame' : Frame} (hnear : near frame frame') : (x : Filter) → ok x →
    Matches A (fun p p' => Option.map kept p = Option.map kept' p')
      (ofNode catalog navigations frame (g x)) (ofNode catalog navigations' frame' x)
  | .scalar field op operand, hx => h.scalar hnear hx
  | .object field children, hx => by
    rw [h.memberwise.object, Predicate.ofNode, Predicate.ofNode, h.relationship? hnear]
    cases frame'.relationship? field with
    | some r =>
      refine (matches_liftExcept (Except.agree_refl (R := (· = ·)) (fun _ => rfl) _)).bind ?_
      rintro link _ rfl
      exact h.ofNodes_bind hnear field (some link) fun a a' ha =>
        h.ofNodes (h.row hnear ha) children (h.memberwise.ofObject hx)
    | none =>
      refine (h.ofNodes (h.document hnear) children (h.memberwise.ofObject hx)).bind_pure ?_
      exact fun terms terms' hterms => congrArg some (h.allTerms hterms)
  | .element field children, hx => by
    rw [h.memberwise.element, Predicate.ofNode, Predicate.ofNode, h.relationship? hnear]
    refine (matches_liftExcept (Except.agree_refl (R := (· = ·)) (fun _ => rfl) _)).bind ?_
    rintro link _ rfl
    exact h.ofNodes_bind hnear field link fun a a' ha =>
      h.ofNodes (h.row hnear ha) children (h.memberwise.ofElement hx)
  | .group fields allOf anyOf, hx => by
    obtain ⟨hfields, hall, hany⟩ := h.memberwise.ofGroup hx
    rw [h.memberwise.group, Predicate.ofNode, Predicate.ofNode]
    refine (h.ofNodes hnear fields hfields).bind fun ps ps' hps => ?_
    refine (h.ofList hnear allOf hall).bind fun qs qs' hqs => ?_
    refine (h.ofList (h.alternatives hnear) anyOf hany).bind_pure fun rs rs' hrs => ?_
    exact congrArg some (h.group hps hqs hrs)
termination_by structural x => x

/-- The same of several filters. -/
theorem ofNodes (h : Parallel catalog navigations navigations' A near g ok kept kept')
    {frame frame' : Frame} (hnear : near frame frame') : (xs : List Filter) →
    (∀ x ∈ xs, ok x) → Matches A (fun ps ps' => ps.map kept = ps'.map kept')
      (ofNodes catalog navigations frame (xs.map g)) (ofNodes catalog navigations' frame' xs)
  | [], _ => matches_pure rfl
  | x :: rest, hxs => by
    rw [List.forall_mem_cons] at hxs
    rw [List.map_cons, Predicate.ofNodes, Predicate.ofNodes]
    refine (h.ofNode hnear x hxs.1).bind fun p p' hp => ?_
    refine (h.ofNodes hnear rest hxs.2).bind_pure fun ps ps' hps => ?_
    simp only [List.map_append, ← Option.toList_map, hp, hps]
termination_by structural xs => xs

/-- The same of a list that may be absent. -/
theorem ofList (h : Parallel catalog navigations navigations' A near g ok kept kept')
    {frame frame' : Frame} (hnear : near frame frame') :
    (list : Option (List Filter)) → (∀ xs ∈ list, ∀ x ∈ xs, ok x) →
      Matches A (fun ps ps' => ps.map (List.map kept) = ps'.map (List.map kept'))
        (ofList catalog navigations frame (list.map (List.map g)))
        (ofList catalog navigations' frame' list)
  | none, _ => matches_pure rfl
  | some xs, hlist =>
    (h.ofNodes hnear xs (hlist xs rfl)).bind_pure fun _ _ hps => congrArg some hps
termination_by structural list => list

end

end Parallel

end Predicate

end RoleQuery
