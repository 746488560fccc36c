import RoleQuery.Proofs.Sql.Fetch
import RoleQuery.Proofs.Statement.Conditions
import RoleQuery.Sql.Write

/-!
# Statements without empty lists

SQL has no empty lists: something is selected and ordered by, a join and a sub-query relate
some columns, a document has members, and parentheses hold terms. The lists of a statement
are filled from different places. The terms of a condition and the pairs of a link are
those of a complete predicate; the terms of a position are made of its keys; the members of
a document are the fields selected below a relationship; and the key of a write is that of
its entity. Only the columns that a write names are as many as the request gives values,
and nothing asks for one.
-/
namespace RoleQuery

namespace Sql

/-- A comparison of rows has columns, and each has a value. -/
def Atom.Filled : Atom → Prop
  | .compareRow columns _ operands => columns ≠ [] ∧ operands.length = columns.length
  | _ => True

/-- A join or a sub-query relates some columns. -/
def Related.Filled (r : Related) : Prop := r.on ≠ []

mutual

/-- A condition whose parentheses hold terms, and whose sub-queries relate some columns. -/
def Condition.Filled : Condition → Prop
  | .const _ => True
  | .atom a => a.Filled
  | .chain _ terms => terms ≠ [] ∧ Condition.FilledAll terms
  | .not inner | .notParen inner => Condition.Filled inner
  | .subquery head inner => head.Filled ∧ Condition.Filled inner
termination_by structural c => c

def Condition.FilledAll : List Condition → Prop
  | [] => True
  | c :: rest => Condition.Filled c ∧ Condition.FilledAll rest
termination_by structural cs => cs

end

theorem Condition.filledAll_iff {cs : List Condition} :
    Condition.FilledAll cs ↔ ∀ c ∈ cs, Condition.Filled c := by
  induction cs with
  | nil => simp [Condition.FilledAll]
  | cons c rest ih => rw [Condition.FilledAll, ih, List.forall_mem_cons]

/-! ## Conditions of predicates -/

theorem correlation_ne_nil {source target : List String} (hsource : source ≠ [])
    (htarget : target ≠ [])
    (parent child : String) : correlation source target parent child ≠ [] := by
  match source, target, hsource, htarget with
  | _ :: _, _ :: _, _, _ => exact List.cons_ne_nil _ _

theorem filled_of_ofTraversal {via : Traversal} (hvia : via.Pairs) {r : Related}
    (h : dialect.ofTraversal via = .ok r) : r.Filled := by
  obtain ⟨link, hlink, rfl⟩ := Except.map_eq_ok_iff.1 h
  rw [requireLink] at hlink
  cases hvialink : via.link with
  | none => rw [hvialink] at hlink; cases hlink
  | some other =>
    rw [hvialink] at hlink
    cases hlink
    obtain ⟨hsource, htarget⟩ := hvia link hvialink
    exact correlation_ne_nil hsource htarget _ _

theorem filled_of_ofLeaf {path : ColumnPath} {c : Comparison} {operand : Option Value} {a : Atom}
    (h : dialect.ofLeaf path c operand = .ok a) : a.Filled := by
  change ofLeaf path c operand = .ok a at h
  rw [ofLeaf] at h
  rcases hpath : path.segments with _ | ⟨name, _ | ⟨inner, rest⟩⟩
  · rw [hpath] at h
    cases h
  · rw [hpath] at h
    cases c <;> cases h <;> trivial
  · rw [hpath] at h
    cases h

mutual

/-- The condition of a complete predicate is filled. -/
theorem filled_of_ofPredicate : (p : Predicate) → p.Complete → ∀ c, ofPredicate p = .ok c →
    Condition.Filled c
  | .const _, _, c, hc => by
    cases hc
    trivial
  | .leaf path cmp operand, _, c, hc => by
    obtain ⟨a, ha, rfl⟩ := Except.map_eq_ok_iff.1 hc
    exact filled_of_ofLeaf ha
  | .and terms, hp, c, hc | .or terms, hp, c, hc => by
    obtain ⟨cs, hcs, rfl⟩ := Except.map_eq_ok_iff.1 hc
    obtain ⟨hlength, hall⟩ := filledAll_of_ofPredicates terms hp.2 cs hcs
    exact ⟨fun hnil => hp.1 (List.length_eq_zero_iff.1 (hlength.symm.trans (by rw [hnil]; rfl))),
      hall⟩
  | .not inner, hp, c, hc => by
    obtain ⟨negated, hnegated, rfl⟩ := Except.map_eq_ok_iff.1 hc
    have hfilled := filled_of_ofPredicate inner hp negated hnegated
    split <;> exact hfilled
  | .traverse .subquery via inner, hp, c, hc => by
    obtain ⟨head, hhead, hc⟩ := Except.bind_eq_ok_iff.1 hc
    obtain ⟨c, hinner, hc⟩ := Except.bind_eq_ok_iff.1 hc
    cases hc
    exact ⟨filled_of_ofTraversal hp.1 hhead, filled_of_ofPredicate inner hp.2 c hinner⟩
  | .traverse .join via inner, hp, c, hc => filled_of_ofPredicate inner hp.2 c hc
termination_by structural p => p

theorem filledAll_of_ofPredicates : (ps : List Predicate) → Predicate.CompleteAll ps →
    ∀ cs, RoleQuery.Condition.ofPredicates dialect ps = .ok cs →
      cs.length = ps.length ∧ Condition.FilledAll cs
  | [], _, cs, hcs => by
    cases hcs
    exact ⟨rfl, trivial⟩
  | p :: rest, hps, cs, hcs => by
    obtain ⟨c, hc, hcs⟩ := Except.bind_eq_ok_iff.1 hcs
    obtain ⟨others, hothers, hcs⟩ := Except.bind_eq_ok_iff.1 hcs
    cases hcs
    obtain ⟨hlength, hall⟩ := filledAll_of_ofPredicates rest hps.2 others hothers
    exact ⟨congrArg (· + 1) hlength, filled_of_ofPredicate p hps.1 c hc, hall⟩
termination_by structural ps => ps

end

mutual

/-- The joins of a complete predicate pair columns. -/
theorem pairs_of_mem_joins : (p : Predicate) → p.Complete → ∀ via ∈ p.joins, via.Pairs
  | .const _, _, _, h | .leaf _ _ _, _, _, h | .traverse .subquery _ _, _, _, h => nomatch h
  | .and terms, hp, via, h | .or terms, hp, via, h => pairs_of_mem_joinsAll terms hp.2 via h
  | .not inner, hp, via, h => pairs_of_mem_joins inner hp via h
  | .traverse .join first inner, hp, via, h => by
    rcases List.mem_cons.1 h with rfl | h
    · exact hp.1
    · exact pairs_of_mem_joins inner hp.2 via h
termination_by structural p => p

theorem pairs_of_mem_joinsAll : (ps : List Predicate) → Predicate.CompleteAll ps →
    ∀ via ∈ Predicate.joinsAll ps, via.Pairs
  | [], _, _, h => nomatch h
  | p :: rest, hps, via, h => by
    rcases List.mem_append.1 h with h | h
    · exact pairs_of_mem_joins p hps.1 via h
    · exact pairs_of_mem_joinsAll rest hps.2 via h
termination_by structural ps => ps

end

/-! ## Conditions of positions -/

theorem filled_afterKey (column : Column) (key : OrderKey) (value : Value) :
    Condition.Filled (afterKey column key value) := by
  rw [afterKey]
  split
  · trivial
  · split
    · exact ⟨List.cons_ne_nil _ _, trivial, trivial, trivial⟩
    · trivial

theorem filled_atKey (column : Column) (value : Value) : Condition.Filled (atKey column value) := by
  rw [atKey]
  split <;> trivial

theorem filled_allTerms {cs : List Condition} (hne : cs ≠ []) (h : ∀ c ∈ cs, Condition.Filled c) :
    Condition.Filled (allTerms cs) := by
  match cs, hne, h with
  | [c], _, h => exact h c List.mem_cons_self
  | c :: d :: rest, hne, h => exact ⟨hne, Condition.filledAll_iff.2 h⟩

theorem filled_alternatives {level : List Condition} (hlevel : ∀ c ∈ level, Condition.Filled c)
    (keys : List OrderKey) (values : List Value) :
    ∀ c ∈ alternatives level keys values, Condition.Filled c := by
  induction keys generalizing level values with
  | nil => exact fun c hc => nomatch hc
  | cons key keys ih =>
    have hlonger : ∀ c ∈ level ++ [atKey (keyColumn key) (values.headD .null)],
        Condition.Filled c :=
      List.forall_mem_append.2 ⟨hlevel, List.forall_mem_singleton.2 (filled_atKey _ _)⟩
    have hrest := ih hlonger values.tail
    rw [alternatives]
    split
    · exact hrest
    · refine List.forall_mem_cons.2 ⟨filled_allTerms (by simp) ?_, hrest⟩
      exact List.forall_mem_append.2 ⟨hlevel, List.forall_mem_singleton.2 (filled_afterKey _ _ _)⟩

/-- The condition of a position is filled if the position has a value
for each of some keys. -/
theorem filled_keysetAfter {p : Pagination} {values : List Value} (hne : p.order ≠ [])
    (hvalues : values.length = p.order.length) : Condition.Filled (keysetAfter p values) := by
  rw [keysetAfter]
  cases rowDirection? p values with
  | some direction =>
    refine ⟨fun hnil => hne (List.map_eq_nil_iff.1 hnil), ?_⟩
    rw [hvalues, List.length_map]
  | none =>
    have hnone : ∀ c ∈ ([] : List Condition), Condition.Filled c := by simp
    have hall := filled_alternatives hnone p.order values
    cases halternatives : alternatives [] p.order values with
    | nil => trivial
    | cons c rest =>
      rw [halternatives] at hall
      exact ⟨List.cons_ne_nil _ _, Condition.filledAll_iff.2 hall⟩

end Sql

/-! ## Related rows -/

namespace MaskedField

mutual

/-- A field whose related rows are told apart by some columns, and shown with some fields. -/
def Stocked : MaskedField → Prop
  | .plain _ _ _ _ => True
  | .nested _ _ _ relationship _ _ fields =>
    (∀ r ∈ relationship, r.sourceColumns ≠ [] ∧ r.targetColumns ≠ []) ∧
      fields ≠ [] ∧ StockedAll fields
termination_by structural field => field

def StockedAll : List MaskedField → Prop
  | [] => True
  | field :: rest => Stocked field ∧ StockedAll rest
termination_by structural fields => fields

end

theorem stockedAll_iff {fields : List MaskedField} :
    StockedAll fields ↔ ∀ field ∈ fields, field.Stocked := by
  induction fields with
  | nil => simp [StockedAll]
  | cons field rest ih => rw [StockedAll, ih, List.forall_mem_cons]

end MaskedField

namespace Sql

open MaskedField (StockedAll)

mutual

/-- A sub-select whose documents have members, and which relates some columns. -/
def RelatedDocuments.Filled : RelatedDocuments → Prop
  | ⟨_, _, _, columns, children, on⟩ =>
    (columns ≠ [] ∨ children ≠ []) ∧ on ≠ [] ∧ ChildrenFilled children
termination_by structural r => r

/-- Every one of the sub-selects inside another is filled. -/
def ChildrenFilled : List (String × RelatedDocuments) → Prop
  | [] => True
  | (_, r) :: rest => r.Filled ∧ ChildrenFilled rest
termination_by structural rs => rs

end

/-- Something is fetched of some fields: a column, or related rows. -/
theorem shown_of_relatedChildren {parent : String} {fields : List MaskedField} (hne : fields ≠ [])
    {next last : Alias} {children : List (String × RelatedDocuments)}
    (h : relatedChildren parent fields next = .ok (children, last)) :
    FieldMask.columnsOf fields ≠ [] ∨ children ≠ [] := by
  match fields, hne, h with
  | field :: rest, _, h =>
    rw [relatedChildren] at h
    by_cases hr : field.relationship?.isSome
    · rw [if_pos hr] at h
      obtain ⟨child, between, -, h⟩ := naming_bind_eq_ok_iff.1 h
      obtain ⟨others, last, -, h⟩ := naming_bind_eq_ok_iff.1 h
      cases h
      exact .inr (List.cons_ne_nil _ _)
    · refine .inl ?_
      rw [FieldMask.columnsOf, List.filter_cons_of_pos (by simpa using hr), List.map_cons]
      exact List.cons_ne_nil _ _

mutual

/-- The sub-select of a stocked field is filled. -/
theorem filled_relatedDocuments {parent : String} (field : MaskedField) (hfield : field.Stocked)
    {next last : Alias} {r : RelatedDocuments}
    (h : relatedDocuments parent field next = .ok (r, last)) : r.Filled := by
  match field, hfield, h with
  | .plain name output column relationship, _, h => cases h
  | .nested name output column none entity object fields, _, h => cases h
  | .nested name output column (some r) entity none fields, _, h => cases h
  | .nested name output column (some r) entity (some object) fields, hfield, h =>
    obtain ⟨hpairs, hne, hall⟩ := hfield
    obtain ⟨hsource, htarget⟩ := hpairs r rfl
    rw [relatedDocuments] at h
    obtain ⟨table, between, -, h⟩ := naming_bind_eq_ok_iff.1 h
    obtain ⟨children, last, hchildren, h⟩ := naming_bind_eq_ok_iff.1 h
    cases h
    exact ⟨shown_of_relatedChildren hne hchildren, correlation_ne_nil hsource htarget _ _,
      filled_relatedChildren fields hall hchildren⟩
termination_by structural field

theorem filled_relatedChildren {parent : String} (fields : List MaskedField)
    (hfields : StockedAll fields) {next last : Alias} {children : List (String × RelatedDocuments)}
    (h : relatedChildren parent fields next = .ok (children, last)) : ChildrenFilled children := by
  match fields, hfields, h with
  | [], _, h =>
    cases h
    trivial
  | field :: rest, hfields, h =>
    rw [relatedChildren] at h
    split at h
    · obtain ⟨child, between, hchild, h⟩ := naming_bind_eq_ok_iff.1 h
      obtain ⟨others, last, hothers, h⟩ := naming_bind_eq_ok_iff.1 h
      cases h
      exact ⟨filled_relatedDocuments field hfields.1 hchild,
        filled_relatedChildren rest hfields.2 hothers⟩
    · exact filled_relatedChildren rest hfields.2 h
termination_by structural fields

end

end Sql

/-! ## Statements -/

/-- A plan whose predicate is complete, whose fields are stocked, and
whose ordering has keys. -/
structure QueryPlan.Stocked (plan : QueryPlan) : Prop where
  predicate : ∀ p ∈ plan.predicate, p.Complete
  fields : ∀ field ∈ plan.mask.fields, field.Stocked
  order : plan.pagination.order ≠ []

namespace Sql

/-- A read that selects and orders by some columns, and whose joins, sub-selects and
conditions are filled. -/
structure Select.Filled (s : Select) : Prop where
  columns : s.columns ≠ []
  related : ChildrenFilled s.related
  joins : ∀ r ∈ s.joins, r.Filled
  conditions : ∀ c ∈ s.conditions, Condition.Filled c
  order : s.order ≠ []

/-- The read of a stocked plan is filled. -/
theorem Select.filled_of_ofPlan {plan : QueryPlan} (hplan : plan.Stocked) (hsound : plan.Sound)
    {s : Select} (h : ofPlan plan = .ok s) : s.Filled := by
  obtain ⟨children, next, joins, condition, hchildren, hjoins, hcondition, rfl⟩ := ofPlan_eq_ok h
  refine ⟨?_, ?_, ?_, ?_, hplan.order⟩
  · obtain ⟨key, hkey⟩ := List.exists_mem_of_ne_nil _ hplan.order
    refine List.ne_nil_of_mem (a := key.column) ?_
    rw [QueryPlan.columns, Predicate.mem_addNew]
    exact .inr (List.mem_append_right _ (List.mem_map_of_mem hkey))
  · exact filled_relatedChildren plan.mask.fields (MaskedField.stockedAll_iff.2 hplan.fields)
      hchildren
  · intro r hr
    obtain ⟨via, hvia, hr⟩ := Except.exists_of_mem_mapM hjoins hr
    cases hp : plan.predicate with
    | none => rw [QueryPlan.joins, hp] at hvia; cases hvia
    | some p =>
      rw [QueryPlan.joins, hp] at hvia
      exact filled_of_ofTraversal (pairs_of_mem_joins p (hplan.predicate p hp) via hvia) hr
  · refine List.forall_mem_append.2 ⟨fun c hc => ?_, fun c hc => ?_⟩
    · cases hp : plan.predicate with
      | none => rw [hp] at hcondition; cases hcondition; cases hc
      | some p =>
        rw [hp] at hcondition
        obtain ⟨c', hc', rfl⟩ := Except.mapM_some_eq_ok hcondition
        obtain rfl := List.mem_singleton.1 hc
        exact filled_of_ofPredicate p (hplan.predicate p hp) c hc'
    · rw [keyset] at hc
      cases hcontinuation : plan.pagination.continuation with
      | after values =>
        rw [hcontinuation] at hc
        obtain rfl := List.mem_singleton.1 hc
        exact filled_keysetAfter hplan.order (hsound.position values hcontinuation)
      | start => rw [hcontinuation] at hc; cases hc
      | token token => rw [hcontinuation] at hc; cases hc

namespace Write

/-- The columns that a write names and their values, if it names any. -/
def values? : Write → Option (List (String × Value))
  | .insert _ values | .insertIf _ values _ _ | .update _ values _ _ => some values
  | .delete _ _ _ => none

def named : Write → List String
  | .insert _ values | .insertIf _ values _ _ => columnTexts values
  | .update _ _ _ _ | .delete _ _ _ => []

/-- What an insert gives for the columns that it names: values, or the columns of the row
that is made of them. -/
def given : Write → List (List Piece)
  | .insert _ values => values.map fun v => [.operand v.2]
  | .insertIf _ values _ _ => (columnTexts values).map fun c => [.text (rootName ++ "." ++ c)]
  | .update _ _ _ _ | .delete _ _ _ => []

theorem length_named (w : Write) : w.named.length = w.given.length := by
  cases w <;> simp [named, given, columnTexts]

/-- A write whose conditions are filled, and which has one if it looks for a row. -/
def Conditioned : Write → Prop
  | .insert _ _ => True
  | .insertIf _ _ _ condition => Condition.Filled condition
  | .update _ _ key condition | .delete _ key condition =>
    (key ≠ [] ∨ condition.isSome) ∧ ∀ c ∈ condition, Condition.Filled c

/-- A write without an empty list: besides, it names some columns where it names columns. -/
def Filled (w : Write) : Prop :=
  w.Conditioned ∧ ∀ values ∈ w.values?, values ≠ []

theorem filled_of_ofPolicy {policy : Predicate} (hpolicy : policy.Complete) {c : Condition}
    (h : ofPolicy policy = .ok c) : Condition.Filled c := by
  rw [ofPolicy] at h
  split at h
  · exact filled_of_ofPredicate policy hpolicy c h
  · cases h

theorem spec_of_restriction {plan : WritePlan} (hpolicy : ∀ p ∈ plan.policy, p.Complete)
    {condition : Option Condition} (h : restriction plan = .ok condition) :
    (plan.key ≠ [] ∨ condition.isSome) ∧ ∀ c ∈ condition, Condition.Filled c := by
  rw [restriction] at h
  obtain ⟨other, hother, h⟩ := Except.bind_eq_ok_iff.1 h
  by_cases hnone : (plan.key.isEmpty && other.isNone) = true
  · rw [if_pos hnone] at h
    cases h
  rw [if_neg hnone] at h
  obtain rfl : other = condition := Except.ok.inj h
  constructor
  · by_contra hempty
    simp only [not_or, not_not, Bool.not_eq_true, Option.isSome_eq_false_iff] at hempty
    exact hnone (by simp [hempty])
  · intro c hc
    cases hp : plan.policy with
    | none => rw [hp] at hother; cases hother; cases hc
    | some p =>
      rw [hp] at hother
      obtain ⟨c', hc', rfl⟩ := Except.mapM_some_eq_ok hother
      cases hc
      exact filled_of_ofPolicy (hpolicy p hp) hc'

/-- The conditions of a write are filled if its policy is complete, and the columns that it
names are those of the plan. -/
theorem conditioned_of_ofPlan {plan : WritePlan} (hpolicy : ∀ p ∈ plan.policy, p.Complete)
    {w : Write} (h : ofPlan plan = .ok w) :
    w.Conditioned ∧ w.values? = if plan.operation = .delete then none else some plan.values := by
  rw [ofPlan] at h
  cases hop : plan.operation with
  | create =>
    cases hp : plan.policy with
    | none => simp only [hop, hp] at h; cases h; exact ⟨trivial, rfl⟩
    | some p =>
      simp only [hop, hp] at h
      obtain ⟨c, hc, rfl⟩ := Except.map_eq_ok_iff.1 h
      exact ⟨filled_of_ofPolicy (hpolicy p hp) hc, rfl⟩
  | read => simp only [hop] at h; cases h
  | update =>
    simp only [hop] at h
    obtain ⟨c, hc, rfl⟩ := Except.map_eq_ok_iff.1 h
    exact ⟨spec_of_restriction hpolicy hc, rfl⟩
  | delete =>
    simp only [hop] at h
    obtain ⟨c, hc, rfl⟩ := Except.map_eq_ok_iff.1 h
    exact ⟨spec_of_restriction hpolicy hc, rfl⟩

end Write

end Sql

end RoleQuery
