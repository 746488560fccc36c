import RoleQuery.Proofs.Catalog.Examples
import RoleQuery.Proofs.Predicate.Parts
import RoleQuery.Proofs.Sql.Fetch

/-!
# The tables of a statement

A read takes the aliases of its sub-selects where the compilation of its filter left the
counter. So the tables of a statement, those of the traversals and those of the sub-selects,
are one run of numbers that starts after the root, and no two of them have one name as long as
the counter has not come round.
-/
namespace RoleQuery

namespace Compilation

theorem length_allotted (next : Alias) (n : Nat) : (allotted next n).length = n := by
  rw [allotted, List.length_map, List.length_range]

/-- The aliases that are taken before the counter comes round lie between its values. -/
theorem toNat_of_mem_allotted {next a : Alias} {n : Nat} (hcount : next.toNat + n ≤ UInt32.size)
    (ha : a ∈ allotted next n) : next.toNat ≤ a.toNat ∧ a.toNat < next.toNat + n := by
  obtain ⟨i, hi, rfl⟩ := List.mem_map.1 ha
  rw [List.mem_range] at hi
  have hlt : next.toNat + i < UInt32.size := by omega
  have hvalue : (next + UInt32.ofNat i).toNat = next.toNat + i := by
    rw [UInt32.toNat_add, UInt32.toNat_ofNat_of_lt' (by omega), Nat.mod_eq_of_lt hlt]
  omega

end Compilation

theorem firstAlias_pos (start : Alias) : 0 < (firstAlias start).toNat := by
  rw [firstAlias]
  split_ifs with h
  · decide
  · rw [Nat.pos_iff_ne_zero, ne_eq, ← UInt32.toNat_zero, UInt32.toNat_inj]
    exact h

theorem firstAlias_of_pos {start : Alias} (h : 0 < start.toNat) : firstAlias start = start := by
  refine if_neg fun hzero => ?_
  rw [hzero] at h
  cases h

namespace Sql

open Compilation (allotted allotted_add allotted_one length_allotted)

mutual

/-- The tables of a sub-select and of those inside it, in the order of their aliases. -/
def RelatedDocuments.tables : RelatedDocuments → List String
  | ⟨_, _, table, _, children, _⟩ => table :: childTables children
termination_by structural r => r

/-- The tables of several sub-selects. -/
def childTables : List (String × RelatedDocuments) → List String
  | [] => []
  | (_, r) :: rest => r.tables ++ childTables rest
termination_by structural rs => rs

end

/-- The tables of the sub-selects of a read. -/
def Select.tables (s : Select) : List String := childTables s.related

/-- Tables that were named after the aliases from `next` on, up to `after`. -/
def Takes (next after : Alias) (tables : List String) : Prop :=
  tables = (allotted next tables.length).map aliasName ∧
    after = next + UInt32.ofNat tables.length

theorem takes_nil (next : Alias) : Takes next next [] :=
  ⟨rfl, (UInt32.add_zero next).symm⟩

theorem takes_one (next : Alias) : Takes next (next + 1) [aliasName next] :=
  ⟨by rw [List.length_singleton, allotted_one, List.map_singleton], rfl⟩

theorem Takes.append {next middle after : Alias} {xs ys : List String} (hxs : Takes next middle xs)
    (hys : Takes middle after ys) : Takes next after (xs ++ ys) := by
  obtain ⟨hxs, rfl⟩ := hxs
  obtain ⟨hys, rfl⟩ := hys
  refine ⟨?_, ?_⟩
  · rw [List.length_append, allotted_add, List.map_append, ← hxs, ← hys]
  · rw [List.length_append, UInt32.ofNat_add, UInt32.add_assoc]

mutual

/-- A sub-select takes its own alias before those of the sub-selects inside it. -/
theorem takes_relatedDocuments {parent : String} (field : MaskedField) {r : RelatedDocuments}
    {next after : Alias} (h : relatedDocuments parent field next = .ok (r, after)) :
    Takes next after r.tables := by
  match field, h with
  | .plain name output column relationship, h => cases h
  | .nested name output column none entity object fields, h => cases h
  | .nested name output column (some r) entity none fields, h => cases h
  | .nested name output column (some r) entity (some object) fields, h =>
    rw [relatedDocuments] at h
    obtain ⟨table, between, htable, h⟩ := naming_bind_eq_ok_iff.1 h
    obtain ⟨children, last, hchildren, h⟩ := naming_bind_eq_ok_iff.1 h
    cases h
    cases htable
    exact (takes_one next).append (takes_relatedChildren fields hchildren)
termination_by structural field

theorem takes_relatedChildren {parent : String} (fields : List MaskedField)
    {children : List (String × RelatedDocuments)} {next after : Alias}
    (h : relatedChildren parent fields next = .ok (children, after)) :
    Takes next after (childTables children) := by
  match fields, h with
  | [], h =>
    cases h
    exact takes_nil next
  | field :: rest, h =>
    rw [relatedChildren] at h
    split at h
    · obtain ⟨child, between, hchild, h⟩ := naming_bind_eq_ok_iff.1 h
      obtain ⟨others, last, hothers, h⟩ := naming_bind_eq_ok_iff.1 h
      cases h
      exact (takes_relatedDocuments field hchild).append (takes_relatedChildren rest hothers)
    · exact takes_relatedChildren rest h
termination_by structural fields

end

/-- The sub-selects of a read take one alias after another, from the next
free one of its plan on. -/
theorem tables_ofPlan {plan : QueryPlan} {s : Select} (h : Select.ofPlan plan = .ok s) :
    s.tables = (allotted (firstAlias plan.nextAlias) s.tables.length).map aliasName := by
  obtain ⟨children, next, joins, condition, hchildren, -, -, rfl⟩ := Select.ofPlan_eq_ok h
  exact (takes_relatedChildren plan.mask.fields hchildren).1

end Sql

namespace Predicate

open Compilation (allotted allotted_add nodup_allotted toNat_of_mem_allotted)

variable {catalog : Catalog} {e : Entity} {f : Filter} {start next : Alias} {p : Predicate}

/-- The root and the aliases that are taken before the counter comes round
have different names. -/
theorem nodup_aliasName_allotted {n : Nat} (hpos : 0 < next.toNat)
    (hcount : next.toNat + n ≤ UInt32.size) :
    (Sql.rootName :: (allotted next n).map Sql.aliasName).Nodup := by
  have hroot : (0 : Alias) ∉ allotted next n := by
    intro hzero
    have := toNat_of_mem_allotted hcount hzero
    simp at this
    omega
  have hnodup : ((0 : Alias) :: allotted next n).Nodup :=
    List.nodup_cons.2 ⟨hroot, nodup_allotted next (by omega)⟩
  exact hnodup.map Sql.aliasName_injective

/-- **Compiled predicates are well-formed and well-scoped.** The parts are such as the writers
of statements rely on, the aliases are distinct and lie between the values of the counter, and
the tables of the sub-selects that are named after it are distinct from each other, from those
of the aliases and from the root. -/
theorem wellScoped_ofFilter (h : ofFilter catalog e f start = (.ok p, next))
    (hcount : (firstAlias start).toNat + f.traversals catalog (some e) < UInt32.size) :
    p.WellFormed ∧ p.binders.Nodup ∧ (∀ a ∈ p.binders, firstAlias start ≤ a ∧ a < next) ∧
      ∀ plan s, plan.nextAlias = next → Sql.Select.ofPlan plan = .ok s →
        next.toNat + s.tables.length ≤ UInt32.size →
          (Sql.rootName :: (p.binders.map Sql.aliasName ++ s.tables)).Nodup := by
  have hp : (ofFilter catalog e f start).1 = .ok p := congrArg Prod.fst h
  obtain ⟨hbinders, hafter⟩ := binders_ofFilter hp
  have hnext : next = firstAlias start + UInt32.ofNat (f.traversals catalog (some e)) := by
    rwa [h] at hafter
  have htoNat : next.toNat = (firstAlias start).toNat + f.traversals catalog (some e) := by
    rw [hnext, UInt32.toNat_add, UInt32.toNat_ofNat_of_lt' (by omega), Nat.mod_eq_of_lt hcount]
  refine ⟨wellFormed_ofFilter hp, nodup_binders hp (by omega), fun a ha => ?_, ?_⟩
  · obtain ⟨hfirst, hlast⟩ := toNat_of_mem_allotted hcount.le (hbinders.subset ha)
    exact ⟨UInt32.le_iff_toNat_le.2 hfirst, UInt32.lt_iff_toNat_lt.2 (htoNat ▸ hlast)⟩
  · rintro plan s rfl hs hfits
    -- All tables are part of one run of aliases, that of the filter and then
    -- that of the sub-selects.
    have hpos := firstAlias_pos start
    have htables := Sql.tables_ofPlan hs
    rw [firstAlias_of_pos (by omega), hnext] at htables
    have hrun := nodup_aliasName_allotted hpos
      (n := f.traversals catalog (some e) + s.tables.length) (by omega)
    refine hrun.sublist (.cons_cons _ ?_)
    rw [allotted_add, List.map_append, ← htables]
    exact (hbinders.map Sql.aliasName).append_right _

open Examples

/-- Books by Ada that are old or were lent for long. -/
def oldOrLentByAda : Filter :=
  .group [.object "author" [.scalar "name" .eq (.text "Ada")]] none
    (some [.scalar "year" .lt (.integer 1900), .element "loans" [.scalar "days" .gt (.integer 5)]])

/-- The author and the loans of each of these books. -/
def oldOrLentPlan : QueryPlan where
  entity := "Book"
  object := "books"
  backend := .relational
  predicate := (ofFilter library book oldOrLentByAda 1).1.toOption
  mask := ⟨some "Book", some "books",
    [.nested "author" "author" "author" (some ⟨"author", "Author", .one, ["author_id"], ["id"]⟩)
        (some "Author") (some "authors") [.plain "name" "name" "full_name" none],
      .nested "loans" "loans" "loans" (some ⟨"loans", "Loan", .many, ["id"], ["book_id"]⟩)
        (some "Loan") (some "loans") [.plain "days" "days" "days" none]]⟩
  pagination := ⟨.relational, [⟨"id", "id", .asc, false⟩], 10, .start⟩
  nextAlias := 3

/-- The join of the author is named `t1`, the sub-query on the loans `t2`, and the sub-selects
of the answer `t3` and `t4`. -/
theorem wellScoped_ofFilter_oldOrLentByAda :
    ∃ p s, ofFilter library book oldOrLentByAda 1 = (.ok p, 3) ∧
      (firstAlias 1).toNat + oldOrLentByAda.traversals library (some book) < UInt32.size ∧
      Sql.Select.ofPlan oldOrLentPlan = .ok s ∧ p.binders = [1, 2] ∧ s.tables = ["t3", "t4"] ∧
      p.WellFormed ∧ (Sql.rootName :: (p.binders.map Sql.aliasName ++ s.tables)).Nodup := by
  have hcount : (firstAlias 1).toNat + oldOrLentByAda.traversals library (some book) <
      UInt32.size := by
    decide
  refine ⟨_, _, rfl, hcount, rfl, rfl, rfl, ?_⟩
  have hfilter : ofFilter library book oldOrLentByAda 1 = (.ok _, 3) := rfl
  obtain ⟨hwell, -, -, htables⟩ := wellScoped_ofFilter hfilter hcount
  exact ⟨hwell, htables oldOrLentPlan _ rfl rfl (by decide)⟩

end Predicate

end RoleQuery
