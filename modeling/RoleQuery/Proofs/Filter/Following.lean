import RoleQuery.Proofs.Filter.Correctness
import RoleQuery.Proofs.Predicate.Terms
import RoleQuery.Tables.Basic
import Mathlib.Data.List.Flatten

/-!
# Where relationships are followed from

A member of a nested document is compared at a path inside the row of its scope, and the
elements of a nested list are found at such a path too. A relationship is followed from the
row of the scope itself: its traversal ranges over the rows related to that row, however
deep inside it the owner of the relationship stands. These are the rows related to the owner
if the owner is the row.
-/
namespace RoleQuery

/-! ## What is followed -/

/-- A relationship that is followed from a document inside a row. -/
structure Following where
  link : Link
  row : Json
  /-- Where the document is found in the row. -/
  path : List String

namespace Following

/-- What is related to the row. -/
def ofRow (resolve : Resolver) (o : Following) : Link × List Json := (o.link, resolve o.link o.row)

/-- What is related to the document; nothing if there is none. -/
def ofDocument (resolve : Resolver) (o : Following) : Link × List Json :=
  (o.link, ((o.row.at? o.path).map (resolve o.link)).getD [])

end Following

namespace Filter

/-- The relationship that a member follows, if it carries one. -/
def followed (catalog : Catalog) (entity : Option Entity) (row : Json) (path : List String)
    (field : String) : List Following :=
  ((relationshipOf entity field).bind fun r => (Predicate.linkOf catalog r).toOption).toList.map
    fun link => ⟨link, row, path⟩

mutual

/-- The relationships that a filter follows. Its members belong to `entity` and stand
in the document at `path` inside a row; below a traversal they stand in each of the
rows that it reaches. -/
def followings (catalog : Catalog) (resolve : Resolver) (entity : Option Entity) (row : Json)
    (path : List String) : Filter → List Following
  | .scalar _ _ _ => []
  | .object field children =>
    match relationshipOf entity field with
    | some _ =>
      followed catalog entity row path field ++
        (rowsOf catalog resolve entity row (row.at? path) field).flatMap fun child =>
          followingsAll catalog resolve (nested catalog entity field) child [] children
    | none =>
      followingsAll catalog resolve (nested catalog entity field) row
        (path ++ [columnOf entity field]) children
  | .element field children =>
    followed catalog entity row path field ++
      (rowsOf catalog resolve entity row (row.at? path) field).flatMap fun child =>
        followingsAll catalog resolve (nested catalog entity field) child [] children
  | .group fields allOf anyOf =>
    followingsAll catalog resolve entity row path fields ++
      followingsList catalog resolve entity row path allOf ++
      followingsList catalog resolve entity row path anyOf
termination_by structural x => x

def followingsAll (catalog : Catalog) (resolve : Resolver) (entity : Option Entity) (row : Json)
    (path : List String) : List Filter → List Following
  | [] => []
  | x :: rest =>
    followings catalog resolve entity row path x ++
      followingsAll catalog resolve entity row path rest
termination_by structural xs => xs

def followingsList (catalog : Catalog) (resolve : Resolver) (entity : Option Entity) (row : Json)
    (path : List String) : Option (List Filter) → List Following
  | none => []
  | some xs => followingsAll catalog resolve entity row path xs
termination_by structural xs => xs

end

theorem followings_of_traverses {entity : Option Entity} {field : String} {children : List Filter}
    {x : Filter} (h : Traverses entity field children x) (catalog : Catalog) (resolve : Resolver)
    (row : Json) (path : List String) :
    x.followings catalog resolve entity row path =
      followed catalog entity row path field ++
        (rowsOf catalog resolve entity row (row.at? path) field).flatMap fun child =>
          followingsAll catalog resolve (nested catalog entity field) child [] children := by
  rcases h with rfl | ⟨rfl, hr⟩
  · rw [followings]
  · obtain ⟨r, hr⟩ := Option.isSome_iff_exists.1 hr
    rw [followings, hr]

mutual

/-- If relationships are followed from rows only, each is followed from the row itself. -/
theorem path_of_relatesRows (catalog : Catalog) (resolve : Resolver) (entity : Option Entity)
    (nestedIn : Bool) (row : Json) (path : List String) (hpath : nestedIn = false → path = []) :
    (x : Filter) → x.relatesRows catalog entity nestedIn = true →
      ∀ o ∈ x.followings catalog resolve entity row path, o.path = []
  | .scalar _ _ _, _ => by simp [followings]
  | .object field children, h => by
    rw [relatesRows] at h
    rw [followings]
    cases hr : relationshipOf entity field with
    | some r =>
      rw [hr] at h
      obtain ⟨hnested, hchildren⟩ := Bool.and_eq_true_iff.1 h
      have hempty : path = [] := hpath (by simpa using hnested)
      intro o ho
      rcases List.mem_append.1 ho with ho | ho
      · obtain ⟨link, -, rfl⟩ := List.mem_map.1 ho
        exact hempty
      · obtain ⟨child, -, ho⟩ := List.mem_flatMap.1 ho
        exact pathAll_of_relatesRows catalog resolve _ false child [] (fun _ => rfl) children
          hchildren o ho
    | none =>
      rw [hr] at h
      exact pathAll_of_relatesRows catalog resolve _ true row _ (by simp) children h
  | .element field children, h => by
    rw [relatesRows, Bool.and_eq_true] at h
    obtain ⟨hrelated, hchildren⟩ := h
    rw [followings]
    intro o ho
    rcases List.mem_append.1 ho with ho | ho
    · obtain ⟨link, hlink, rfl⟩ := List.mem_map.1 ho
      cases hr : relationshipOf entity field with
      | none => simp [hr] at hlink
      | some r =>
        rw [hr] at hrelated
        exact hpath (by simpa using hrelated)
    · obtain ⟨child, -, ho⟩ := List.mem_flatMap.1 ho
      exact pathAll_of_relatesRows catalog resolve _ false child [] (fun _ => rfl) children
        hchildren o ho
  | .group fields allOf anyOf, h => by
    rw [relatesRows, Bool.and_eq_true, Bool.and_eq_true] at h
    obtain ⟨⟨hfields, hall⟩, hany⟩ := h
    rw [followings]
    intro o ho
    rcases List.mem_append.1 ho with ho | ho
    · rcases List.mem_append.1 ho with ho | ho
      · exact pathAll_of_relatesRows catalog resolve entity nestedIn row path hpath fields
          hfields o ho
      · exact pathList_of_relatesRows catalog resolve entity nestedIn row path hpath allOf hall o ho
    · exact pathList_of_relatesRows catalog resolve entity nestedIn row path hpath anyOf hany o ho
termination_by structural x => x

/-- The same of several filters. -/
theorem pathAll_of_relatesRows (catalog : Catalog) (resolve : Resolver) (entity : Option Entity)
    (nestedIn : Bool) (row : Json) (path : List String) (hpath : nestedIn = false → path = []) :
    (xs : List Filter) → relatesRowsAll catalog entity nestedIn xs = true →
      ∀ o ∈ followingsAll catalog resolve entity row path xs, o.path = []
  | [], _ => by simp [followingsAll]
  | x :: rest, h => by
    rw [relatesRowsAll, Bool.and_eq_true] at h
    rw [followingsAll]
    intro o ho
    rcases List.mem_append.1 ho with ho | ho
    · exact path_of_relatesRows catalog resolve entity nestedIn row path hpath x h.1 o ho
    · exact pathAll_of_relatesRows catalog resolve entity nestedIn row path hpath rest h.2 o ho
termination_by structural xs => xs

/-- The same of a list that may be absent. -/
theorem pathList_of_relatesRows (catalog : Catalog) (resolve : Resolver) (entity : Option Entity)
    (nestedIn : Bool) (row : Json) (path : List String) (hpath : nestedIn = false → path = []) :
    (list : Option (List Filter)) → relatesRowsList catalog entity nestedIn list = true →
      ∀ o ∈ followingsList catalog resolve entity row path list, o.path = []
  | none, _ => by simp [followingsList]
  | some xs, h => by
    rw [relatesRowsList] at h
    rw [followingsList]
    exact pathAll_of_relatesRows catalog resolve entity nestedIn row path hpath xs h
termination_by structural list => list

end

end Filter

namespace Predicate

/-! ## What predicates range over -/

mutual

/-- The related rows that each traversal of a predicate ranges over when it is evaluated, with
the link of the traversal. -/
def ranges (resolve : Resolver) (root : Json) (bindings : Bindings) :
    Predicate → List (Link × List Json)
  | .const _ => []
  | .leaf _ _ _ => []
  | .and terms => rangesAll resolve root bindings terms
  | .or terms => rangesAll resolve root bindings terms
  | .not inner => ranges resolve root bindings inner
  | .traverse _ via inner =>
    match via.parent.row? root bindings with
    | none => []
    | some parent =>
      via.link.toList.map (fun link => (link, via.rows resolve parent)) ++
        (via.rows resolve parent).flatMap fun row =>
          ranges resolve root ((via.binder, row) :: bindings) inner
termination_by structural p => p

def rangesAll (resolve : Resolver) (root : Json) (bindings : Bindings) :
    List Predicate → List (Link × List Json)
  | [] => []
  | p :: rest => ranges resolve root bindings p ++ rangesAll resolve root bindings rest
termination_by structural ps => ps

end

section

variable (resolve : Resolver) (root : Json) (bindings : Bindings)

theorem gathers_ranges :
    Gathers (ranges resolve root bindings) (rangesAll resolve root bindings) where
  nil := rfl
  cons _ _ := rfl
  const _ := rfl
  and _ := rfl
  or _ := rfl

theorem rangesAll_append (ps qs : List Predicate) :
    rangesAll resolve root bindings (ps ++ qs) =
      rangesAll resolve root bindings ps ++ rangesAll resolve root bindings qs :=
  (gathers_ranges resolve root bindings).append ps qs

/-- A conjunction that cannot hold ranges over nothing, and any other
over what its terms do. -/
theorem ranges_allTerms_sublist (ps : List Predicate) :
    (ranges resolve root bindings (allTerms ps)).Sublist (rangesAll resolve root bindings ps) :=
  (gathers_ranges resolve root bindings).allTerms_sublist ps

theorem ranges_ofScalar {frame : Frame} {field : String} {op : Operator} {operand : Value}
    {p : Option Predicate} (h : ofScalar frame field op operand = .ok p) :
    rangesAll resolve root bindings p.toList = [] := by
  rcases ofScalar_cases h with ⟨-, rfl⟩ | ⟨-, c, taken, rfl | rfl⟩ <;> rfl

end

section

variable {catalog : Catalog} {resolve : Resolver} {root row : Json} {bindings : Bindings}

/-- A traversal ranges over what is related to the row of its scope, and what it asks of the
rows that it reaches ranges further. -/
theorem ranges_ofTraversal {frame : Frame} {field : String} {link : Option Link}
    (hlink : (Filter.relationshipOf frame.entity field).mapM (linkOf catalog) = .ok link)
    (navigations : List String) (a : Alias) (inner : Predicate)
    (hrow : frame.scope.row? root bindings = some row) :
    (ofTraversal frame navigations field a link inner).ranges resolve root bindings =
      (Filter.followed catalog frame.entity row frame.path field).map (·.ofRow resolve) ++
        (Filter.rowsOf catalog resolve frame.entity row (row.at? frame.path) field).flatMap
          fun child => inner.ranges resolve root ((a, child) :: bindings) := by
  rw [ofTraversal, ranges, hrow]
  simp only [rows_ofTraversal hlink a resolve row]
  congr 1
  rw [Filter.followed, Filter.rowsOf]
  cases hr : Filter.relationshipOf frame.entity field with
  | none =>
    rw [hr] at hlink
    cases hlink
    rfl
  | some r =>
    rw [hr] at hlink
    obtain ⟨found, hfound, rfl⟩ := Except.mapM_some_eq_ok hlink
    simp [hfound, Except.toOption, Following.ofRow, relatedRows_eq_of_linkOf hfound]

/-- What a traversal ranges over, if what it asks ranges over part of
what its members follow. -/
theorem sublist_ofTraversal {frame : Frame} {field : String} {link : Option Link}
    (hlink : (Filter.relationshipOf frame.entity field).mapM (linkOf catalog) = .ok link)
    (navigations : List String) {a : Alias} {terms : List Predicate} {children : List Filter}
    (hrow : frame.scope.row? root bindings = some row)
    (hterms : ∀ resolve root bindings child,
      (frame.row catalog field a).scope.row? root bindings = some child →
        (rangesAll resolve root bindings terms).Sublist
          ((Filter.followingsAll catalog resolve (Filter.nested catalog frame.entity field) child []
            children).map (·.ofRow resolve))) :
    (rangesAll resolve root bindings
        (some (ofTraversal frame navigations field a link (allTerms terms))).toList).Sublist
      ((Filter.followed catalog frame.entity row frame.path field ++
        (Filter.rowsOf catalog resolve frame.entity row (row.at? frame.path) field).flatMap
          fun child => Filter.followingsAll catalog resolve
            (Filter.nested catalog frame.entity field) child [] children).map
              (·.ofRow resolve)) := by
  rw [Option.toList_some, rangesAll, rangesAll, List.append_nil,
    ranges_ofTraversal hlink navigations a _ hrow, List.map_append, List.map_flatMap]
  refine (List.Sublist.refl _).append (List.Sublist.flatMap_right _ fun child _ => ?_)
  exact (ranges_allTerms_sublist _ _ _ terms).trans
    (hterms _ _ _ child (frame.row?_row catalog field a root child bindings))

end

/-! ## What compiled filters range over -/

/-- The traversals of a part of a filter range over some of what is related to the rows from
which the part follows relationships, in this order. -/
def RangesOver (frame : Frame) (os : Resolver → Json → List Following)
    (ps : List Predicate) : Prop :=
  ∀ resolve root bindings row, frame.scope.row? root bindings = some row →
    (rangesAll resolve root bindings ps).Sublist ((os resolve row).map (·.ofRow resolve))

theorem rangesOver_listed {catalog : Catalog} {frame : Frame} {list : Option (List Filter)}
    {ps : Option (List Predicate)} {as : List Alias}
    (h : Listed (fun frame xs ps _ => RangesOver frame
      (fun resolve row => Filter.followingsAll catalog resolve frame.entity row frame.path xs) ps)
      frame list ps as) :
    RangesOver frame
      (fun resolve row => Filter.followingsList catalog resolve frame.entity row frame.path list)
      (ps.getD []) := by
  rcases h.cases with ⟨rfl, rfl, -⟩ | ⟨xs, qs, rfl, rfl, hqs⟩
  · exact fun _ _ _ _ _ => List.nil_sublist _
  · exact hqs

/-- Compilation keeps what the parts of a filter range over; nothing is left of it where a
conjunction cannot hold. -/
theorem composes_ranges (catalog : Catalog) (navigations : List String) :
    Composes catalog navigations
      (fun frame x p _ => RangesOver frame
        (fun resolve row => x.followings catalog resolve frame.entity row frame.path) p.toList)
      (fun frame xs ps _ => RangesOver frame
        (fun resolve row => Filter.followingsAll catalog resolve frame.entity row frame.path xs)
        ps) where
  scalar hp resolve root bindings row _ := by
    rw [ranges_ofScalar resolve root bindings hp]
    exact List.nil_sublist _
  traversal hx hlink hterms resolve root bindings row hrow := by
    dsimp only
    rw [Filter.followings_of_traverses hx]
    exact sublist_ofTraversal hlink navigations hrow hterms
  document hr hterms resolve root bindings row hrow := by
    dsimp only
    rw [Filter.followings, hr, Option.toList_some, rangesAll, rangesAll, List.append_nil]
    exact (ranges_allTerms_sublist resolve root bindings _).trans
      (hterms resolve root bindings row hrow)
  group hps hqs hrs resolve root bindings row hrow := by
    dsimp only
    rw [Filter.followings, Option.toList_some, rangesAll, rangesAll, List.append_nil,
      List.map_append, List.map_append, List.append_assoc (List.map _ _)]
    refine ((gathers_ranges resolve root bindings).group_sublist _ _ _).trans ?_
    exact (hps resolve root bindings row hrow).append
      ((rangesOver_listed hqs resolve root bindings row hrow).append
        (rangesOver_listed hrs resolve root bindings row hrow))
  nil _ _ _ _ _ := List.nil_sublist _
  cons hp hps resolve root bindings row hrow := by
    dsimp only
    rw [rangesAll_append, Filter.followingsAll, List.map_append]
    exact (hp resolve root bindings row hrow).append (hps resolve root bindings row hrow)

/-- The traversals of a compiled filter range over what is related to the rows from which the
filter follows relationships. -/
theorem ranges_of_compile {catalog : Catalog} {e : Entity} {allowJoins : Bool} {f : Filter}
    {start : Alias} {p : Predicate} (h : ((compile catalog e allowJoins f).run start).1 = .ok p)
    (resolve : Resolver) (document : Json) :
    (p.ranges resolve document []).Sublist
      ((f.followings catalog resolve (some e) document []).map (·.ofRow resolve)) := by
  obtain ⟨-, q, rfl, hq⟩ := ((composes_ranges catalog _).yields_compile e allowJoins).of_run h
  have hranges := hq resolve document [] document rfl
  cases q with
  | none => exact List.nil_sublist _
  | some q => rwa [Option.toList_some, rangesAll, rangesAll, List.append_nil] at hranges

/-- Whichever aliases are free and whether joins are allowed or not, a valid filter on an
entity of the catalog compiles unless it follows a relationship that leads to no entity. Its
predicate says of a document what the filter says if relationships are followed from rows, and
its traversals range over what is related to the rows from which the filter follows
relationships. This is what is related to the documents that own the relationships if none of
them is nested in a row. -/
theorem ranges_of_validate {catalog : Catalog} {e : Entity} (he : e ∈ catalog.entities) {f : Filter}
    (hvalid : f.validate catalog e = .ok ()) (allowJoins : Bool) (start : Alias) :
    (∃ p, ((compile catalog e allowJoins f).run start).1 = .ok p ∧ ∀ resolve document,
      p.eval resolve document [] =
        (f.truthAt catalog resolve (some e) document (some document)).getD (some false) ∧
      (p.ranges resolve document []).Sublist
        ((f.followings catalog resolve (some e) document []).map (·.ofRow resolve)) ∧
      (f.relatesRows catalog (some e) false = true →
        (p.ranges resolve document []).Sublist
          ((f.followings catalog resolve (some e) document []).map (·.ofDocument resolve)))) ∨
    ∃ source ∈ catalog.entities, ∃ r ∈ source.relationships, catalog.entity? r.target = none ∧
      ((compile catalog e allowJoins f).run start).1 = .error (.unknownEntity r.target) := by
  have hyields := yields_compile catalog e allowJoins f
  rcases Filter.orDangling_of_validate he hvalid with
    hok | ⟨source, hsource, r, hr, htarget, hfault⟩
  · left
    obtain ⟨p, hp, htruth⟩ := hyields.run_ok hok start
    refine ⟨p, hp, fun resolve document => ?_⟩
    have hranges := ranges_of_compile hp resolve document
    refine ⟨htruth resolve document, hranges, fun hrelates => ?_⟩
    -- A document at the empty path is the row itself.
    have hsame : ∀ o ∈ f.followings catalog resolve (some e) document [],
        o.ofRow resolve = o.ofDocument resolve := by
      intro o ho
      have hpath := Filter.path_of_relatesRows catalog resolve (some e) false document []
        (fun _ => rfl) f hrelates o ho
      rw [Following.ofDocument, hpath]
      rfl
    rwa [List.map_congr_left hsame] at hranges
  · exact .inr ⟨source, hsource, r, hr, htarget, hyields.run_error hfault start⟩

open Examples

/-- The catalog of ships, berths and people. -/
def fleet : Catalog :=
  (((Catalog.empty .default).addEntity mooredShip).addEntity
    ((Entity.ofFields "Berth" "berths" .relational
      [⟨"id", "id", true, .scalar⟩, ⟨"owner_id", "owner_id", false, .scalar⟩]).withRelationship
        ⟨"owner", "Person", .one, ["owner_id"], ["id"]⟩)).addEntity
    (.ofFields "Person" "people" .relational
      [⟨"id", "id", true, .scalar⟩, ⟨"rank", "rank", false, .scalar⟩])

/-- Ships whose berth is owned by somebody of rank nine. -/
def ownedByNine : Filter :=
  .group [.object "home" [.object "owner" [.scalar "rank" .eq (.integer 9)]]] none none

/-- A ship whose berth is owned by person 20. -/
def anna : Json :=
  .object [("id", .int 1), ("home", .object [("id", .int 5), ("owner_id", .int 20)])]

/-- Person 20 has rank nine. -/
def people : Tables := ⟨[("people", [.object [("id", .int 20), ("rank", .int 9)]])]⟩

def owner : Link := ⟨"Person", "people", .one, ["owner_id"], ["id"]⟩

theorem validate_ownedByNine : ownedByNine.validate fleet mooredShip = .ok () := by rfl

/-- The owner is looked for among those related to the ship, and there are none. -/
theorem ranges_of_validate_ownedByNine :
    ∃ p, ((compile fleet mooredShip true ownedByNine).run 1).1 = .ok p ∧
      (p.ranges people.resolver anna []).Sublist [(owner, [])] ∧
      p.eval people.resolver anna [] = some false := by
  have hship : mooredShip ∈ fleet.entities := by decide
  rcases ranges_of_validate hship validate_ownedByNine true 1 with ⟨p, hp, hranges⟩ | hdangling
  · obtain ⟨htruth, hrows, -⟩ := hranges people.resolver anna
    exact ⟨p, hp, hrows, htruth.trans (by decide)⟩
  · obtain ⟨other, hother, r, hr, htarget, -⟩ := hdangling
    have hall : ∀ e ∈ fleet.entities, ∀ r ∈ e.relationships, (fleet.entity? r.target).isSome := by
      decide
    have hsome := hall other hother r hr
    rw [htarget] at hsome
    cases hsome

/-- The traversal to the owner of a berth ranges over nobody, although the berth is related to
somebody of rank nine. -/
theorem ranges_ne_ofDocument :
    ownedByNine.validate fleet mooredShip = .ok () ∧
      ∃ p, (ofFilter fleet mooredShip ownedByNine 1).1 = .ok p ∧
      p.ranges people.resolver anna [] = [(owner, [])] ∧
      (ownedByNine.followings fleet people.resolver (some mooredShip) anna []).map
          (·.ofDocument people.resolver) =
        [(owner, [.object [("id", .int 20), ("rank", .int 9)]])] ∧
      p.holds people.resolver anna = false := by
  exact ⟨validate_ownedByNine, _, rfl, rfl, rfl, rfl⟩

end Predicate

end RoleQuery
