import RoleQuery.Proofs.Access.Claims
import RoleQuery.Proofs.Filter.Placement
import RoleQuery.Service.Read

/-!
# Members that are null

A member that is null asks nothing. It is read as a comparison with null, which the
compilation drops, so that it should make no difference. It makes none if it names a field, of
whatever kind, and none if it is read as a list of filters; but the check lets no comparison
with a relationship pass, and rejects the filter.
-/
namespace RoleQuery

/-- The predicate of the filter that a client writes, with aliases from `start` on,
and the next free alias. -/
def Catalog.clientPredicate (catalog : Catalog) (e : Entity) (input : Json) (start : Alias) :
    Except RequestError (Predicate × Alias) := do
  let f ← catalog.clientFilter e input
  let (predicate, next) := Predicate.ofFilter catalog e f start
  return (← predicate, next)

namespace Filter

/-- Members of an entity, and the same members with a null member `name` more in one object.
That object is the whole, the object of a member or an item of a list of filters, and its
members belong to `owner`. -/
inductive AddsNull (catalog : Catalog) (owner : Entity) (name : String) :
    Entity → Members → Members → Prop
  | here (before after : Members) :
    AddsNull catalog owner name owner (before ++ after) (before ++ (name, .null) :: after)
  | member {e inner : Entity} {field : String} {ms ms' : Members} (before after : Members)
    (hand : field ≠ "and") (hor : field ≠ "or")
    (hinner : catalog.nestedEntity? e field = some inner)
    (h : AddsNull catalog owner name inner ms ms') :
    AddsNull catalog owner name e (before ++ (field, .object ms) :: after)
      (before ++ (field, .object ms') :: after)
  /-- Of several lists of one name only the last counts. -/
  | item {e : Entity} {list : String} {ms ms' : Members} (before after : Members)
    (hlist : list = "and" ∨ list = "or") (hlast : list ∉ after.names) (first last : List Json)
    (h : AddsNull catalog owner name e ms ms') :
    AddsNull catalog owner name e
      (before ++ (list, .list (first ++ .object ms :: last)) :: after)
      (before ++ (list, .list (first ++ .object ms' :: last)) :: after)

/-! ## Interchangeable filters -/

section Interchangeable

variable {catalog : Catalog} {entity : Option Entity} {xs ys xs' ys' : List Filter}

theorem navigationsAll_append (path : String) (xs ys : List Filter) :
    navigationsAll path (xs ++ ys) = navigationsAll path xs ++ navigationsAll path ys := by
  induction xs with
  | nil => rfl
  | cons x rest ih => rw [List.cons_append, navigationsAll, navigationsAll, ih, List.append_assoc]

theorem validateAll_append (path : String) (xs ys : List Filter) :
    validateAll catalog entity path (xs ++ ys) =
      (do validateAll catalog entity path xs; validateAll catalog entity path ys) := by
  induction xs with
  | nil => rfl
  | cons x rest ih => rw [List.cons_append, validateAll, validateAll, ih, bind_assoc]

theorem ofNodes_append (navigations : List String) (frame : Frame) (xs ys : List Filter) :
    Predicate.ofNodes catalog navigations frame (xs ++ ys) = do
      let ps ← Predicate.ofNodes catalog navigations frame xs
      let qs ← Predicate.ofNodes catalog navigations frame ys
      return ps ++ qs := by
  induction xs with
  | nil => simp [Predicate.ofNodes]
  | cons x rest ih =>
    simp only [List.cons_append, Predicate.ofNodes, ih, bind_assoc, pure_bind, List.append_assoc]

/-- Filters that are checked and compiled alike as members of
`entity`, wherever they stand. -/
structure Interchangeable (catalog : Catalog) (entity : Option Entity) (xs ys : List Filter) :
    Prop where
  navigations (path : String) : navigationsAll path xs = navigationsAll path ys
  validate (path : String) :
    validateAll catalog entity path xs = validateAll catalog entity path ys
  compile (navigations : List String) (frame : Frame) (hframe : frame.entity = entity) :
    Predicate.ofNodes catalog navigations frame xs = Predicate.ofNodes catalog navigations frame ys

theorem interchangeable_refl (xs : List Filter) : Interchangeable catalog entity xs xs :=
  ⟨fun _ => rfl, fun _ => rfl, fun _ _ _ => rfl⟩

theorem Interchangeable.append (h : Interchangeable catalog entity xs ys)
    (h' : Interchangeable catalog entity xs' ys') :
    Interchangeable catalog entity (xs ++ xs') (ys ++ ys') where
  navigations path := by
    rw [navigationsAll_append, navigationsAll_append, h.navigations, h'.navigations]
  validate path := by rw [validateAll_append, validateAll_append, h.validate, h'.validate]
  compile navigations frame hframe := by
    rw [ofNodes_append, ofNodes_append, h.compile navigations frame hframe,
      h'.compile navigations frame hframe]

/-- A comparison with null that passes the check is as good as none. -/
theorem interchangeable_nil {field : String} {op : Operator}
    (h : Compares entity field .null) :
    Interchangeable catalog entity [.scalar field op .null] [] where
  navigations path := (navigationsAll_filter path [.scalar field op .null]).symm
  validate path := by
    have hscalar : validateScalar entity path field op .null = .ok () :=
      validateScalar_eq_ok_iff.2 ⟨h, rfl⟩
    simp only [validateAll, validateNode, hscalar]
    rfl
  compile navigations frame _ :=
    (Predicate.ofNodes_filter catalog navigations frame [.scalar field op .null]).symm

/-- Members that are interchangeable below a document or one related item. -/
theorem Interchangeable.object {field : String}
    (h : Interchangeable catalog (nested catalog entity field) xs ys) :
    Interchangeable catalog entity [.object field xs] [.object field ys] where
  navigations path := by simp only [navigationsAll, Filter.navigations, h.navigations]
  validate path := by
    have hvalidate := h.validate (path ++ "." ++ field)
    rw [nested] at hvalidate
    simp only [validateAll, validateNode, hvalidate]
  compile navigations frame hframe := by
    subst hframe
    have hdocument := h.compile navigations (frame.document catalog field) rfl
    have hrow (a : Alias) := h.compile navigations (frame.row catalog field a) rfl
    simp only [Predicate.ofNodes, Predicate.ofNode, hdocument, hrow]

/-- Members that are interchangeable below elements or related items. -/
theorem Interchangeable.element {field : String}
    (h : Interchangeable catalog (nested catalog entity field) xs ys) :
    Interchangeable catalog entity [.element field xs] [.element field ys] where
  navigations path := by simp only [navigationsAll, Filter.navigations, h.navigations]
  validate path := by
    have hvalidate := h.validate (path ++ "." ++ field)
    rw [nested] at hvalidate
    simp only [validateAll, validateNode, hvalidate]
  compile navigations frame hframe := by
    subst hframe
    have hrow (a : Alias) := h.compile navigations (frame.row catalog field a) rfl
    simp only [Predicate.ofNodes, Predicate.ofNode, hrow]

section Lists

variable {list list' : Option (List Filter)}

theorem navigationsList_congr (h : Option.Rel (Interchangeable catalog entity) list list')
    (path : String) : navigationsList path list = navigationsList path list' := by
  cases h with
  | none => rfl
  | some h => exact h.navigations path

theorem validateList_congr (h : Option.Rel (Interchangeable catalog entity) list list')
    (path : String) :
    validateList catalog entity path list = validateList catalog entity path list' := by
  cases h with
  | none => rfl
  | some h => exact h.validate path

theorem ofList_congr (h : Option.Rel (Interchangeable catalog entity) list list')
    (navigations : List String) {frame : Frame} (hframe : frame.entity = entity) :
    Predicate.ofList catalog navigations frame list =
      Predicate.ofList catalog navigations frame list' := by
  cases h with
  | none => rfl
  | some h => simp only [Predicate.ofList, h.compile navigations frame hframe]

end Lists

theorem interchangeable_group {fields fields' : List Filter}
    {allOf allOf' anyOf anyOf' : Option (List Filter)}
    (hfields : Interchangeable catalog entity fields fields')
    (hall : Option.Rel (Interchangeable catalog entity) allOf allOf')
    (hany : Option.Rel (Interchangeable catalog entity) anyOf anyOf') :
    Interchangeable catalog entity [.group fields allOf anyOf] [.group fields' allOf' anyOf'] where
  navigations path := by
    simp only [navigationsAll, Filter.navigations, hfields.navigations, navigationsList_congr hall,
      navigationsList_congr hany]
  validate path := by
    simp only [validateAll, validateNode, hfields.validate, validateList_congr hall,
      validateList_congr hany]
  compile navigations frame hframe := by
    -- The alternatives have a frame of their own, but the same owner.
    have halternatives : ({ frame with conjunctive := false } : Frame).entity = entity := hframe
    simp only [Predicate.ofNodes, Predicate.ofNode, hfields.compile navigations frame hframe,
      ofList_congr hall navigations hframe, ofList_congr hany navigations halternatives]

end Interchangeable

/-! ## Groups that are read -/

section Reading

variable {catalog : Catalog} {entity : Option Entity} {path : String}

/-- Read one member more into a group. -/
def readMember (catalog : Catalog) (entity : Option Entity) (path : String) (g : Group)
    (m : String × Json) : Except InputFault Group :=
  if m.1 = "and" then
    (ofList catalog entity path m.1 m.2).map fun fs => { g with allOf := fs <|> g.allOf }
  else if m.1 = "or" then
    (ofList catalog entity path m.1 m.2).map fun fs => { g with anyOf := fs <|> g.anyOf }
  else (ofMember catalog entity path m.1 m.2).map fun fs => { g with fields := g.fields ++ fs }

/-- Members are read one after another. -/
theorem ofMembers_eq_foldlM (g : Group) (ms : Members) :
    ofMembers catalog entity path g ms = ms.foldlM (readMember catalog entity path) g := by
  induction ms generalizing g with
  | nil => rfl
  | cons m rest ih =>
    obtain ⟨name, value⟩ := m
    rw [ofMembers, List.foldlM_cons, readMember]
    by_cases hand : name = "and"
    · simp only [hand, ↓reduceIte, ih]
      cases ofList catalog entity path "and" value <;> rfl
    · by_cases hor : name = "or"
      · simp only [hor, ↓reduceIte, ih]
        cases ofList catalog entity path "or" value <;> rfl
      · simp only [hand, hor, ↓reduceIte, ih]
        cases ofMember catalog entity path name value <;> rfl

/-- Groups that are interchangeable part by part. -/
structure Group.Interchangeable (catalog : Catalog) (entity : Option Entity) (g g' : Group) :
    Prop where
  fields : Filter.Interchangeable catalog entity g.fields g'.fields
  allOf : Option.Rel (Filter.Interchangeable catalog entity) g.allOf g'.allOf
  anyOf : Option.Rel (Filter.Interchangeable catalog entity) g.anyOf g'.anyOf

theorem rel_refl (list : Option (List Filter)) :
    Option.Rel (Interchangeable catalog entity) list list := by
  cases list with
  | none => exact .none
  | some xs => exact .some (interchangeable_refl xs)

theorem rel_orElse {list list' xs ys : Option (List Filter)}
    (hlist : Option.Rel (Interchangeable catalog entity) list list')
    (h : Option.Rel (Interchangeable catalog entity) xs ys) :
    Option.Rel (Interchangeable catalog entity) (list <|> xs) (list' <|> ys) := by
  cases hlist with
  | none => exact h
  | some hlist => exact .some hlist

theorem Group.interchangeable_refl (g : Group) : g.Interchangeable catalog entity g :=
  ⟨Filter.interchangeable_refl _, rel_refl _, rel_refl _⟩

theorem Group.Interchangeable.toFilter {g g' : Group} (h : g.Interchangeable catalog entity g') :
    Filter.Interchangeable catalog entity [g.toFilter] [g'.toFilter] :=
  interchangeable_group h.fields h.allOf h.anyOf

theorem Group.Interchangeable.toChildren {g g' : Group} (h : g.Interchangeable catalog entity g') :
    Filter.Interchangeable catalog entity g.toChildren g'.toChildren := by
  have hisSome {list list' : Option (List Filter)}
      (h : Option.Rel (Filter.Interchangeable catalog entity) list list') :
      list.isSome = list'.isSome := by
    cases h <;> rfl
  rw [Group.toChildren, Group.toChildren, hisSome h.allOf, hisSome h.anyOf]
  split
  · exact h.fields.append (interchangeable_group (Filter.interchangeable_refl []) h.allOf h.anyOf)
  · exact h.fields

/-- A member makes no difference between interchangeable groups. -/
theorem agree_readMember {g g' : Group} (h : g.Interchangeable catalog entity g')
    (m : String × Json) :
    Except.Agree (Group.Interchangeable catalog entity) (readMember catalog entity path g m)
      (readMember catalog entity path g' m) := by
  rw [readMember, readMember]
  split
  · refine (Except.agree_refl (fun _ => rfl) (ofList catalog entity path m.1 m.2)).map ?_
    rintro fs _ rfl
    exact ⟨h.fields, rel_orElse (rel_refl fs) h.allOf, h.anyOf⟩
  · split
    · refine (Except.agree_refl (fun _ => rfl) (ofList catalog entity path m.1 m.2)).map ?_
      rintro fs _ rfl
      exact ⟨h.fields, h.allOf, rel_orElse (rel_refl fs) h.anyOf⟩
    · refine (Except.agree_refl (fun _ => rfl) (ofMember catalog entity path m.1 m.2)).map ?_
      rintro fs _ rfl
      exact ⟨h.fields.append (interchangeable_refl fs), h.allOf, h.anyOf⟩

/-- Members that differ in one place are read alike if what stands there is. -/
theorem agree_ofMembers {here there : Members}
    (h : ∀ g, Except.Agree (Group.Interchangeable catalog entity)
      (ofMembers catalog entity path g here) (ofMembers catalog entity path g there))
    (before after : Members) (g : Group) :
    Except.Agree (Group.Interchangeable catalog entity)
      (ofMembers catalog entity path g (before ++ (here ++ after)))
      (ofMembers catalog entity path g (before ++ (there ++ after))) := by
  simp only [ofMembers_eq_foldlM, List.foldlM_append] at h ⊢
  refine (Except.agree_refl (fun _ => rfl) _).bind ?_
  rintro g _ rfl
  exact (h g).foldlM (fun _ _ m hg => agree_readMember hg m) after

/-- Items that differ in one place are read alike if what stands there is. -/
theorem agree_ofItems {here there : Json}
    (h : Except.Agree (fun x y => Interchangeable catalog entity [x] [y])
      (ofObject catalog entity path here) (ofObject catalog entity path there))
    (first last : List Json) :
    Except.Agree (Interchangeable catalog entity)
      (ofItems catalog entity path (first ++ here :: last))
      (ofItems catalog entity path (first ++ there :: last)) := by
  induction first with
  | nil =>
    refine h.bind fun x y hxy => ?_
    refine (Except.agree_refl (fun _ => rfl) (ofItems catalog entity path last)).bind ?_
    rintro fs _ rfl
    exact .ok (hxy.append (interchangeable_refl fs))
  | cons j rest ih =>
    refine (Except.agree_refl (fun _ => rfl) (ofObject catalog entity path j)).bind ?_
    rintro f _ rfl
    exact ih.bind fun fs fs' hfs => .ok ((interchangeable_refl [f]).append hfs)

theorem ofMembers_singleton (g : Group) (m : String × Json) :
    ofMembers catalog entity path g [m] = readMember catalog entity path g m := by
  simp [ofMembers_eq_foldlM]

end Reading

/-! ## A null member -/

section Null

variable {catalog : Catalog} {owner e : Entity} {name : String} {ms ms' : Members}

/-- A null member of a known owner is read as a comparison with null. -/
theorem ofMember_null (h : owner.hasMember name) (path : String) :
    ofMember catalog (some owner) path name .null = .ok [.scalar name .eq .null] := by
  rw [← Entity.isSome_shape?] at h
  obtain ⟨s, hs⟩ := Option.isSome_iff_exists.1 h
  rw [ofMember, shape_some, hs]
  rfl

/-- A member that leads to an owner is not compared. -/
theorem shape?_ne_scalar {inner : Entity} (hinner : catalog.nestedEntity? e name = some inner) :
    e.shape? name ≠ some .scalar := by
  intro hscalar
  obtain ⟨hr, f, hf, hkind⟩ := Entity.shape?_eq_scalar_iff.1 hscalar
  simp [Catalog.nestedEntity?, hr, hf, hkind, FieldKind.type?] at hinner

/-- A null member of an owner makes no difference if it is read as a list or names a field. -/
theorem agree_null (hname : owner.hasMember name)
    (hneutral : name = "and" ∨ name = "or" ∨ owner.relationship? name = none) (path : String)
    (g : Group) :
    Except.Agree (Group.Interchangeable catalog (some owner))
      (ofMembers catalog (some owner) path g [(name, .null)])
      (ofMembers catalog (some owner) path g []) := by
  rw [ofMembers_singleton, readMember]
  by_cases hand : name = "and"
  · rw [if_pos hand]
    exact .ok (Group.interchangeable_refl g)
  · by_cases hor : name = "or"
    · rw [if_neg hand, if_pos hor]
      exact .ok (Group.interchangeable_refl g)
    · obtain hr : owner.relationship? name = none := by simpa [hand, hor] using hneutral
      have hcompares : Compares (some owner) name .null := by
        rintro _ ⟨⟩
        rw [Entity.hasMember, hr, Option.isSome_none, Bool.or_false] at hname
        obtain ⟨f, hf⟩ := Option.isSome_iff_exists.1 hname
        exact ⟨hr, f, hf, .inr rfl⟩
      have hfields : Interchangeable catalog (some owner)
          (g.fields ++ [.scalar name .eq .null]) (g.fields ++ []) :=
        (interchangeable_refl _).append (interchangeable_nil hcompares)
      rw [List.append_nil] at hfields
      rw [if_neg hand, if_neg hor, ofMember_null hname]
      exact .ok ⟨hfields, rel_refl _, rel_refl _⟩

/-- Objects that are read alike are read alike below a member. -/
theorem agree_member {inner : Entity} {field : String} (hand : field ≠ "and") (hor : field ≠ "or")
    (hinner : catalog.nestedEntity? e field = some inner)
    (h : ∀ path, Except.Agree (Group.Interchangeable catalog (some inner))
      (ofMembers catalog (some inner) path {} ms') (ofMembers catalog (some inner) path {} ms))
    (path : String) (g : Group) :
    Except.Agree (Group.Interchangeable catalog (some e))
      (ofMembers catalog (some e) path g [(field, .object ms')])
      (ofMembers catalog (some e) path g [(field, .object ms)]) := by
  rw [← show nested catalog (some e) field = some inner from hinner] at h
  have hmember : Except.Agree (Interchangeable catalog (some e))
      (ofMember catalog (some e) path field (.object ms'))
      (ofMember catalog (some e) path field (.object ms)) := by
    -- The shape is declared, so both objects are read in the same one.
    rw [ofMember, ofMember, shape_some, shape_some]
    cases hs : e.shape? field with
    | none => exact .error _
    | some s =>
      cases s with
      | scalar => exact absurd hs (shape?_ne_scalar hinner)
      | object => exact (h _).bind fun g g' hg => .ok (Interchangeable.object hg.toChildren)
      | element => exact (h _).bind fun g g' hg => .ok (Interchangeable.element hg.toChildren)
  rw [ofMembers_singleton, ofMembers_singleton, readMember, readMember, if_neg hand, if_neg hor,
    if_neg hand, if_neg hor]
  exact hmember.map fun fs fs' hfs =>
    ⟨(interchangeable_refl g.fields).append hfs, rel_refl _, rel_refl _⟩

/-- Objects that are read alike are read as filters that are interchangeable. -/
theorem agree_ofObject {path : String}
    (h : Except.Agree (Group.Interchangeable catalog (some e))
      (ofMembers catalog (some e) path {} ms') (ofMembers catalog (some e) path {} ms)) :
    Except.Agree (fun x y => Interchangeable catalog (some e) [x] [y])
      (ofObject catalog (some e) path (.object ms'))
      (ofObject catalog (some e) path (.object ms)) :=
  h.map fun _ _ hg => hg.toFilter

/-- Objects that are read alike are read alike in a list of filters. -/
theorem agree_item {list : String} (hlist : list = "and" ∨ list = "or") {path : String}
    (h : Except.Agree (Group.Interchangeable catalog (some e))
      (ofMembers catalog (some e) path {} ms') (ofMembers catalog (some e) path {} ms))
    (first last : List Json) (g : Group) :
    Except.Agree (Group.Interchangeable catalog (some e))
      (ofMembers catalog (some e) path g [(list, .list (first ++ .object ms' :: last))])
      (ofMembers catalog (some e) path g [(list, .list (first ++ .object ms :: last))]) := by
  have hitems : Except.Agree (Option.Rel (Interchangeable catalog (some e)))
      (ofList catalog (some e) path list (.list (first ++ .object ms' :: last)))
      (ofList catalog (some e) path list (.list (first ++ .object ms :: last))) :=
    (agree_ofItems (agree_ofObject h) first last).map fun _ _ => .some
  rw [ofMembers_singleton, ofMembers_singleton, readMember, readMember]
  rcases hlist with rfl | rfl
  · exact hitems.map fun fs fs' hfs =>
      ⟨interchangeable_refl _, rel_orElse hfs (rel_refl _), rel_refl _⟩
  · exact hitems.map fun fs fs' hfs =>
      ⟨interchangeable_refl _, rel_refl _, rel_orElse hfs (rel_refl _)⟩

/-- Members with a null member more are read alike, if that one is read as a
list or names a field. -/
theorem agree_of_addsNull (h : AddsNull catalog owner name e ms ms') (hname : owner.hasMember name)
    (hneutral : name = "and" ∨ name = "or" ∨ owner.relationship? name = none) (path : String)
    (g : Group) :
    Except.Agree (Group.Interchangeable catalog (some e))
      (ofMembers catalog (some e) path g ms') (ofMembers catalog (some e) path g ms) := by
  induction h generalizing path g with
  | here before after =>
    exact agree_ofMembers (agree_null hname hneutral path) before after g
  | member before after hand hor hinner _ ih =>
    exact agree_ofMembers (agree_member hand hor hinner (fun path => ih path {}) path) before
      after g
  | item before after hlist _ first last _ ih =>
    exact agree_ofMembers (agree_item hlist (ih path {}) first last) before after g

/-! ## A null relationship -/

/-- Members that are read later add to the fields, and leave a list as it is unless one
of them has its name. -/
theorem spec_of_ofMembers {entity : Option Entity} {path : String} {g g' : Group}
    (h : ofMembers catalog entity path g ms = .ok g') :
    (∃ more, g'.fields = g.fields ++ more) ∧ ("and" ∉ ms.names → g'.allOf = g.allOf) ∧
      ("or" ∉ ms.names → g'.anyOf = g.anyOf) := by
  induction ms generalizing g with
  | nil =>
    cases h
    exact ⟨⟨[], (List.append_nil _).symm⟩, fun _ => rfl, fun _ => rfl⟩
  | cons m rest ih =>
    obtain ⟨name, value⟩ := m
    rw [ofMembers] at h
    -- A list takes the place of an earlier one of its name, of which nothing is said then.
    split at h
    · rename_i hand
      obtain ⟨fs, -, h⟩ := Except.bind_eq_ok_iff.1 h
      obtain ⟨hfields, -, hany⟩ := ih h
      simp only [Members.names, List.map_cons, List.mem_cons, not_or] at hany ⊢
      exact ⟨hfields, fun hne => absurd hand.symm hne.1, fun hne => hany hne.2⟩
    · split at h
      · rename_i hor
        obtain ⟨fs, -, h⟩ := Except.bind_eq_ok_iff.1 h
        obtain ⟨hfields, hall, -⟩ := ih h
        simp only [Members.names, List.map_cons, List.mem_cons, not_or] at hall ⊢
        exact ⟨hfields, fun hne => hall hne.2, fun hne => absurd hor.symm hne.1⟩
      · obtain ⟨fs, -, h⟩ := Except.bind_eq_ok_iff.1 h
        obtain ⟨⟨more, hfields⟩, hall, hany⟩ := ih h
        simp only [Members.names, List.map_cons, List.mem_cons, not_or] at hall hany ⊢
        exact ⟨⟨fs ++ more, by rw [hfields, List.append_assoc]⟩, fun hne => hall hne.2,
          fun hne => hany hne.2⟩

/-- Reading members passes by each of them. -/
theorem exists_of_ofMembers {entity : Option Entity} {path : String} {g g' : Group}
    {before after : Members} {m : String × Json}
    (h : ofMembers catalog entity path g (before ++ m :: after) = .ok g') :
    ∃ g₁ g₂, readMember catalog entity path g₁ m = .ok g₂ ∧
      ofMembers catalog entity path g₂ after = .ok g' := by
  rw [ofMembers_eq_foldlM, List.foldlM_append] at h
  obtain ⟨g₁, -, h⟩ := Except.bind_eq_ok_iff.1 h
  rw [List.foldlM_cons] at h
  obtain ⟨g₂, hm, h⟩ := Except.bind_eq_ok_iff.1 h
  exact ⟨g₁, g₂, hm, by rw [ofMembers_eq_foldlM, h]⟩

/-- What a member other than `and` and `or` writes stays among the fields. -/
theorem exists_ofMember_of_ofMembers {entity : Option Entity} {path field : String} {g g' : Group}
    {before after : Members} {value : Json} (hand : field ≠ "and") (hor : field ≠ "or")
    (h : ofMembers catalog entity path g (before ++ (field, value) :: after) = .ok g')
    (hplaced : g'.Placed catalog entity) :
    ∃ fs, ofMember catalog entity path field value = .ok fs ∧ PlacedAll catalog entity fs := by
  obtain ⟨g₁, g₂, hm, hafter⟩ := exists_of_ofMembers h
  rw [readMember, if_neg hand, if_neg hor] at hm
  obtain ⟨fs, hfs, rfl⟩ := Except.map_eq_ok_iff.1 hm
  obtain ⟨⟨more, hfields⟩, -, -⟩ := spec_of_ofMembers hafter
  have hall := hplaced.fields
  rw [hfields, placedAll_append, placedAll_append] at hall
  exact ⟨fs, hfs, hall.1.2⟩

/-- The last list of filters under a name stays. -/
theorem exists_ofItems_of_ofMembers {entity : Option Entity} {path list : String} {g g' : Group}
    {before after : Members} {items : List Json} (hlist : list = "and" ∨ list = "or")
    (hlast : list ∉ after.names)
    (h : ofMembers catalog entity path g (before ++ (list, .list items) :: after) = .ok g')
    (hplaced : g'.Placed catalog entity) :
    ∃ fs, ofItems catalog entity path items = .ok fs ∧ PlacedAll catalog entity fs := by
  obtain ⟨g₁, g₂, hm, hafter⟩ := exists_of_ofMembers h
  obtain ⟨-, hall, hany⟩ := spec_of_ofMembers hafter
  rw [readMember] at hm
  rcases hlist with rfl | rfl
  · obtain ⟨fs, hfs, rfl⟩ := Except.map_eq_ok_iff.1 hm
    obtain ⟨xs, hxs, rfl⟩ := Except.map_eq_ok_iff.1 hfs
    have hplaced := hplaced.allOf
    rw [hall hlast] at hplaced
    exact ⟨xs, hxs, hplaced⟩
  · obtain ⟨fs, hfs, rfl⟩ := Except.map_eq_ok_iff.1 hm
    obtain ⟨xs, hxs, rfl⟩ := Except.map_eq_ok_iff.1 hfs
    have hplaced := hplaced.anyOf
    rw [hany hlast] at hplaced
    exact ⟨xs, hxs, hplaced⟩

/-- The items of a list are read one by one. -/
theorem ofItems_eq_mapM (entity : Option Entity) (path : String) (items : List Json) :
    ofItems catalog entity path items = items.mapM (ofObject catalog entity path) := by
  induction items with
  | nil => rfl
  | cons j rest ih => rw [ofItems, List.mapM_cons, ih]

/-- The object of a member that leads to an owner is read for that owner. -/
theorem exists_ofMembers_of_ofMember {inner : Entity} {path field : String} {fs : List Filter}
    (hinner : catalog.nestedEntity? e field = some inner)
    (h : ofMember catalog (some e) path field (.object ms) = .ok fs)
    (hplaced : PlacedAll catalog (some e) fs) :
    ∃ g, ofMembers catalog (some inner) (path ++ "." ++ field) {} ms = .ok g ∧
      g.Placed catalog (some inner) := by
  have hnested : nested catalog (some e) field = some inner := hinner
  rw [ofMember, hnested] at h
  obtain ⟨s, hs, h⟩ := Except.bind_eq_ok_iff.1 h
  cases s with
  | scalar => exact absurd (fits_of_shape hs e rfl) (shape?_ne_scalar hinner)
  | object =>
    obtain ⟨g, hg, h⟩ := Except.bind_eq_ok_iff.1 h
    cases h
    obtain ⟨-, hchildren⟩ := placedAll_singleton.1 hplaced
    rw [hnested] at hchildren
    exact ⟨g, hg, Group.placedAll_toChildren.1 hchildren⟩
  | element =>
    obtain ⟨g, hg, h⟩ := Except.bind_eq_ok_iff.1 h
    cases h
    obtain ⟨-, hchildren⟩ := placedAll_singleton.1 hplaced
    rw [hnested] at hchildren
    exact ⟨g, hg, Group.placedAll_toChildren.1 hchildren⟩

/-- A relationship that is null is out of place, wherever it is added. -/
theorem not_placed_of_addsNull (h : AddsNull catalog owner name e ms ms')
    (hname : owner.hasMember name) (hand : name ≠ "and") (hor : name ≠ "or")
    (hr : owner.relationship? name ≠ none) {path : String} {g g' : Group}
    (hread : ofMembers catalog (some e) path g ms' = .ok g') : ¬ g'.Placed catalog (some e) := by
  intro hplaced
  -- By the place where it is added: whatever is read around it, its comparison stays.
  induction h generalizing path g g' with
  | here before after =>
    obtain ⟨fs, hfs, hplaced⟩ := exists_ofMember_of_ofMembers hand hor hread hplaced
    rw [ofMember_null hname] at hfs
    cases hfs
    exact hr (placedAll_singleton.1 hplaced owner rfl).1
  | member before after hand hor hinner _ ih =>
    obtain ⟨fs, hfs, hplaced⟩ := exists_ofMember_of_ofMembers hand hor hread hplaced
    obtain ⟨g, hg, hplaced⟩ := exists_ofMembers_of_ofMember hinner hfs hplaced
    exact ih hg hplaced
  | item before after hlist hlast first last _ ih =>
    obtain ⟨fs, hfs, hplaced⟩ := exists_ofItems_of_ofMembers hlist hlast hread hplaced
    rw [ofItems_eq_mapM] at hfs
    obtain ⟨f, hf, hobject⟩ :=
      Except.exists_mem_of_mapM hfs (List.mem_append_right first List.mem_cons_self)
    obtain ⟨g', hg', rfl⟩ := Except.map_eq_ok_iff.1 hobject
    exact ih hg' (Group.placed_toFilter.1 (placedAll_iff.1 hplaced _ hf))

end Null

/-! ## Clients -/

/-- One filter is compiled as a list of one. -/
theorem compile_eq_ofNodes (catalog : Catalog) (e : Entity) (allowJoins : Bool) (f : Filter) :
    Predicate.compile catalog e allowJoins f = do
      let ps ← Predicate.ofNodes catalog (navigationsAll "" [f])
        ⟨some e, .root, [], "", allowJoins⟩ [f]
      return ps.headD Predicate.alwaysFalse := by
  simp only [Predicate.compile, Predicate.ofNodes, navigationsAll, List.append_nil, bind_assoc,
    pure_bind]
  congr 1
  funext p
  cases p <;> rfl

theorem validate_eq_validateAll (catalog : Catalog) (e : Entity) (f : Filter) :
    f.validate catalog e = validateAll catalog (some e) e.name [f] := by
  rw [validate, validateAll]
  cases f.validateNode catalog (some e) e.name <;> rfl

end Filter

namespace Catalog

open RoleQuery.Filter (AddsNull Interchangeable)

variable {catalog : Catalog} {e owner : Entity} {name : String} {ms ms' : Members}

/-- Filters that are read as interchangeable ones give one predicate. -/
theorem clientPredicate_congr {input input' : Json}
    (h : Except.Agree (fun f f' => Interchangeable catalog (some e) [f] [f'])
      (Filter.ofJson catalog e input) (Filter.ofJson catalog e input')) (start : Alias) :
    catalog.clientPredicate e input start = catalog.clientPredicate e input' start := by
  rw [clientPredicate, clientPredicate, clientFilter, clientFilter]
  generalize Filter.ofJson catalog e input = read at h ⊢
  generalize Filter.ofJson catalog e input' = read' at h ⊢
  cases h with
  | error fault => rfl
  | @ok f f' h =>
    have hcompile : Predicate.ofFilter catalog e f start =
        Predicate.ofFilter catalog e f' start := by
      rw [Predicate.ofFilter, Predicate.ofFilter, Filter.compile_eq_ofNodes,
        Filter.compile_eq_ofNodes, h.navigations, h.compile _ _ rfl]
    simp only [Filter.validate_eq_validateAll, h.validate]
    cases Filter.validateAll catalog (some e) e.name [f'] with
    | error fault => rfl
    | ok _ => exact congrArg (fun compiled => compiled.1.map fun p => (p, compiled.2)) hcompile

/-- A null member that is read as a list or names a field, of whatever kind, changes nothing:
the filter with it is rejected as the one without, or gives the same predicate under the same
aliases. A null member that names a relationship makes the filter invalid. -/
theorem clientPredicate_of_addsNull (h : AddsNull catalog owner name e ms ms')
    (hname : owner.hasMember name) (start : Alias) :
    (name = "and" ∨ name = "or" ∨ owner.relationship? name = none →
      catalog.clientPredicate e (.object ms') start =
        catalog.clientPredicate e (.object ms) start) ∧
    (name ≠ "and" → name ≠ "or" → owner.relationship? name ≠ none →
      ∃ fault, catalog.clientPredicate e (.object ms') start = .error (.input fault)) := by
  constructor
  · intro hneutral
    have hread := Filter.agree_of_addsNull h hname hneutral e.name {}
    exact clientPredicate_congr (Filter.agree_ofObject hread) start
  · intro hand hor hr
    rw [clientPredicate, clientFilter]
    cases hread : Filter.ofJson catalog e (.object ms') with
    | error fault => exact ⟨fault, rfl⟩
    | ok f =>
      obtain ⟨g, hg, rfl⟩ := Except.map_eq_ok_iff.1 hread
      cases hvalid : g.toFilter.validate catalog e with
      | error fault => exact ⟨fault, by simp only [hvalid]; rfl⟩
      | ok _ =>
        have hplaced := ((Filter.validateNode_eq_ok_iff catalog _ _ _).1 hvalid).1
        exact absurd (Filter.Group.placed_toFilter.1 hplaced)
          (Filter.not_placed_of_addsNull h hname hand hor hr hg)

/-- Books with a title, which may be reviewed. -/
def shelfConfig : Config where
  settings := .default
  entities :=
    [("Book", {
        object := "books"
        backend := .relational
        displayNames := none
        fields := [⟨"id", none, true, .scalar, none⟩, ⟨"title", none, false, .scalar, none⟩]
        relationships := [("reviews", ⟨"Review", .many, ["id"], ["book_id"]⟩)]
        permissions := []
        cache := none }),
      ("Review", {
        object := "reviews"
        backend := .relational
        displayNames := none
        fields := [⟨"id", none, true, .scalar, none⟩, ⟨"stars", none, false, .scalar, none⟩,
          ⟨"tags", none, false, .list, some "Tag"⟩]
        relationships := []
        permissions := []
        cache := none })]

def shelfBook : Entity :=
  (Entity.ofFields "Book" "books" .relational
    [⟨"id", "id", true, .scalar⟩, ⟨"title", "title", false, .scalar⟩]).withRelationship
    ⟨"reviews", "Review", .many, ["id"], ["book_id"]⟩

def shelfReview : Entity :=
  .ofFields "Review" "reviews" .relational
    [⟨"id", "id", true, .scalar⟩, ⟨"stars", "stars", false, .scalar⟩,
      ⟨"tags", "tags", false, .list "Tag"⟩]

def shelf : Catalog :=
  (((Catalog.empty .default).addEntity shelfBook).addEntity shelfReview).withPermissions .empty

def duneOnly : Members := [("title", .object [("eq", .str "Dune")])]

/-- Books with a review of many stars; `more` are further members of that review. -/
def praised (more : Members) : Members :=
  [("reviews", .object
    [("or", .list [.object (("stars", .object [("gt", .int 3)]) :: more)])])]

/-- A null list among the reviews changes nothing; null reviews make the filter invalid. -/
theorem clientPredicate_of_addsNull_praised :
    (AddsNull shelf shelfReview "tags" shelfBook (praised []) (praised [("tags", .null)]) ∧
      shelfReview.hasMember "tags" ∧ shelfReview.relationship? "tags" = none ∧
      shelf.clientPredicate shelfBook (.object (praised [("tags", .null)])) 1 =
        shelf.clientPredicate shelfBook (.object (praised [])) 1) ∧
    AddsNull shelf shelfBook "reviews" shelfBook duneOnly (duneOnly ++ [("reviews", .null)]) ∧
      shelfBook.hasMember "reviews" ∧ shelfBook.relationship? "reviews" ≠ none ∧
      ∃ fault, shelf.clientPredicate shelfBook (.object (duneOnly ++ [("reviews", .null)])) 1 =
        .error (.input fault) := by
  have htags : AddsNull shelf shelfReview "tags" shelfBook (praised [])
      (praised [("tags", .null)]) :=
    .member [] [] (by decide) (by decide) rfl
      (.item [] [] (.inr rfl) (by simp [Members.names]) [] []
        (.here [("stars", .object [("gt", .int 3)])] []))
  have hreviews : AddsNull shelf shelfBook "reviews" shelfBook duneOnly
      (duneOnly ++ [("reviews", .null)]) := .here duneOnly []
  refine ⟨⟨htags, rfl, rfl, ?_⟩, hreviews, rfl, by decide, ?_⟩
  · exact (clientPredicate_of_addsNull htags rfl 1).1 (.inr (.inr rfl))
  · exact (clientPredicate_of_addsNull hreviews rfl 1).2 (by decide) (by decide) (by decide)

/-- Null reviews do change something: the books of one title are found, and with null reviews
the filter is rejected. -/
theorem clientPredicate_ne_of_null_reviews :
    ofConfig shelfConfig = .ok shelf ∧ shelfBook ∈ shelf.entities ∧
      AddsNull shelf shelfBook "reviews" shelfBook duneOnly (duneOnly ++ [("reviews", .null)]) ∧
      shelfBook.hasMember "reviews" ∧
      shelf.clientPredicate shelfBook (.object duneOnly) 1 =
        .ok (.leaf ⟨.root, ["title"]⟩ .eq (some (.text "Dune")), 1) ∧
      shelf.clientPredicate shelfBook (.object (duneOnly ++ [("reviews", .null)])) 1 =
        .error (.input (.relationshipCompared "Book" "reviews" .eq)) :=
  ⟨rfl, .head _, .here duneOnly [], rfl, rfl, rfl⟩

end Catalog

end RoleQuery
