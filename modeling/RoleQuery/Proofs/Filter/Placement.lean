import RoleQuery.Proofs.Catalog.Columns
import RoleQuery.Proofs.Filter.Correctness

/-!
# Where members may stand

A member is a comparison, leads to one document or item, or leads to several. The parser reads
this off the declaration of the member, and so does the check of a filter, each in its own
order of cases. They agree: a filter passes the check if every member stands where its
declaration puts it and every operand suits its operator, and the parser puts every member
where its declaration does, unless it is null.
-/
namespace RoleQuery

/-- The shape of a member that carries a relationship. -/
def Cardinality.shape : Cardinality → Filter.Shape
  | .one => .object
  | .many => .element

/-- The shape of a field. -/
def FieldKind.shape : FieldKind → Filter.Shape
  | .scalar => .scalar
  | .object _ => .object
  | .list _ => .element

/-- The declared shape of a member: a relationship hides a field of its name. -/
def Entity.shape? (e : Entity) (field : String) : Option Filter.Shape :=
  match e.relationship? field with
  | some r => some r.cardinality.shape
  | none => (e.field? field).map (·.kind.shape)

theorem Entity.shape?_eq_scalar_iff {e : Entity} {field : String} :
    e.shape? field = some .scalar ↔
      e.relationship? field = none ∧ ∃ f, e.field? field = some f ∧ f.kind = .scalar := by
  rw [shape?]
  cases e.relationship? field with
  | some r => cases hc : r.cardinality <;> simp [Cardinality.shape, hc]
  | none =>
    cases e.field? field with
    | none => simp
    | some f => cases hf : f.kind <;> simp [FieldKind.shape, hf]

/-- The members of an entity are those that have a shape. -/
theorem Entity.isSome_shape? (e : Entity) (field : String) :
    (e.shape? field).isSome = e.hasMember field := by
  rw [shape?, hasMember]
  cases e.relationship? field <;> simp

/-- Every relationship of a configured catalog leads to an entity. -/
theorem Catalog.targetsExist_of_ofConfig {config : Config} {catalog : Catalog}
    (h : ofConfig config = .ok catalog) : catalog.TargetsExist :=
  fun _ he _ hr => (spec_of_checkRelationship (checkRelationship_of_ofConfig h he hr)).1

mutual

/-- A value in which no null occurs. -/
def Json.withoutNull : Json → Bool
  | .null => false
  | .list items => withoutNullItems items
  | .object ms => withoutNullMembers ms
  | _ => true
termination_by structural value => value

def Json.withoutNullItems : List Json → Bool
  | [] => true
  | j :: rest => j.withoutNull && withoutNullItems rest
termination_by structural items => items

def Json.withoutNullMembers : List (String × Json) → Bool
  | [] => true
  | (_, value) :: rest => value.withoutNull && withoutNullMembers rest
termination_by structural members => members

end

namespace Filter

/-! ## Declared shapes -/

section Shapes

variable {entity : Option Entity} {path field : String}

/-- A member may have a shape: its owner is unknown or declares it so. -/
def Fits (entity : Option Entity) (field : String) (s : Shape) : Prop :=
  ∀ e ∈ entity, e.shape? field = some s

/-- A member may be compared with an operand: its owner is unknown, or the member is a field
that holds scalars or is compared with null. -/
def Compares (entity : Option Entity) (field : String) (operand : Value) : Prop :=
  ∀ e ∈ entity, e.relationship? field = none ∧
    ∃ f, e.field? field = some f ∧ (f.kind = .scalar ∨ operand.isNull)

theorem Fits.compares (h : Fits entity field .scalar) (operand : Value) :
    Compares entity field operand := by
  intro e he
  obtain ⟨hr, f, hf, hkind⟩ := Entity.shape?_eq_scalar_iff.1 (h e he)
  exact ⟨hr, f, hf, .inl hkind⟩

/-- The parser gives a member of a known owner its declared shape, whatever its value. -/
theorem shape_some (e : Entity) (path field : String) (value : Json) :
    shape (some e) path field value =
      match e.shape? field with
      | some s => .ok s
      | none => .error (.unknownMember field path) := by
  rw [shape, Entity.shape?]
  cases e.relationship? field with
  | some r => cases hc : r.cardinality <;> simp [Cardinality.shape, hc]
  | none =>
    cases e.field? field with
    | none => rfl
    | some f => cases hk : f.kind <;> simp [FieldKind.shape, hk]

/-- The parser gives a member a shape that fits. -/
theorem fits_of_shape {value : Json} {s : Shape} (h : shape entity path field value = .ok s) :
    Fits entity field s := by
  rintro e ⟨⟩
  rw [shape_some] at h
  split at h
  · rename_i hs
    cases h
    exact hs
  · cases h

theorem validateCompared_eq_ok_iff {op : Operator} {operand : Value} :
    validateCompared entity path field op operand = .ok () ↔ Compares entity field operand := by
  cases entity with
  | none => simp [validateCompared, Compares]
  | some e =>
    simp only [validateCompared, Compares, Option.mem_some_iff, forall_eq']
    cases e.relationship? field with
    | some r => simp
    | none =>
      cases e.field? field with
      | none => simp
      | some f => by_cases h : f.kind = .scalar ∨ operand.isNull <;> simp [h]

theorem validateScalar_eq_ok_iff {op : Operator} {operand : Value} :
    validateScalar entity path field op operand = .ok () ↔
      Compares entity field operand ∧ op.check operand = .ok () := by
  have hcompared : validateCompared entity path field op operand = .ok () ↔
      Compares entity field operand := validateCompared_eq_ok_iff
  rw [← hcompared, validateScalar]
  cases validateCompared entity path field op operand with
  | error fault => simp
  | ok _ => cases op.check operand <;> simp [Except.mapError]

theorem validateObject_eq_ok_iff :
    validateObject entity path field = .ok () ↔ Fits entity field .object := by
  cases entity with
  | none => simp [validateObject, Fits]
  | some e =>
    simp only [validateObject, Fits, Entity.shape?, Option.mem_some_iff, forall_eq']
    cases e.relationship? field with
    | some r => cases hc : r.cardinality <;> simp [Cardinality.shape, hc]
    | none =>
      cases e.field? field with
      | none => simp
      | some f => cases hk : f.kind <;> simp [FieldKind.shape, hk]

theorem validateElement_eq_ok_iff :
    validateElement entity path field = .ok () ↔ Fits entity field .element := by
  cases entity with
  | none => simp [validateElement, Fits]
  | some e =>
    simp only [validateElement, Fits, Entity.shape?, Option.mem_some_iff, forall_eq']
    cases e.relationship? field with
    | some r => cases hc : r.cardinality <;> simp [Cardinality.shape, hc]
    | none =>
      cases e.field? field with
      | none => simp
      | some f => cases hk : f.kind <;> simp [FieldKind.shape, hk]

end Shapes

/-! ## Filters that pass the check -/

mutual

/-- Every member of a filter whose members belong to `entity` stands where
its declaration puts it. -/
def Placed (catalog : Catalog) (entity : Option Entity) : Filter → Prop
  | .scalar field _ operand => Compares entity field operand
  | .object field children =>
    Fits entity field .object ∧ PlacedAll catalog (nested catalog entity field) children
  | .element field children =>
    Fits entity field .element ∧ PlacedAll catalog (nested catalog entity field) children
  | .group fields allOf anyOf =>
    PlacedAll catalog entity fields ∧ PlacedList catalog entity allOf ∧
      PlacedList catalog entity anyOf
termination_by structural x => x

def PlacedAll (catalog : Catalog) (entity : Option Entity) : List Filter → Prop
  | [] => True
  | x :: rest => x.Placed catalog entity ∧ PlacedAll catalog entity rest
termination_by structural xs => xs

def PlacedList (catalog : Catalog) (entity : Option Entity) : Option (List Filter) → Prop
  | none => True
  | some xs => PlacedAll catalog entity xs
termination_by structural xs => xs

end

/-- Every operand of the comparisons among some nodes suits its operator. -/
def Suits (nodes : List Filter) : Prop :=
  ∀ field op operand, scalar field op operand ∈ nodes → op.check operand = .ok ()

theorem suits_nil : Suits [] ↔ True := by simp [Suits]

theorem suits_append {xs ys : List Filter} : Suits (xs ++ ys) ↔ Suits xs ∧ Suits ys := by
  simp only [Suits, List.mem_append, or_imp, forall_and]

theorem suits_scalar {field : String} {op : Operator} {operand : Value} :
    Suits [scalar field op operand] ↔ op.check operand = .ok () := by
  simp only [Suits, List.mem_singleton, scalar.injEq]
  exact ⟨fun h => h field op operand ⟨rfl, rfl, rfl⟩, by rintro h _ _ _ ⟨-, rfl, rfl⟩; exact h⟩

/-- Only comparisons have operands. -/
theorem suits_cons {x : Filter} (hx : ∀ field op operand, scalar field op operand ≠ x)
    {xs : List Filter} : Suits (x :: xs) ↔ Suits xs := by
  simp only [Suits, List.mem_cons, hx, false_or]

mutual

/-- A filter passes the check if its members are placed and its operands suit. -/
theorem validateNode_eq_ok_iff (catalog : Catalog) (entity : Option Entity) (path : String) :
    (x : Filter) → x.validateNode catalog entity path = .ok () ↔
      x.Placed catalog entity ∧ Suits x.walk
  | .scalar field op operand => by
    rw [validateNode, Placed, walk, validateScalar_eq_ok_iff, suits_scalar]
  | .object field children => by
    rw [validateNode, Placed, walk, Except.check_bind_eq_ok_iff, validateObject_eq_ok_iff,
      suits_cons (by simp), and_assoc]
    exact and_congr_right fun _ => validateAll_eq_ok_iff catalog _ _ children
  | .element field children => by
    rw [validateNode, Placed, walk, Except.check_bind_eq_ok_iff, validateElement_eq_ok_iff,
      suits_cons (by simp), and_assoc]
    exact and_congr_right fun _ => validateAll_eq_ok_iff catalog _ _ children
  | .group fields allOf anyOf => by
    rw [validateNode, Placed, walk, Except.check_bind_eq_ok_iff, Except.check_bind_eq_ok_iff,
      suits_cons (by simp), suits_append, suits_append,
      validateAll_eq_ok_iff catalog entity path fields,
      validateList_eq_ok_iff catalog entity path allOf,
      validateList_eq_ok_iff catalog entity path anyOf]
    tauto
termination_by structural x => x

/-- So do several filters. -/
theorem validateAll_eq_ok_iff (catalog : Catalog) (entity : Option Entity) (path : String) :
    (xs : List Filter) → validateAll catalog entity path xs = .ok () ↔
      PlacedAll catalog entity xs ∧ Suits (walkAll xs)
  | [] => by simp [validateAll, PlacedAll, walkAll, suits_nil]
  | x :: rest => by
    rw [validateAll, PlacedAll, walkAll, Except.check_bind_eq_ok_iff, suits_append,
      validateNode_eq_ok_iff catalog entity path x, validateAll_eq_ok_iff catalog entity path rest]
    tauto
termination_by structural xs => xs

/-- So does a list that may be absent. -/
theorem validateList_eq_ok_iff (catalog : Catalog) (entity : Option Entity) (path : String) :
    (list : Option (List Filter)) → validateList catalog entity path list = .ok () ↔
      PlacedList catalog entity list ∧ Suits (walkList list)
  | none => by simp [validateList, PlacedList, walkList, suits_nil]
  | some xs => validateAll_eq_ok_iff catalog entity path xs
termination_by structural list => list

end

/-! ## Members and their owners -/

mutual

/-- The members of a filter at any depth, each with the entity that it belongs to.
A group is no member. -/
def owned (catalog : Catalog) (entity : Option Entity) : Filter → List (Option Entity × Filter)
  | .scalar field op operand => [(entity, .scalar field op operand)]
  | .object field children =>
    (entity, .object field children) :: ownedAll catalog (nested catalog entity field) children
  | .element field children =>
    (entity, .element field children) :: ownedAll catalog (nested catalog entity field) children
  | .group fields allOf anyOf =>
    ownedAll catalog entity fields ++
      (ownedList catalog entity allOf ++ ownedList catalog entity anyOf)
termination_by structural x => x

def ownedAll (catalog : Catalog) (entity : Option Entity) :
    List Filter → List (Option Entity × Filter)
  | [] => []
  | x :: rest => owned catalog entity x ++ ownedAll catalog entity rest
termination_by structural xs => xs

def ownedList (catalog : Catalog) (entity : Option Entity) :
    Option (List Filter) → List (Option Entity × Filter)
  | none => []
  | some xs => ownedAll catalog entity xs
termination_by structural xs => xs

end

/-- No relationship is compared with null. -/
def NullsOnFields (catalog : Catalog) (e : Entity) (f : Filter) : Prop :=
  ∀ owner field op operand, (some owner, scalar field op operand) ∈ f.owned catalog (some e) →
    operand.isNull → owner.relationship? field = none

/-- A member stands where its declaration puts it. -/
def Stands (entity : Option Entity) : Filter → Prop
  | .scalar field _ operand => Compares entity field operand
  | .object field _ => Fits entity field .object
  | .element field _ => Fits entity field .element
  | .group _ _ _ => True

mutual

/-- The members of a filter are placed one by one. -/
theorem placed_iff (catalog : Catalog) (entity : Option Entity) : (x : Filter) →
    (x.Placed catalog entity ↔ ∀ m ∈ x.owned catalog entity, Stands m.1 m.2)
  | .scalar field op operand => by
    rw [Placed, owned, List.forall_mem_singleton, Stands]
  | .object field children => by
    rw [Placed, owned, List.forall_mem_cons, Stands, placedAll_iff_owned catalog _ children]
  | .element field children => by
    rw [Placed, owned, List.forall_mem_cons, Stands, placedAll_iff_owned catalog _ children]
  | .group fields allOf anyOf => by
    rw [Placed, owned, List.forall_mem_append, List.forall_mem_append,
      placedAll_iff_owned catalog entity fields, placedList_iff catalog entity allOf,
      placedList_iff catalog entity anyOf]
termination_by structural x => x

theorem placedAll_iff_owned (catalog : Catalog) (entity : Option Entity) : (xs : List Filter) →
    (PlacedAll catalog entity xs ↔ ∀ m ∈ ownedAll catalog entity xs, Stands m.1 m.2)
  | [] => by simp [PlacedAll, ownedAll]
  | x :: rest => by
    rw [PlacedAll, ownedAll, List.forall_mem_append, placed_iff catalog entity x,
      placedAll_iff_owned catalog entity rest]
termination_by structural xs => xs

theorem placedList_iff (catalog : Catalog) (entity : Option Entity) :
    (list : Option (List Filter)) →
      (PlacedList catalog entity list ↔ ∀ m ∈ ownedList catalog entity list, Stands m.1 m.2)
  | none => by simp [PlacedList, ownedList]
  | some xs => placedAll_iff_owned catalog entity xs
termination_by structural list => list

end

/-! ## Filters that the parser makes -/

section Parser

variable {catalog : Catalog} {entity : Option Entity}

theorem placedAll_iff {xs : List Filter} :
    PlacedAll catalog entity xs ↔ ∀ x ∈ xs, x.Placed catalog entity := by
  induction xs with
  | nil => simp [PlacedAll]
  | cons x rest ih => rw [PlacedAll, ih, List.forall_mem_cons]

theorem placedAll_append {xs ys : List Filter} :
    PlacedAll catalog entity (xs ++ ys) ↔
      PlacedAll catalog entity xs ∧ PlacedAll catalog entity ys := by
  simp only [placedAll_iff, List.forall_mem_append]

theorem placedAll_singleton {x : Filter} :
    PlacedAll catalog entity [x] ↔ x.Placed catalog entity := by
  rw [placedAll_iff, List.forall_mem_singleton]

/-- The members of the group read so far are placed. -/
structure Group.Placed (catalog : Catalog) (entity : Option Entity) (g : Group) : Prop where
  fields : PlacedAll catalog entity g.fields
  allOf : PlacedList catalog entity g.allOf
  anyOf : PlacedList catalog entity g.anyOf

theorem Group.placed_toFilter {g : Group} :
    g.toFilter.Placed catalog entity ↔ g.Placed catalog entity :=
  ⟨fun ⟨hfields, hall, hany⟩ => ⟨hfields, hall, hany⟩, fun h => ⟨h.fields, h.allOf, h.anyOf⟩⟩

theorem Group.placedAll_toChildren {g : Group} :
    PlacedAll catalog entity g.toChildren ↔ g.Placed catalog entity := by
  obtain ⟨fields, allOf, anyOf⟩ := g
  rw [← placed_toFilter, toChildren, toFilter, Filter.Placed]
  split
  · rw [placedAll_append, placedAll_singleton, Filter.Placed, PlacedAll, true_and]
  · rename_i hlists
    obtain ⟨rfl, rfl⟩ : allOf = none ∧ anyOf = none := by simpa using hlists
    simp [PlacedList]

theorem ownedAll_append {xs ys : List Filter} :
    ownedAll catalog entity (xs ++ ys) =
      ownedAll catalog entity xs ++ ownedAll catalog entity ys := by
  induction xs with
  | nil => rfl
  | cons x rest ih => rw [List.cons_append, ownedAll, ownedAll, ih, List.append_assoc]

theorem ownedAll_singleton {x : Filter} : ownedAll catalog entity [x] = x.owned catalog entity :=
  List.append_nil _

/-- The members of the group read so far. -/
def Group.owned (catalog : Catalog) (entity : Option Entity) (g : Group) :
    List (Option Entity × Filter) :=
  ownedAll catalog entity g.fields ++
    (ownedList catalog entity g.allOf ++ ownedList catalog entity g.anyOf)

theorem Group.ownedAll_toChildren {g : Group} :
    ownedAll catalog entity g.toChildren = g.owned catalog entity := by
  obtain ⟨fields, allOf, anyOf⟩ := g
  rw [toChildren, Group.owned]
  split
  · rw [ownedAll_append, ownedAll_singleton, Filter.owned, ownedAll, List.nil_append]
  · rename_i hlists
    obtain ⟨rfl, rfl⟩ : allOf = none ∧ anyOf = none := by simpa using hlists
    simp [ownedList]

/-- How the parser reads a member: as what it is declared to be, or, if a null may occur, as a
comparison with null of whatever it is declared to be. -/
def Reads (nulls : Prop) (entity : Option Entity) : Filter → Prop
  | .scalar field _ operand =>
    Fits entity field .scalar ∨ nulls ∧ operand.isNull ∧ ∀ e ∈ entity, e.hasMember field
  | .object field _ => Fits entity field .object
  | .element field _ => Fits entity field .element
  | .group _ _ _ => True

/-- What is read where there is no null stands where it is declared. -/
theorem Reads.stands {x : Filter} (h : Reads False entity x) : Stands entity x := by
  cases x with
  | scalar field op operand =>
    rcases h with h | ⟨hnull, -⟩
    · exact h.compares operand
    · exact hnull.elim
  | object field children => exact h
  | element field children => exact h
  | group fields allOf anyOf => trivial

variable {nulls : Prop}

theorem reads_orElse {xs ys : Option (List Filter)}
    (hxs : ∀ m ∈ ownedList catalog entity xs, Reads nulls m.1 m.2)
    (hys : ∀ m ∈ ownedList catalog entity ys, Reads nulls m.1 m.2) :
    ∀ m ∈ ownedList catalog entity (xs <|> ys), Reads nulls m.1 m.2 := by
  cases xs with
  | none => exact hys
  | some _ => exact hxs

theorem reads_of_comparisons {path field : String} (hfield : Fits entity field .scalar)
    {ms : Members} {fs : List Filter} (h : comparisons path field ms = .ok fs) :
    ∀ m ∈ ownedAll catalog entity fs, Reads nulls m.1 m.2 := by
  induction ms generalizing fs with
  | nil =>
    cases h
    exact fun m hm => absurd hm List.not_mem_nil
  | cons m rest ih =>
    obtain ⟨name, raw⟩ := m
    rw [comparisons] at h
    split at h
    · cases h
    · split at h
      · cases h
      · obtain ⟨others, hothers, rfl⟩ := Except.map_eq_ok_iff.1 h
        rw [ownedAll, List.forall_mem_append, owned, List.forall_mem_singleton]
        exact ⟨.inl hfield, ih hothers⟩

mutual

/-- What a member writes is read as it is declared. -/
theorem reads_of_ofMember (entity : Option Entity) (path field : String) :
    (value : Json) → nulls ∨ value.withoutNull → ∀ fs,
      ofMember catalog entity path field value = .ok fs →
        ∀ m ∈ ownedAll catalog entity fs, Reads nulls m.1 m.2
  | .null, hvalue, fs, h => by
    obtain ⟨s, hs, h⟩ := Except.bind_eq_ok_iff.1 h
    cases h
    rw [ownedAll_singleton, owned, List.forall_mem_singleton]
    refine .inr ⟨hvalue.resolve_right (by simp [Json.withoutNull]), rfl, fun e he => ?_⟩
    rw [← Entity.isSome_shape?, fits_of_shape hs e he, Option.isSome_some]
  | .object ms, hvalue, fs, h => by
    rw [ofMember] at h
    obtain ⟨s, hs, h⟩ := Except.bind_eq_ok_iff.1 h
    have hfits := fits_of_shape hs
    cases s with
    | scalar =>
      simp only at h
      split at h
      · cases h
      · exact reads_of_comparisons hfits h
    | object =>
      obtain ⟨g, hg, h⟩ := Except.bind_eq_ok_iff.1 h
      cases h
      rw [ownedAll_singleton, owned, List.forall_mem_cons, Group.ownedAll_toChildren]
      exact ⟨hfits, reads_of_ofMembers _ _ ms hvalue {} (fun m hm => nomatch hm) g hg⟩
    | element =>
      obtain ⟨g, hg, h⟩ := Except.bind_eq_ok_iff.1 h
      cases h
      rw [ownedAll_singleton, owned, List.forall_mem_cons, Group.ownedAll_toChildren]
      exact ⟨hfits, reads_of_ofMembers _ _ ms hvalue {} (fun m hm => nomatch hm) g hg⟩
  | .bool _, _, _, h | .int _, _, _, h | .float _, _, _, h | .str _, _, _, h
  | .list _, _, _, h => by
    obtain ⟨_, -, h⟩ := Except.bind_eq_ok_iff.1 h
    cases h
termination_by structural value => value

theorem reads_of_ofList (entity : Option Entity) (path name : String) :
    (value : Json) → nulls ∨ value.withoutNull → ∀ fs,
      ofList catalog entity path name value = .ok fs →
        ∀ m ∈ ownedList catalog entity fs, Reads nulls m.1 m.2
  | .null, _, _, h => by
    cases h
    exact fun m hm => absurd hm List.not_mem_nil
  | .list items, hvalue, fs, h => by
    obtain ⟨xs, hxs, rfl⟩ := Except.map_eq_ok_iff.1 h
    exact reads_of_ofItems entity path items hvalue xs hxs
  | .bool _, _, _, h | .int _, _, _, h | .float _, _, _, h | .str _, _, _, h
  | .object _, _, _, h => by cases h
termination_by structural value => value

theorem reads_of_ofObject (entity : Option Entity) (path : String) :
    (value : Json) → nulls ∨ value.withoutNull → ∀ f,
      ofObject catalog entity path value = .ok f →
        ∀ m ∈ f.owned catalog entity, Reads nulls m.1 m.2
  | .object ms, hvalue, f, h => by
    obtain ⟨g, hg, rfl⟩ := Except.map_eq_ok_iff.1 h
    exact reads_of_ofMembers entity path ms hvalue {} (fun m hm => nomatch hm) g hg
  | .null, _, _, h | .bool _, _, _, h | .int _, _, _, h | .float _, _, _, h | .str _, _, _, h
  | .list _, _, _, h => by cases h
termination_by structural value => value

theorem reads_of_ofItems (entity : Option Entity) (path : String) :
    (items : List Json) → nulls ∨ Json.withoutNullItems items → ∀ fs,
      ofItems catalog entity path items = .ok fs →
        ∀ m ∈ ownedAll catalog entity fs, Reads nulls m.1 m.2
  | [], _, _, h => by
    cases h
    exact fun m hm => absurd hm List.not_mem_nil
  | j :: rest, hitems, fs, h => by
    have hj := hitems.imp_right fun h => (Bool.and_eq_true_iff.1 h).1
    have hrest := hitems.imp_right fun h => (Bool.and_eq_true_iff.1 h).2
    obtain ⟨x, hx, h⟩ := Except.bind_eq_ok_iff.1 h
    obtain ⟨others, hothers, h⟩ := Except.bind_eq_ok_iff.1 h
    cases h
    rw [ownedAll, List.forall_mem_append]
    exact ⟨reads_of_ofObject entity path j hj x hx,
      reads_of_ofItems entity path rest hrest others hothers⟩
termination_by structural items => items

/-- So is what members write that follow those already read. -/
theorem reads_of_ofMembers (entity : Option Entity) (path : String) :
    (members : List (String × Json)) → nulls ∨ Json.withoutNullMembers members → ∀ g : Group,
      (∀ m ∈ g.owned catalog entity, Reads nulls m.1 m.2) → ∀ g',
        ofMembers catalog entity path g members = .ok g' →
          ∀ m ∈ g'.owned catalog entity, Reads nulls m.1 m.2
  | [], _, _, hg, _, h => by
    cases h
    exact hg
  | (name, value) :: rest, hmembers, g, hg, g', h => by
    have hvalue := hmembers.imp_right fun h => (Bool.and_eq_true_iff.1 h).1
    have hrest := hmembers.imp_right fun h => (Bool.and_eq_true_iff.1 h).2
    rw [Group.owned, List.forall_mem_append, List.forall_mem_append] at hg
    obtain ⟨hfields, hall, hany⟩ := hg
    rw [ofMembers] at h
    -- A later list of a name takes the place of an earlier one; both are read so.
    split at h
    · obtain ⟨fs, hfs, h⟩ := Except.bind_eq_ok_iff.1 h
      have hlist := reads_of_ofList entity path name value hvalue fs hfs
      refine reads_of_ofMembers entity path rest hrest _ ?_ g' h
      rw [Group.owned, List.forall_mem_append, List.forall_mem_append]
      exact ⟨hfields, reads_orElse hlist hall, hany⟩
    · split at h
      · obtain ⟨fs, hfs, h⟩ := Except.bind_eq_ok_iff.1 h
        have hlist := reads_of_ofList entity path name value hvalue fs hfs
        refine reads_of_ofMembers entity path rest hrest _ ?_ g' h
        rw [Group.owned, List.forall_mem_append, List.forall_mem_append]
        exact ⟨hfields, hall, reads_orElse hlist hany⟩
      · obtain ⟨fs, hfs, h⟩ := Except.bind_eq_ok_iff.1 h
        have hmember := reads_of_ofMember entity path name value hvalue fs hfs
        refine reads_of_ofMembers entity path rest hrest _ ?_ g' h
        rw [Group.owned, ownedAll_append, List.forall_mem_append, List.forall_mem_append,
          List.forall_mem_append]
        exact ⟨⟨hfields, hmember⟩, hall, hany⟩
termination_by structural members => members

end

end Parser

section Inputs

variable {catalog : Catalog} {e : Entity} {input : Json} {f : Filter}

/-- The parser places the members of a filter without null. -/
theorem placed_of_ofJson (hinput : input.withoutNull) (h : ofJson catalog e input = .ok f) :
    f.Placed catalog (some e) :=
  (placed_iff catalog (some e) f).2 fun m hm =>
    (reads_of_ofObject (some e) e.name input (.inr hinput) f h m hm).stands

/-- The parser places the members of a filter, but for relationships that are null. -/
theorem placed_iff_of_ofJson (h : ofJson catalog e input = .ok f) :
    f.Placed catalog (some e) ↔ f.NullsOnFields catalog e := by
  rw [placed_iff]
  constructor
  · intro hstands owner field op operand hm _
    exact (hstands _ hm owner rfl).1
  · rintro hnulls ⟨entity, x⟩ hm
    have hread := reads_of_ofObject (some e) e.name input (.inl trivial) f h _ hm
    cases x with
    | scalar field op operand =>
      rcases hread with hfits | ⟨-, hnull, hmember⟩
      · exact hfits.compares operand
      · rintro owner ⟨⟩
        have hr := hnulls owner field op operand hm hnull
        have hfield := hmember owner rfl
        rw [Entity.hasMember, hr, Option.isSome_none, Bool.or_false, Option.isSome_iff_exists]
          at hfield
        obtain ⟨field', hfield'⟩ := hfield
        exact ⟨hr, field', hfield', .inr hnull⟩
    | object field children => exact hread
    | element field children => exact hread
    | group fields allOf anyOf => trivial

end Inputs

/-! ## Agreement -/

/-- Of a configured catalog, a filter that passes the check compiles from whichever alias, for
reading and for writing. What the parser makes of a value without null passes the check if its
operands suit their operators. -/
theorem passes_agree {config : Config} {catalog : Catalog}
    (hconfig : Catalog.ofConfig config = .ok catalog) {e : Entity} (he : e ∈ catalog.entities) :
    (∀ f : Filter, f.validate catalog e = .ok () →
      (∀ start, ∃ p, (Predicate.ofFilter catalog e f start).1 = .ok p) ∧
        ∃ p, Predicate.ofWritePolicy catalog e f = .ok p) ∧
    ∀ (input : Json) (f : Filter), input.withoutNull → ofJson catalog e input = .ok f →
      (f.validate catalog e = .ok () ↔
        ∀ field op operand, scalar field op operand ∈ f.walk → op.check operand = .ok ()) := by
  constructor
  · intro f hvalid
    have hexpressible := (orDangling_of_validate he hvalid).eq_ok
      (Catalog.targetsExist_of_ofConfig hconfig)
    have hcompiles (allowJoins : Bool) (start : Alias) :
        ∃ p, ((Predicate.compile catalog e allowJoins f).run start).1 = .ok p := by
      obtain ⟨p, hp, -⟩ :=
        (Predicate.yields_compile catalog e allowJoins f).run_ok hexpressible start
      exact ⟨p, hp⟩
    exact ⟨fun start => hcompiles true (firstAlias start), hcompiles false 1⟩
  · intro input f hinput hf
    rw [validate, validateNode_eq_ok_iff]
    exact and_iff_right (placed_of_ofJson hinput hf)

/-- Stars with a disc of a type that is not configured, and their planets with moons. -/
def skyConfig : Config where
  settings := .default
  entities :=
    [("Planet", {
        object := "planets"
        backend := .hierarchical
        displayNames := none
        fields := [⟨"id", none, true, .scalar, none⟩, ⟨"moons", none, false, .list, some "Moon"⟩]
        relationships := [("star", ⟨"Star", .one, ["star_id"], ["id"]⟩)]
        permissions := []
        cache := none }),
      ("Star", {
        object := "stars"
        backend := .hierarchical
        displayNames := none
        fields := [⟨"id", none, true, .scalar, none⟩, ⟨"name", none, false, .scalar, none⟩,
          ⟨"disc", none, false, .object, some "Disc"⟩]
        relationships := [("planets", ⟨"Planet", .many, ["id"], ["star_id"]⟩)]
        permissions := []
        cache := none })]

def skyPlanet : Entity :=
  (Entity.ofFields "Planet" "planets" .hierarchical
    [⟨"id", "id", true, .scalar⟩, ⟨"moons", "moons", false, .list "Moon"⟩]).withRelationship
    ⟨"star", "Star", .one, ["star_id"], ["id"]⟩

def skyStar : Entity :=
  (Entity.ofFields "Star" "stars" .hierarchical
    [⟨"id", "id", true, .scalar⟩, ⟨"name", "name", false, .scalar⟩,
      ⟨"disc", "disc", false, .object "Disc"⟩]).withRelationship
    ⟨"planets", "Planet", .many, ["id"], ["star_id"]⟩

def sky : Catalog :=
  (((Catalog.empty .default).addEntity skyPlanet).addEntity skyStar).withPermissions .empty

/-- Stars with coarse dust in their discs, and a planet with a small moon or
of a star of that name. -/
def dustyInput : Json :=
  .object [("disc", .object [("dust", .object [("size", .object [("gt", .int 3)])])]),
    ("planets", .object [("or", .list [
      .object [("moons", .object [("radius", .object [("lt", .int 2)])])],
      .object [("star", .object [("name", .object [("startsWith", .str "Sol")])])]])])]

def dusty : Filter :=
  .group
    [.object "disc" [.object "dust" [.scalar "size" .gt (.integer 3)]],
      .element "planets" [.group [] none (some
        [.group [.element "moons" [.scalar "radius" .lt (.integer 2)]] none none,
          .group [.object "star" [.scalar "name" .startsWith (.text "Sol")]] none none])]]
    none none

/-- The filter of dusty stars is read, passes the check and compiles. -/
theorem passes_agree_dusty :
    Catalog.ofConfig skyConfig = .ok sky ∧ skyStar ∈ sky.entities ∧ dustyInput.withoutNull ∧
      ofJson sky skyStar dustyInput = .ok dusty ∧ dusty.validate sky skyStar = .ok () ∧
      (∃ p, (Predicate.ofFilter sky skyStar dusty 1).1 = .ok p) ∧
      ∃ p, Predicate.ofWritePolicy sky skyStar dusty = .ok p := by
  have hconfig : Catalog.ofConfig skyConfig = .ok sky := rfl
  have hstar : skyStar ∈ sky.entities := .tail _ (.head _)
  have hinput : dustyInput.withoutNull := rfl
  have hdusty : ofJson sky skyStar dustyInput = .ok dusty := rfl
  obtain ⟨hcompiles, hvalid⟩ := passes_agree hconfig hstar
  have hchecked : dusty.validate sky skyStar = .ok () := by
    refine (hvalid dustyInput dusty hinput hdusty).2 fun field op operand hmem => ?_
    simp only [dusty, walk, walkAll, walkList, List.append_nil, List.nil_append, List.cons_append,
      List.mem_cons, scalar.injEq, reduceCtorEq, List.not_mem_nil, false_or, or_false] at hmem
    obtain ⟨-, rfl, rfl⟩ | ⟨-, rfl, rfl⟩ | ⟨-, rfl, rfl⟩ := hmem <;> rfl
  obtain ⟨hread, hwrite⟩ := hcompiles dusty hchecked
  exact ⟨hconfig, hstar, hinput, hdusty, hchecked, hread 1, hwrite⟩

end Filter

end RoleQuery
