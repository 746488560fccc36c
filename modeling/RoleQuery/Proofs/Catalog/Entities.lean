import RoleQuery.Catalog.Basic

/-!
# Finding entities

An entity that the catalog finds is one of its entities, and is found by its own name. The
owner of nested values is found so too, be it as the target of a relationship, as the entity
of a type or as the entity of a hint. A hint counts only where there is neither a
relationship nor a type.
-/
namespace RoleQuery.Catalog

variable {catalog : Catalog} {e inner : Entity} {name field : String} {hint : Option String}

theorem name_of_entity? (h : catalog.entity? name = some e) : e.name = name := by
  rw [entity?] at h
  simpa using List.find?_some h

theorem mem_entities_of_entity? (h : catalog.entity? name = some e) : e ∈ catalog.entities :=
  List.mem_of_find?_eq_some h

/-- The owner below a relationship is its target, whatever the hint. -/
theorem nestedEntity?_relationship {r : Relationship} (h : e.relationship? field = some r)
    (hint : Option String) : catalog.nestedEntity? e field hint = catalog.entity? r.target := by
  simp only [nestedEntity?, h]

/-- The owner below a field is the entity of its type. -/
theorem nestedEntity?_field {f : Field} (hr : e.relationship? field = none)
    (hf : e.field? field = some f) :
    catalog.nestedEntity? e field = f.kind.type?.bind catalog.entityForType? := by
  simp only [nestedEntity?, hr, hf, Option.bind_some, Option.bind_none, Option.orElse_eq_orElse,
    Option.orElse_eq_or, Option.or_none]

/-- A hint does not change the owner below a member whose type is known. -/
theorem nestedEntity?_hint (h : catalog.nestedEntity? e field = some inner) (hint : Option String) :
    catalog.nestedEntity? e field hint = some inner := by
  unfold nestedEntity? at h ⊢
  cases hr : e.relationship? field with
  | some r => simpa only [hr] using h
  | none =>
    simp only [hr, Option.bind_none, Option.orElse_eq_orElse, Option.orElse_eq_or,
      Option.or_none] at h
    simp only [h, Option.orElse_eq_orElse, Option.orElse_eq_or, Option.some_or]

/-- The entity of a type is found by a name. -/
theorem exists_entity?_of_type {type : Option String}
    (h : type.bind catalog.entityForType? = some inner) :
    ∃ name, catalog.entity? name = some inner := by
  obtain ⟨type, -, h⟩ := Option.bind_eq_some_iff.1 h
  rw [entityForType?, Option.orElse_eq_orElse, Option.orElse_eq_or, Option.or_eq_some_iff] at h
  rcases h with h | ⟨-, h⟩
  · exact ⟨type, h⟩
  · obtain ⟨name, -, h⟩ := Option.bind_eq_some_iff.1 h
    exact ⟨name, h⟩

theorem mem_entities_of_type {type : Option String}
    (h : type.bind catalog.entityForType? = some inner) : inner ∈ catalog.entities := by
  obtain ⟨name, h⟩ := exists_entity?_of_type h
  exact mem_entities_of_entity? h

/-- The owner of nested values is found by a name. -/
theorem exists_entity?_of_nestedEntity? (h : catalog.nestedEntity? e field hint = some inner) :
    ∃ name, catalog.entity? name = some inner := by
  unfold nestedEntity? at h
  cases hr : e.relationship? field with
  | some r =>
    rw [hr] at h
    exact ⟨r.target, h⟩
  | none =>
    rw [hr, Option.orElse_eq_orElse, Option.orElse_eq_or, Option.or_eq_some_iff] at h
    rcases h with h | ⟨-, h⟩
    · exact exists_entity?_of_type h
    · exact exists_entity?_of_type h

theorem mem_entities_of_nestedEntity? (h : catalog.nestedEntity? e field hint = some inner) :
    inner ∈ catalog.entities := by
  obtain ⟨name, h⟩ := exists_entity?_of_nestedEntity? h
  exact mem_entities_of_entity? h

/-- The owner of nested values is found by its own name. -/
theorem entity?_of_nestedEntity? (h : catalog.nestedEntity? e field hint = some inner) :
    catalog.entity? inner.name = some inner := by
  obtain ⟨name, h⟩ := exists_entity?_of_nestedEntity? h
  rw [name_of_entity? h, h]

end RoleQuery.Catalog
