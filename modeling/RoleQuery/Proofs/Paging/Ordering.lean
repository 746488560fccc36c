import RoleQuery.Proofs.Catalog.Columns
import RoleQuery.Proofs.Paging.Continuation
import RoleQuery.Proofs.Paging.FollowUp
import Mathlib.Data.List.Forall2

/-!
# Orderings and the names of fields

No two fields of a configured entity share a column, but nothing keeps them from sharing a
name, or a relationship from having the name of a field. A name that several fields share
stands for the last of them. An ordering is put together by names, so a field of the primary
key whose name stands for another field may be missing from it, and the rest of the ordering
tells the rows apart only if the rest of the key does.
-/
namespace RoleQuery

/-! ## Fields by name -/

namespace Entity

variable {e : Entity} {f : Field}

/-- A field is found by its column. -/
theorem fieldOfColumn?_of_mem (hcolumns : (e.fields.map (·.column)).Nodup) (hf : f ∈ e.fields) :
    e.fieldOfColumn? f.column = some f := by
  rw [fieldOfColumn?]
  have hsome : (e.fields.reverse.find? (·.column = f.column)).isSome :=
    List.find?_isSome.2 ⟨f, List.mem_reverse.2 hf, decide_eq_true rfl⟩
  obtain ⟨g, hg⟩ := Option.isSome_iff_exists.1 hsome
  have hmem : g ∈ e.fields := List.mem_reverse.1 (List.mem_of_find?_eq_some hg)
  have hsame : g.column = f.column := by simpa using List.find?_some hg
  rw [hg, List.inj_on_of_nodup_map hcolumns hmem hf hsame]

/-- A field that shares its name with no other is found by it. -/
theorem field?_of_mem (hnames : (e.fields.map (·.name)).Nodup) (hf : f ∈ e.fields) :
    e.field? f.name = some f := by
  have hsome : (e.field? f.name).isSome :=
    List.find?_isSome.2 ⟨f, List.mem_reverse.2 hf, decide_eq_true rfl⟩
  obtain ⟨g, hg⟩ := Option.isSome_iff_exists.1 hsome
  rw [hg, List.inj_on_of_nodup_map hnames (mem_fields_of_field? hg) hf (name_of_field? hg)]

/-- All fields are found by their names if and only if these differ. -/
theorem field?_iff_nodup (hcolumns : (e.fields.map (·.column)).Nodup) :
    (∀ f ∈ e.fields, e.field? f.name = some f) ↔ (e.fields.map (·.name)).Nodup := by
  refine ⟨fun h => ?_, fun hnames f hf => field?_of_mem hnames hf⟩
  refine List.Nodup.map_on (fun f hf g hg hname => ?_) hcolumns.of_map
  have hfound := h f hf
  rw [hname, h g hg] at hfound
  exact (Option.some.inj hfound).symm

end Entity

/-! ## The first of each name -/

section firstBy

variable {α : Type} (name : α → String)

/-- The first of the elements of each name, in their order. -/
def firstBy : List α → List α
  | [] => []
  | x :: xs => x :: (firstBy xs).filter fun y => name y ≠ name x

theorem nodup_firstBy (xs : List α) : ((firstBy name xs).map name).Nodup := by
  induction xs with
  | nil => exact List.nodup_nil
  | cons x xs ih =>
    rw [firstBy, List.map_cons, List.nodup_cons]
    refine ⟨fun h => ?_, ih.sublist (List.filter_sublist.map name)⟩
    obtain ⟨y, hy, hname⟩ := List.mem_map.1 h
    exact of_decide_eq_true (List.mem_filter.1 hy).2 hname

/-- An element is the first of its name if it is the one that is found. -/
theorem mem_firstBy_iff {x : α} {xs : List α} :
    x ∈ firstBy name xs ↔ xs.find? (fun y => name y = name x) = some x := by
  induction xs with
  | nil => simp [firstBy]
  | cons y ys ih =>
    rw [firstBy, List.mem_cons, List.mem_filter, ih, List.find?_cons]
    by_cases h : name y = name x
    · simp [h, eq_comm]
    · have hne : x ≠ y := fun hxy => h (congrArg name hxy.symm)
      simp [h, hne, Ne.symm h]

theorem mem_map_firstBy {n : String} {xs : List α} :
    n ∈ (firstBy name xs).map name ↔ n ∈ xs.map name := by
  induction xs with
  | nil => rfl
  | cons y ys ih =>
    simp only [firstBy, List.map_cons, List.mem_cons]
    by_cases h : n = name y
    · simp [h]
    · simp only [h, false_or, ← ih, List.mem_map, List.mem_filter, decide_eq_true_eq]
      exact ⟨fun ⟨x, hx, hn⟩ => ⟨x, hx.1, hn⟩,
        fun ⟨x, hx, hn⟩ => ⟨x, ⟨hx, fun hxy => h (hn.symm.trans hxy)⟩, hn⟩⟩

/-- Of the first of each name, those whose names are new: the head
counts as known afterwards. -/
theorem filter_firstBy_cons (known : String → Bool) (x : α) (xs : List α) :
    (firstBy name (x :: xs)).filter (fun y => !known (name y)) =
      if known (name x) then (firstBy name xs).filter fun y => !known (name y)
      else x :: (firstBy name xs).filter fun y =>
        !(known (name y) || decide (name x = name y)) := by
  rw [firstBy, List.filter_cons, List.filter_filter]
  by_cases hx : known (name x)
  · rw [if_neg (by simp [hx]), if_pos hx]
    refine List.filter_congr fun y _ => ?_
    by_cases hy : name y = name x <;> simp [hy, hx]
  · rw [if_pos (by simpa using hx), if_neg hx]
    refine congrArg (x :: ·) (List.filter_congr fun y _ => ?_)
    simp [eq_comm]

end firstBy

/-! ## The keys of an ordering -/

namespace Pagination

variable {e : Entity} {orderBy : List OrderBy} {keys order : List OrderKey}

/-- The key of a requested field: its column, in the direction that is asked for. -/
def Requests (e : Entity) (requested : OrderBy) (key : OrderKey) : Prop :=
  ∃ f, e.field? requested.field = some f ∧ f.kind = .scalar ∧
    key = ⟨f.name, f.column, requested.direction, !f.isKey⟩

theorem Requests.field_eq {requested : OrderBy} {key : OrderKey} (h : Requests e requested key) :
    key.field = requested.field := by
  obtain ⟨f, hf, -, rfl⟩ := h
  exact Entity.name_of_field? hf

/-- The key of a field of the primary key that is not requested. -/
def keyOf (f : Field) : OrderKey :=
  ⟨f.name, f.column, .asc, false⟩

/-- The requests for fields that have no key yet follow the keys there are. -/
theorem requestedKeys_eq (h : requestedKeys e keys orderBy = .ok order) :
    ∃ requested, order = keys ++ requested ∧
      List.Forall₂ (Requests e) ((firstBy OrderBy.field orderBy).filter
        fun r => !keys.any (·.field = r.field)) requested := by
  induction orderBy generalizing keys with
  | nil =>
    cases h
    exact ⟨[], (List.append_nil order).symm, .nil⟩
  | cons r rest ih =>
    rw [requestedKeys] at h
    rw [filter_firstBy_cons _ fun n => keys.any (·.field = n)]
    cases hf : e.field? r.field with
    | none => rw [hf] at h; cases h
    | some f =>
      rw [hf] at h
      simp only [Entity.name_of_field? hf] at h
      split_ifs at h with hkind hknown
      · rw [if_pos hknown]
        exact ih h
      · rw [if_neg hknown]
        obtain ⟨requested, rfl, hrequested⟩ := ih h
        refine ⟨_ :: requested, List.append_assoc .., .cons ⟨f, hf, not_not.1 hkind, ?_⟩ ?_⟩
        · rw [Entity.name_of_field? hf]
        · simpa only [List.any_append, List.any_cons, List.any_nil, Bool.or_false] using hrequested

/-- The fields of the primary key that have no key yet follow the keys there are. -/
theorem withPrimaryKey_eq (fields : List Field) (keys : List OrderKey) :
    withPrimaryKey keys fields = keys ++
      ((firstBy Field.name fields).filter fun f => !keys.any (·.field = f.name)).map keyOf := by
  induction fields generalizing keys with
  | nil => exact (List.append_nil keys).symm
  | cons f rest ih =>
    rw [withPrimaryKey, ih, filter_firstBy_cons _ fun n => keys.any (·.field = n)]
    by_cases hknown : keys.any (·.field = f.name)
    · rw [if_pos hknown, if_pos hknown]
    · rw [if_neg hknown, if_neg hknown, List.append_assoc, List.map_cons]
      simp only [List.any_append, List.any_cons, List.any_nil, Bool.or_false]
      rfl

theorem map_field_of_requests {requests : List OrderBy}
    (h : List.Forall₂ (Requests e) requests keys) :
    keys.map (·.field) = requests.map (·.field) := by
  induction h with
  | nil => rfl
  | cons hkey _ ih => rw [List.map_cons, List.map_cons, hkey.field_eq, ih]

/-- An ordering: the requests, each field once, then the fields of the primary key
that are not among them. -/
theorem resolveOrder_eq (h : resolveOrder e orderBy = .ok order) :
    ∃ requested, List.Forall₂ (Requests e) (firstBy OrderBy.field orderBy) requested ∧
      order = requested ++ ((firstBy Field.name e.key).filter
        fun f => f.name ∉ orderBy.map (·.field)).map keyOf := by
  obtain ⟨requested, hkeys, rfl⟩ := Except.map_eq_ok_iff.1 h
  obtain ⟨_, rfl, hrequested⟩ := requestedKeys_eq hkeys
  simp only [List.any_nil, Bool.not_false, List.filter_true] at hrequested
  refine ⟨requested, hrequested, ?_⟩
  rw [withPrimaryKey_eq]
  refine congrArg (requested ++ List.map keyOf ·) (List.filter_congr fun f _ => ?_)
  have hknown : requested.any (·.field = f.name) ↔ f.name ∈ orderBy.map (·.field) := by
    rw [← mem_map_firstBy, ← map_field_of_requests hrequested, List.any_eq_true, List.mem_map]
    simp only [decide_eq_true_eq]
  rw [Bool.eq_iff_iff, Bool.not_eq_true', ← Bool.not_eq_true, hknown, decide_eq_true_eq]

/-- No name of a field occurs twice in an ordering. -/
theorem nodup_field_of_resolveOrder (h : resolveOrder e orderBy = .ok order) :
    (order.map (·.field)).Nodup := by
  obtain ⟨requested, hrequested, rfl⟩ := resolveOrder_eq h
  rw [List.map_append, List.map_map, map_field_of_requests hrequested, List.nodup_append']
  refine ⟨nodup_firstBy _ _, (nodup_firstBy Field.name e.key).sublist
    (List.filter_sublist.map Field.name), fun n hn hkey => ?_⟩
  obtain ⟨f, hf, rfl⟩ := List.mem_map.1 hkey
  exact of_decide_eq_true (List.mem_filter.1 hf).2 ((mem_map_firstBy OrderBy.field).1 hn)

/-- Keys of different names stand for different columns. -/
theorem KeysOf.nodup_column {fields : List Field} (hkeys : KeysOf fields keys)
    (hcolumns : (fields.map (·.column)).Nodup) (hfields : (keys.map (·.field)).Nodup) :
    (keys.map (·.column)).Nodup := by
  refine List.Nodup.map_on (fun key hkey other hother hcolumn => ?_) hfields.of_map
  obtain ⟨f, hf, hfield, hf'⟩ := hkeys key hkey
  obtain ⟨g, hg, hgfield, hg'⟩ := hkeys other hother
  have hfg : f = g :=
    List.inj_on_of_nodup_map hcolumns hf hg (hf'.symm.trans (hcolumn.trans hg'))
  exact List.inj_on_of_nodup_map hfields hkey hother (by rw [hfield, hgfield, hfg])

/-- No column occurs twice in an ordering. -/
theorem nodup_column_of_resolveOrder (hcolumns : (e.fields.map (·.column)).Nodup)
    (h : resolveOrder e orderBy = .ok order) : (order.map (·.column)).Nodup := by
  have hkeys : KeysOf e.fields order := fun key hkey =>
    let ⟨f, hf, _, hfield⟩ := exists_field_of_resolveOrder h hkey
    ⟨f, hf, hfield⟩
  exact hkeys.nodup_column hcolumns (nodup_field_of_resolveOrder h)

/-- The requested columns are those of the fields that requested names stand for. -/
theorem mem_column_iff_of_requests (hcolumns : (e.fields.map (·.column)).Nodup)
    {requests : List OrderBy} (h : List.Forall₂ (Requests e) requests keys) {f : Field}
    (hf : f ∈ e.fields) :
    f.column ∈ keys.map (·.column) ↔
      f.name ∈ requests.map (·.field) ∧ e.field? f.name = some f := by
  induction h with
  | nil => simp
  | @cons r key requests keys hkey _ ih =>
    obtain ⟨g, hg, -, rfl⟩ := hkey
    have hhead : f.column = g.column ↔ f.name = r.field ∧ e.field? f.name = some f := by
      refine ⟨fun hcolumn => ?_, fun ⟨hname, hfound⟩ => ?_⟩
      · obtain rfl : f = g :=
          List.inj_on_of_nodup_map hcolumns hf (Entity.mem_fields_of_field? hg) hcolumn
        have hname := Entity.name_of_field? hg
        exact ⟨hname, hname ▸ hg⟩
      · rw [hname, hg] at hfound
        rw [Option.some.inj hfound]
    rw [List.map_cons, List.map_cons, List.mem_cons, List.mem_cons, hhead, ih, or_and_right]

/-- A column of the primary key is part of an ordering if the name of its field stands for
that field: among all fields if it is requested, among those of the primary key otherwise. -/
theorem mem_column_iff (hcolumns : (e.fields.map (·.column)).Nodup)
    (h : resolveOrder e orderBy = .ok order) {f : Field} (hf : f ∈ e.key) :
    f.column ∈ order.map (·.column) ↔
      if f.name ∈ orderBy.map (·.field) then e.field? f.name = some f
      else e.key.find? (·.name = f.name) = some f := by
  obtain ⟨requested, hrequested, rfl⟩ := resolveOrder_eq h
  have hmem : f ∈ e.fields := (List.mem_filter.1 hf).1
  let rest := (firstBy Field.name e.key).filter fun f => f.name ∉ orderBy.map (·.field)
  have hrest : f.column ∈ (rest.map keyOf).map (·.column) ↔ f ∈ rest := by
    rw [List.map_map, List.mem_map]
    refine ⟨fun ⟨g, hg, hcolumn⟩ => ?_, fun hf => ⟨f, hf, rfl⟩⟩
    have hkey : g ∈ e.key := List.mem_of_find?_eq_some
      ((mem_firstBy_iff Field.name).1 (List.mem_filter.1 hg).1)
    rwa [List.inj_on_of_nodup_map hcolumns hmem (List.mem_filter.1 hkey).1 hcolumn.symm]
  rw [List.map_append, List.mem_append, hrest, mem_column_iff_of_requests hcolumns hrequested hmem,
    mem_map_firstBy, List.mem_filter, mem_firstBy_iff, decide_eq_true_eq]
  split_ifs with hname <;> simp [hname]

/-- What an ordering of an entity is for a list of requests. -/
structure Orders (e : Entity) (orderBy : List OrderBy) (order : List OrderKey) : Prop where
  /-- No column occurs twice. -/
  columns : (order.map (·.column)).Nodup
  /-- The requested fields come first, in the order and the direction of their first requests;
  fields of the primary key that are not requested follow. -/
  requested : ∃ (keys : List OrderKey) (rest : List Field), order = keys ++ rest.map keyOf ∧
    List.Forall₂ (Requests e) (firstBy OrderBy.field orderBy) keys ∧
    ∀ f ∈ rest, f ∈ e.key ∧ f.name ∉ orderBy.map (·.field)
  /-- A column of the primary key is missing where the name of its
  field stands for another. -/
  primaryKey : ∀ f ∈ e.key, f.column ∈ order.map (·.column) ↔
    if f.name ∈ orderBy.map (·.field) then e.field? f.name = some f
    else e.key.find? (·.name = f.name) = some f
  /-- Each column of the primary key occurs once, if each of its names
  stands for its own field. -/
  total : (∀ f ∈ e.key, e.field? f.name = some f) →
    ∀ f ∈ e.key, (order.map (·.column)).count f.column = 1

theorem orders_of_resolveOrder (hcolumns : (e.fields.map (·.column)).Nodup)
    (h : resolveOrder e orderBy = .ok order) : Orders e orderBy order where
  columns := nodup_column_of_resolveOrder hcolumns h
  requested := by
    obtain ⟨keys, hkeys, rfl⟩ := resolveOrder_eq h
    refine ⟨keys, _, rfl, hkeys, fun f hf => ?_⟩
    obtain ⟨hfirst, hname⟩ := List.mem_filter.1 hf
    have hfound := (mem_firstBy_iff Field.name).1 hfirst
    exact ⟨List.mem_of_find?_eq_some hfound, of_decide_eq_true hname⟩
  primaryKey _ hf := mem_column_iff hcolumns h hf
  total hnames f hf := by
    refine List.count_eq_one_of_mem (nodup_column_of_resolveOrder hcolumns h) ?_
    rw [mem_column_iff hcolumns h hf]
    split_ifs
    · exact hnames f hf
    · -- The field of the key that is found by the name is the one that the name stands for.
      have hsome : (e.key.find? (·.name = f.name)).isSome :=
        List.find?_isSome.2 ⟨f, hf, decide_eq_true rfl⟩
      obtain ⟨g, hg⟩ := Option.isSome_iff_exists.1 hsome
      have hname : g.name = f.name := by simpa using List.find?_some hg
      have hfound := hnames g (List.mem_of_find?_eq_some hg)
      rw [hname, hnames f hf] at hfound
      rw [hg, Option.some.inj hfound]

end Pagination

namespace Catalog

/-- **Members and orderings of a configured entity.** Every field is found by its column;
every field is found by its name if and only if no two share one. In every ordering that is
accepted no column occurs twice and the requested fields come first, and if the names of the
primary key stand for its own fields then each column of the key occurs once. -/
theorem order_of_ofConfig {config : Config} {catalog : Catalog} (h : ofConfig config = .ok catalog)
    {e : Entity} (he : e ∈ catalog.entities) :
    (∀ f ∈ e.fields, e.fieldOfColumn? f.column = some f) ∧
      ((∀ f ∈ e.fields, e.field? f.name = some f) ↔ (e.fields.map (·.name)).Nodup) ∧
      ∀ settings request p, Pagination.resolve settings e request = .ok p →
        Pagination.Orders e request.orderBy p.order := by
  have hcolumns := columnsApart_of_ofConfig h e he
  exact ⟨fun f hf => Entity.fieldOfColumn?_of_mem hcolumns hf, Entity.field?_iff_nodup hcolumns,
    fun settings request p hp =>
      Pagination.orders_of_resolveOrder hcolumns (Pagination.order_of_resolve hp)⟩

/-- Seats in rows: the name of the field of the seat number, and that of the relationship to
the other seats of a guest. -/
def seatConfig (number others : String) : Config where
  settings := .default
  entities :=
    [("Seat", {
        object := "seats"
        backend := .relational
        displayNames := none
        fields := [⟨"row", some "row_no", true, .scalar, none⟩,
          ⟨number, some "seat_no", true, .scalar, none⟩, ⟨"guest", none, false, .scalar, none⟩]
        relationships := [(others, ⟨"Seat", .many, ["guest"], ["guest"]⟩)]
        permissions := []
        cache := none })]

def seat (number others : String) : Entity where
  name := "Seat"
  singular := "Seat"
  plural := "Seats"
  object := "seats"
  backend := .relational
  cache := none
  fields := [⟨"row", "row_no", true, .scalar⟩, ⟨number, "seat_no", true, .scalar⟩,
    ⟨"guest", "guest", false, .scalar⟩]
  relationships := [⟨others, "Seat", .many, ["guest"], ["guest"]⟩]

def seats (number others : String) : Catalog :=
  ((Catalog.empty .default).addEntity (seat number others)).withPermissions .empty

/-- Where the seat number has a name of its own, an ordering by it that is requested twice
keeps the first direction and is made total by the row. -/
theorem order_of_ofConfig_seats :
    ofConfig (seatConfig "number" "others") = .ok (seats "number" "others") ∧
      seat "number" "others" ∈ (seats "number" "others").entities ∧
      Pagination.resolveOrder (seat "number" "others")
          [⟨"number", .desc⟩, ⟨"guest", .asc⟩, ⟨"number", .asc⟩] =
        .ok [⟨"number", "seat_no", .desc, false⟩, ⟨"guest", "guest", .asc, true⟩,
          ⟨"row", "row_no", .asc, false⟩] ∧
      (∀ settings request p, Pagination.resolve settings (seat "number" "others") request = .ok p →
        Pagination.Orders (seat "number" "others") request.orderBy p.order) := by
  have hconfig : ofConfig (seatConfig "number" "others") = .ok (seats "number" "others") := rfl
  have hmem : seat "number" "others" ∈ (seats "number" "others").entities := .head _
  exact ⟨hconfig, hmem, rfl, (order_of_ofConfig hconfig hmem).2.2⟩

/-- Where the row and the seat number share a name, and the relationship has that of the
guest: the configuration is accepted, the name stands for the seat number alone, and an
ordering has no column of the seat number. -/
theorem order_misses_key_of_shared_name :
    ofConfig (seatConfig "row" "guest") = .ok (seats "row" "guest") ∧
      seat "row" "guest" ∈ (seats "row" "guest").entities ∧
      (∃ f ∈ (seat "row" "guest").fields, (seat "row" "guest").field? f.name ≠ some f) ∧
      (∃ f ∈ (seat "row" "guest").fields, ((seat "row" "guest").relationship? f.name).isSome) ∧
      ∃ p f, Pagination.resolve .default (seat "row" "guest") {} = .ok p ∧
        f ∈ (seat "row" "guest").key ∧ (p.order.map (·.column)).count f.column = 0 := by
  refine ⟨rfl, .head _, ⟨⟨"row", "row_no", true, .scalar⟩, .head _, by decide⟩,
    ⟨⟨"guest", "guest", false, .scalar⟩, .tail _ (.tail _ (.head _)), rfl⟩, _,
    ⟨"row", "seat_no", true, .scalar⟩, rfl, .tail _ (.head _), by decide⟩

end Catalog

end RoleQuery
