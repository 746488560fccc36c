import RoleQuery.Proofs.Catalog.Columns
import RoleQuery.Proofs.Paging.Page

/-!
# The flags of a page

A page never holds more items than its size, nor has it a size above the greatest, and a page
of a table says that another page follows exactly if more rows were fetched than it holds. It
has a cursor exactly if it says so, unless its size is zero: then a page of a table has no
last item to take a cursor from. The size is never zero because of the number that is asked
for, which is checked; but the settings, which are not, may say that pages are empty.
-/
namespace RoleQuery

/-- The settings give pages of size zero where so many items are asked for: through the
default or the greatest size. -/
def Settings.SizesNothing (settings : Settings) : Option Int64 → Prop
  | none => settings.defaultPageSize = 0 ∨ settings.maxPageSize = 0
  | some n => n.toInt = -1 ∧ settings.maxPageSize = 0

/-- Only settings that have a zero in them give empty pages. -/
theorem Settings.exists_sizesNothing_iff {settings : Settings} :
    (∃ first, settings.SizesNothing first) ↔
      settings.defaultPageSize = 0 ∨ settings.maxPageSize = 0 := by
  constructor
  · rintro ⟨_ | n, h⟩
    · exact h
    · exact .inr h.2
  · intro h
    exact ⟨none, h⟩

/-- A size that is resolved is at most the greatest, and zero only
where the settings say so. -/
theorem Pagination.resolvePageSize_eq_ok {settings : Settings} {first : Option Int64}
    {size : UInt32} (h : resolvePageSize settings first = .ok size) :
    size ≤ settings.maxPageSize ∧ (size = 0 ↔ settings.SizesNothing first) := by
  cases first with
  | none =>
    cases h
    simp only [Settings.SizesNothing, UInt32.le_iff_toNat_le, ← UInt32.toNat_inj, UInt32.toNat_min,
      UInt32.toNat_zero]
    omega
  | some n =>
    rw [resolvePageSize] at h
    split at h
    · next hall =>
      cases h
      exact ⟨UInt32.le_refl _, by simp [Settings.SizesNothing, hall]⟩
    · next hall =>
      split at h
      · next hn =>
        cases h
        have hmax := settings.maxPageSize.toNat_lt
        have hsize : (UInt32.ofNat n.toInt.toNat).toNat = n.toInt.toNat := by
          rw [UInt32.toNat_ofNat']
          exact Nat.mod_eq_of_lt (by omega)
        rw [Settings.SizesNothing, UInt32.le_iff_toNat_le, ← UInt32.toNat_inj, hsize,
          UInt32.toNat_zero]
        omega
      · cases h

namespace Page

variable {p : Pagination} {rows : List Json} {continuation : Option String} {page : Page}

/-- A page of a table says that another follows exactly if more rows were
fetched than it holds. -/
theorem hasNextPage_of_assemble (h : assemble p rows continuation = .ok page)
    (hbackend : p.backend = .relational) :
    page.hasNextPage = decide (p.pageSize.toNat < rows.length) := by
  rw [assemble, hbackend] at h
  cases hlast : (rows.take p.pageSize.toNat).getLast? with
  | none =>
    simp only [hlast] at h
    cases h
    rfl
  | some last =>
    simp only [hlast] at h
    split at h
    · next hmore =>
      obtain ⟨fields, -, rfl⟩ := Except.map_eq_ok_iff.1 h
      exact (decide_eq_true hmore).symm
    · next hmore =>
      cases h
      exact (decide_eq_false hmore).symm

/-- A page has a cursor exactly if it says that another follows and, for a
table, holds an item. -/
theorem isSome_endCursor_of_assemble (h : assemble p rows continuation = .ok page) :
    page.endCursor.isSome = true ↔
      page.hasNextPage = true ∧ (p.backend = .relational → page.items ≠ []) := by
  cases hbackend : p.backend with
  | hierarchical =>
    rw [Tables.assemble_hierarchical hbackend] at h
    cases h
    simp
  | relational =>
    rw [items_of_assemble h, hasNextPage_of_assemble h hbackend]
    rw [assemble, hbackend] at h
    cases hlast : (rows.take p.pageSize.toNat).getLast? with
    | none =>
      simp only [hlast] at h
      cases h
      simp [List.getLast?_eq_none_iff.1 hlast]
    | some last =>
      have hitems : rows.take p.pageSize.toNat ≠ [] := by
        intro hnil
        simp [hnil] at hlast
      simp only [hlast] at h
      split at h
      · next hmore =>
        obtain ⟨fields, -, rfl⟩ := Except.map_eq_ok_iff.1 h
        simp [hmore, hitems]
      · next hmore =>
        cases h
        simp [hmore]

end Page

namespace Catalog

/-- Building the entities leaves the settings. -/
theorem settings_of_buildEntities {configs : List (String × EntityConfig)} {start c : Catalog}
    (h : buildEntities start configs = .ok c) : c.settings = start.settings := by
  induction configs generalizing start with
  | nil =>
    cases h
    rfl
  | cons config rest ih =>
    obtain ⟨e, -, h⟩ := Except.bind_eq_ok_iff.1 h
    have hrest := ih h
    exact hrest

/-- The settings of a catalog are those of its configuration. -/
theorem settings_of_ofConfig {config : Config} {catalog : Catalog}
    (h : ofConfig config = .ok catalog) : catalog.settings = config.settings := by
  obtain ⟨built, hbuilt, h⟩ := Except.bind_eq_ok_iff.1 h
  obtain ⟨_, -, h⟩ := Except.bind_eq_ok_iff.1 h
  obtain ⟨table, -, h⟩ := Except.bind_eq_ok_iff.1 h
  cases h
  exact settings_of_buildEntities hbuilt

/-- **The flags of a page agree unless it is an empty page of a table with rows.** -/
theorem flags_of_assemble {config : Config} {catalog : Catalog}
    (hcatalog : ofConfig config = .ok catalog) {e : Entity} {request : PageRequest} {p : Pagination}
    (hp : Pagination.resolve catalog.settings e request = .ok p) {rows : List Json}
    {continuation : Option String} {page : Page}
    (hpage : Page.assemble p rows continuation = .ok page) :
    page.items.length ≤ p.pageSize.toNat ∧
      p.pageSize ≤ config.settings.maxPageSize ∧
      (p.pageSize = 0 ↔ config.settings.SizesNothing request.first) ∧
      (e.backend = .relational → (page.hasNextPage = true ↔ page.items.length < rows.length)) ∧
      ((page.hasNextPage = true ↔ page.endCursor.isSome = true) ↔
        ¬ (e.backend = .relational ∧ p.pageSize = 0 ∧ rows ≠ [])) := by
  have hitems := Page.items_of_assemble hpage
  obtain ⟨size, order, position, hsize, -, -, rfl⟩ := Pagination.resolve_eq_ok_iff.1 hp
  rw [settings_of_ofConfig hcatalog] at hsize
  obtain ⟨hmax, hzero⟩ := Pagination.resolvePageSize_eq_ok hsize
  refine ⟨?_, hmax, hzero, ?_, ?_⟩
  · rw [hitems, List.length_take]
    exact Nat.min_le_left _ _
  · intro hrelational
    rw [Page.hasNextPage_of_assemble hpage hrelational, hitems, List.length_take, decide_eq_true_eq]
    omega
  · -- The flags differ where another page follows and there is no item to take the cursor from.
    rw [Page.isSome_endCursor_of_assemble hpage, hitems]
    cases hbackend : e.backend with
    | hierarchical => simp
    | relational =>
      rw [Page.hasNextPage_of_assemble hpage hbackend, decide_eq_true_eq]
      by_cases hsize : size = 0
      · simp [hsize, List.length_pos_iff]
      · have hpos : 0 < size.toNat := by
          rw [Nat.pos_iff_ne_zero, ← UInt32.toNat_zero, ne_eq, UInt32.toNat_inj]
          exact hsize
        by_cases hrows : rows = []
        · simp [hrows]
        · simp [hsize, hrows, Nat.ne_of_gt hpos]

def parcelConfig (size : UInt32) : Config where
  settings := { Settings.default with defaultPageSize := size }
  entities :=
    [("Parcel", {
        object := "parcels"
        backend := .relational
        displayNames := none
        fields := [⟨"id", none, true, .scalar, none⟩]
        relationships := []
        permissions := []
        cache := none })]

def parcel : Entity where
  name := "Parcel"
  singular := "Parcel"
  plural := "Parcels"
  object := "parcels"
  backend := .relational
  cache := none
  fields := [⟨"id", "id", true, .scalar⟩]
  relationships := []

def parcelCatalog (size : UInt32) : Catalog :=
  ((Catalog.empty { Settings.default with defaultPageSize := size }).addEntity parcel)
    |>.withPermissions .empty

def firstPage (size : UInt32) : Pagination :=
  ⟨.relational, [⟨"id", "id", .asc, false⟩], size, .start⟩

/-- In pages of one parcel, the first of two is followed by another, and so has a cursor. -/
theorem flags_of_assemble_parcels :
    ofConfig (parcelConfig 1) = .ok (parcelCatalog 1) ∧
      Pagination.resolve (parcelCatalog 1).settings parcel {} = .ok (firstPage 1) ∧
      ∃ page, Page.assemble (firstPage 1)
          [.object [("id", .int 1)], .object [("id", .int 2)]] none = .ok page ∧
        page.items.length = 1 ∧ page.hasNextPage = true ∧ page.endCursor.isSome = true := by
  have hconfig : ofConfig (parcelConfig 1) = .ok (parcelCatalog 1) := rfl
  have hresolve : Pagination.resolve (parcelCatalog 1).settings parcel {} = .ok (firstPage 1) := rfl
  have hpage : Page.assemble (firstPage 1)
      [.object [("id", .int 1)], .object [("id", .int 2)]] none =
        .ok ⟨[.object [("id", .int 1)]],
          some (CursorPayload.keyset [⟨"id", .integer 1, .asc⟩]).encode, true⟩ := rfl
  obtain ⟨-, -, -, hnext, hflags⟩ := flags_of_assemble hconfig hresolve hpage
  have hmore := (hnext rfl).2 (by decide)
  exact ⟨hconfig, hresolve, _, hpage, rfl, hmore,
    (hflags.2 fun h => absurd h.2.1 (by decide)).1 hmore⟩

/-- Nobody may ask for a page of no parcel; but where that is the default, the first page says
that another one follows, and has no cursor for it. -/
theorem flags_differ_of_empty_page :
    ofConfig (parcelConfig 0) = .ok (parcelCatalog 0) ∧ parcel ∈ (parcelCatalog 0).entities ∧
      Pagination.resolve (parcelCatalog 0).settings parcel { first := some 0 } =
        .error (.pageSize 0 100000) ∧
      Pagination.resolve (parcelCatalog 0).settings parcel {} = .ok (firstPage 0) ∧
      Page.assemble (firstPage 0) [.object [("id", .int 1)]] none = .ok ⟨[], none, true⟩ :=
  ⟨rfl, .head _, rfl, rfl, rfl⟩

end Catalog

end RoleQuery
