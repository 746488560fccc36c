import RoleQuery.Service.Basic

/-!
# Reads that share a key

A cached answer is found by a digest of the entity, the role, the statement, the number of
rows that are fetched and the start of the page. Reads that agree in all of these share the
answer: whichever is asked first is answered for the others as well.

They need not have the same answer. The names under which the answer shows its values stand
neither in the statement nor in any other part of the key, so that two reads of one column
under two names share a key.
-/
namespace RoleQuery

/-- All that the key of an answer is made of is the same for two reads, the role apart. -/
structure CompiledRead.SharesKey (q₁ q₂ : CompiledRead) : Prop where
  entity : q₁.plan.entity = q₂.plan.entity
  statement : q₁.statement = q₂.statement
  fetchLimit : q₁.plan.pagination.fetchLimit = q₂.plan.pagination.fetchLimit
  continuation : q₁.plan.pagination.continuation = q₂.plan.pagination.continuation

/-- Reads of one role that agree in what the key is made of have one key. -/
theorem CompiledRead.SharesKey.ofRead_eq {q₁ q₂ : CompiledRead} (h : q₁.SharesKey q₂)
    (role : String) : CacheKey.ofRead role q₁ = CacheKey.ofRead role q₂ := by
  simp only [CacheKey.ofRead, CacheKey.message, h.entity, h.statement, h.fetchLimit,
    h.continuation]

namespace ResultCache

variable {κ ν ε : Type} [DecidableEq κ]

/-- Removing the expired entries keeps the entry of a key if that has not expired. -/
theorem find?_purge (c : ResultCache κ ν) {key : κ} {e : CacheEntry κ ν} {now : Nat}
    (hfind : c.find? key = some e) (hlive : now < e.expires) :
    (c.purge now).find? key = some e := by
  rw [find?, List.find?_eq_some_iff_append] at hfind
  obtain ⟨hkey, before, after, hentries, hbefore⟩ := hfind
  rw [find?, purge, hentries, List.filter_append, List.filter_cons_of_pos (by simpa using hlive),
    List.find?_append, List.find?_cons, hkey]
  have hnone : (before.filter fun e => decide (now < e.expires)).find?
      (fun e => decide (e.key = key)) = none := by
    rw [List.find?_eq_none]
    intro x hx
    have hx' := hbefore x (List.mem_filter.1 hx).1
    simpa using hx'
  rw [hnone]
  rfl

/-- What is stored for some time is found at once. -/
theorem get_insert_self (c : ResultCache κ ν) (now : Nat) (key : κ) (value : ν) {ttl : Nat}
    (httl : 0 < ttl) : (c.insert now key value ttl).get now key =
      (some value, c.insert now key value ttl) := by
  have hfind := find?_putEntry_self ⟨key, value, now + ttl⟩ c.entries
  have hinsert : (c.insert now key value ttl).find? key = some ⟨key, value, now + ttl⟩ := by
    rw [insert_eq]
    split
    · exact find?_purge _ hfind (by simpa using httl)
    · exact hfind
  rw [get, hinsert]
  simp [httl]

/-- The value that a computation gave or that was stored is found again at once. -/
theorem getOrCompute_again {c c' : ResultCache κ ν} {now ttl : Nat} {key : κ} {value : ν}
    {compute : Except ε ν} (httl : 0 < ttl)
    (h : c.getOrCompute now key ttl compute = (.ok value, c')) (compute' : Except ε ν) :
    c'.getOrCompute now key ttl compute' = (.ok value, c') := by
  rw [getOrCompute] at h
  split at h
  · rename_i found c₁ hget
    cases h
    have hsame : c'.get now key = (some value, c') := by
      rw [get] at hget
      split at hget
      · cases hget
      · rename_i e hfind
        split at hget
        · rename_i hlive
          cases hget
          rw [get, hfind]
          simp [hlive]
        · cases hget
    rw [getOrCompute, hsame]
  · split at h
    · cases h
      rw [getOrCompute, get_insert_self _ _ _ _ httl]
    · cases h

end ResultCache

/-- Answers that are kept are kept for some time. -/
theorem Catalog.pos_of_cacheTtl {catalog : Catalog} {e : Entity} {ttl : Nat}
    (h : catalog.cacheTtl? e = some ttl) : 0 < ttl := by
  rw [cacheTtl?] at h
  split at h
  · rw [Option.bind_eq_some_iff] at h
    obtain ⟨policy, -, hpolicy⟩ := h
    split at hpolicy
    · rename_i hkept
      cases hpolicy
      simp only [Bool.and_eq_true, bne_iff_ne] at hkept
      omega
    · cases hpolicy
  · cases h

namespace Service

variable {s s' : Service} {caller₁ caller₂ : Caller} {request₁ request₂ : ReadRequest}
  {q₁ q₂ : CompiledRead} {e : Entity} {ttl : Nat}

/-- A read of an entity that is cached is answered through the cache. -/
theorem read_eq_of_cacheTtl (cache : ResultCache CacheKey String)
    (hcompile : s.compile request₁ caller₁ = .ok q₁)
    (hentity : s.catalog.entity? q₁.plan.entity = some e)
    (hcache : s.catalog.cacheTtl? e = some ttl) :
    { s with cache }.read request₁ caller₁ =
      ((cache.getOrCompute s.now (CacheKey.ofRead caller₁.role q₁) ttl (q₁.fetch s.tables)).1,
        { s with cache :=
          (cache.getOrCompute s.now (CacheKey.ofRead caller₁.role q₁) ttl
            (q₁.fetch s.tables)).2 }) := by
  have hrequire : s.catalog.requireEntity q₁.plan.entity = .ok e := by
    rw [Catalog.requireEntity, hentity]
  have hcompiled : (do
      let q ← { s with cache }.compile request₁ caller₁
      let e ← s.catalog.requireEntity q.plan.entity
      return (q, e) : Except RequestError (CompiledRead × Entity)) = .ok (q₁, e) := by
    change (s.compile request₁ caller₁ >>= fun q =>
      s.catalog.requireEntity q.plan.entity >>= fun e => pure (q, e)) = _
    rw [hcompile]
    change (s.catalog.requireEntity q₁.plan.entity >>= fun e => pure (q₁, e)) = _
    rw [hrequire]
    rfl
  unfold read
  simp only [hcompiled, hcache]

/-- The answer to one read is, for as long as no time passes, the answer to every read of the
same role that shares its key. -/
theorem read_of_sharesKey {body : String} (hcompile₁ : s.compile request₁ caller₁ = .ok q₁)
    (hcompile₂ : s.compile request₂ caller₂ = .ok q₂) (hkey : q₁.SharesKey q₂)
    (hrole : caller₁.role = caller₂.role) (hentity : s.catalog.entity? q₁.plan.entity = some e)
    (hcache : s.catalog.cacheTtl? e = some ttl)
    (hread : s.read request₁ caller₁ = (.ok body, s')) :
    s'.read request₂ caller₂ = (.ok body, s') := by
  have hread := (read_eq_of_cacheTtl s.cache hcompile₁ hentity hcache).symm.trans hread
  have httl := Catalog.pos_of_cacheTtl hcache
  obtain ⟨hbody, rfl⟩ := Prod.mk.inj hread
  have hentity' : s.catalog.entity? q₂.plan.entity = some e := hkey.entity ▸ hentity
  have hagain := ResultCache.getOrCompute_again httl (Prod.ext hbody rfl) (q₂.fetch s.tables)
  rw [hrole, hkey.ofRead_eq] at hagain ⊢
  refine (read_eq_of_cacheTtl _ hcompile₂ hentity' hcache).trans ?_
  rw [hagain]

/-- Volumes with a title, kept in the cache for five seconds, of which
anyone may read everything. -/
def library : Service :=
  .start
    (((Catalog.empty { Settings.default with cacheEnabled := true }).addEntity
        { Entity.ofFields "Volume" "volumes" .relational
            [⟨"id", "id", true, .scalar⟩, ⟨"title", "title", false, .scalar⟩] with
          cache := some ⟨true, 5000⟩ }).withPermissions
      (PermissionTable.empty.grant "Volume" anonymousRole .read ⟨.all, .empty, none⟩))
    (Tables.empty.put "volumes" [.object [("id", .int 1), ("title", .str "Dune")]])

/-- The titles of the volumes under a name of the client's choice. -/
def titlesAs (label : String) : ReadRequest where
  entity := "Volume"
  selection := [⟨"title", some label, none, []⟩]

/-- What the titles are read with: their name in the answer does not reach the statement. -/
def titlesRead (label : String) : CompiledRead where
  plan :=
    { entity := "Volume"
      object := "volumes"
      backend := .relational
      predicate := none
      mask := ⟨some "Volume", some "volumes", [.plain "title" label "title" none]⟩
      pagination := ⟨.relational, [⟨"id", "id", .asc, false⟩], 100, .start⟩
      nextAlias := 1 }
  statement :=
    ⟨"SELECT t0.\"title\", t0.\"id\" FROM \"volumes\" AS t0 ORDER BY t0.\"id\" ASC LIMIT 101", []⟩

/-- The one volume, with its title under a name. -/
def volumeAs (label : String) : Json :=
  .object [("items", .list [.object [(label, .str "Dune")]]), ("endCursor", .null),
    ("hasNextPage", .bool false)]

/-- The titles of the volumes as names and as headings have one key and different answers.
Whoever asks for headings after the names were read is answered with names. -/
theorem sharesKey_volumes :
    library.compile (titlesAs "name") .anonymous = .ok (titlesRead "name") ∧
      library.compile (titlesAs "heading") .anonymous = .ok (titlesRead "heading") ∧
      (titlesRead "name").SharesKey (titlesRead "heading") ∧
      (titlesRead "name").fetch library.tables ≠ (titlesRead "heading").fetch library.tables ∧
      ((library.read (titlesAs "name") .anonymous).2.read (titlesAs "heading") .anonymous).1 =
        (titlesRead "name").fetch library.tables := by
  have hname : library.compile (titlesAs "name") .anonymous = .ok (titlesRead "name") := rfl
  have hheading : library.compile (titlesAs "heading") .anonymous = .ok (titlesRead "heading") :=
    rfl
  have hkey : (titlesRead "name").SharesKey (titlesRead "heading") := ⟨rfl, rfl, rfl, rfl⟩
  have hread : library.read (titlesAs "name") .anonymous =
      (.ok (volumeAs "name").compact, (library.read (titlesAs "name") .anonymous).2) := rfl
  refine ⟨hname, hheading, hkey, ?_, ?_⟩
  · have hcompact : (volumeAs "name").compact ≠ (volumeAs "heading").compact := by decide
    exact fun h => hcompact (Except.ok.inj h)
  · rw [read_of_sharesKey hname hheading hkey rfl rfl rfl hread]
    rfl

end Service

end RoleQuery
