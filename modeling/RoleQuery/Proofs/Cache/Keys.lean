import RoleQuery.Proofs.Bytes.Separation
import RoleQuery.Proofs.Bytes.Utf8
import RoleQuery.Proofs.Cache.Sharing

/-!
# What a cached answer is an answer to

The bytes that the key of an answer is the digest of tell all that it is made of: the parts
are preceded by their lengths, and each part can be read back. So reads whose keys are made of
different things have different bytes. Whoever is answered from the cache is given what was
computed for a read of the same role with the same entity, statement, parameters, number of
rows and start of the page, unless two of the reads that were asked of the service so far have
different bytes and one digest.
-/
namespace RoleQuery

namespace CacheKey

theorem separates_parameterBytes : Wire.Separates parameterBytes :=
  Wire.separates_text.prod Wire.separates_value

theorem parameterBytes_ne_nil (p : String × Value) : parameterBytes p ≠ [] := by
  simp [parameterBytes, Wire.text_ne_nil]

theorem separates_fetchLimit : Wire.Separates fun n : UInt32 => Wire.littleEndian 4 n.toNat := by
  intro m n rest rest' _ heq
  obtain ⟨hnumber, hrest⟩ := Wire.littleEndian_append_inj m.toNat_lt n.toNat_lt heq
  exact ⟨UInt32.toNat_inj.1 hnumber, hrest⟩

/-- The form of a start is told by its first bytes. -/
theorem separates_continuationBytes : Wire.Separates continuationBytes := by
  have hform : ∀ {m n : Nat} {rest rest' : List UInt8}, m < 3 → n < 3 →
      Wire.littleEndian 4 m ++ rest = Wire.littleEndian 4 n ++ rest' → m = n ∧ rest = rest' :=
    fun hm hn h => Wire.littleEndian_append_inj (by omega) (by omega) h
  intro a b rest rest' hshort heq
  cases a <;> cases b <;>
    simp only [continuationBytes, List.append_assoc] at hshort heq
  all_goals obtain ⟨hsame, hcontents⟩ := hform (by decide) (by decide) heq
  case start.start => exact ⟨rfl, hcontents⟩
  case after.after =>
    rw [List.length_append] at hshort
    obtain ⟨rfl, hrest⟩ :=
      Wire.separates_value.list Wire.value_ne_nil (by omega) hcontents
    exact ⟨rfl, hrest⟩
  case token.token =>
    rw [List.length_append] at hshort
    obtain ⟨rfl, hrest⟩ := Wire.separates_text (by omega) hcontents
    exact ⟨rfl, hrest⟩
  all_goals cases hsame

/-- **The bytes of a key tell all that it is made of**: the role, the entity, the statement
with its parameters, the number of rows and the start of the page. -/
theorem message_eq_iff {role₁ role₂ : String} {q₁ q₂ : CompiledRead}
    (hshort : (message role₁ q₁).length < 2 ^ 64) :
    message role₁ q₁ = message role₂ q₂ ↔ role₁ = role₂ ∧ q₁.SharesKey q₂ := by
  constructor
  · intro heq
    have htext : Wire.Separates fun s => part (Utf8.encode s) := Wire.separates_text
    have hparts := htext.prod (htext.prod (htext.prod
      ((separates_parameterBytes.list parameterBytes_ne_nil).prefixed.prod
        (separates_fetchLimit.prefixed.prod separates_continuationBytes.prefixed))))
    simp only [message, List.append_assoc] at hshort heq
    have hinputs := hparts.injective
      (a := (q₁.plan.entity, role₁, q₁.statement.text, q₁.statement.parameters,
        q₁.plan.pagination.fetchLimit, q₁.plan.pagination.continuation))
      (b := (q₂.plan.entity, role₂, q₂.statement.text, q₂.statement.parameters,
        q₂.plan.pagination.fetchLimit, q₂.plan.pagination.continuation)) hshort heq
    simp only [Prod.mk.injEq] at hinputs
    obtain ⟨hentity, hrole, htext, hparameters, hlimit, hstart⟩ := hinputs
    have hstatement : q₁.statement = q₂.statement :=
      calc q₁.statement = ⟨q₁.statement.text, q₁.statement.parameters⟩ := rfl
        _ = ⟨q₂.statement.text, q₂.statement.parameters⟩ := by rw [htext, hparameters]
    exact ⟨hrole, hentity, hstatement, hlimit, hstart⟩
  · rintro ⟨rfl, hkey⟩
    simp only [message, hkey.entity, hkey.statement, hkey.fetchLimit, hkey.continuation]

end CacheKey

/-! ## Where the entries of a cache come from -/

namespace ResultCache

variable {κ ν ε : Type} [DecidableEq κ] {c : ResultCache κ ν} {now ttl : Nat} {key : κ}

theorem mem_putEntry {e other : CacheEntry κ ν} {es : List (CacheEntry κ ν)}
    (h : other ∈ putEntry e es) : other = e ∨ other ∈ es := by
  induction es with
  | nil => exact .inl (List.mem_singleton.1 h)
  | cons first rest ih =>
    rw [putEntry] at h
    split at h
    · rcases List.mem_cons.1 h with rfl | h
      · exact .inl rfl
      · exact .inr (List.mem_cons_of_mem _ h)
    · rcases List.mem_cons.1 h with rfl | h
      · exact .inr List.mem_cons_self
      · exact (ih h).imp_right (List.mem_cons_of_mem _)

/-- A look-up adds no entry. -/
theorem mem_entries_get {e : CacheEntry κ ν} (h : e ∈ (c.get now key).2.entries) :
    e ∈ c.entries := by
  rw [get] at h
  split at h
  · exact h
  · split at h
    · exact h
    · exact (List.mem_filter.1 h).1

/-- What a look-up finds is an entry of the key. -/
theorem exists_of_get {value : ν} (h : (c.get now key).1 = some value) :
    ∃ e ∈ c.entries, e.key = key ∧ e.value = value := by
  rw [get] at h
  split at h
  · cases h
  · next e hfind =>
    split at h
    · cases h
      exact ⟨e, List.mem_of_find?_eq_some hfind, by simpa using List.find?_some hfind, rfl⟩
    · cases h

/-- Storing a value adds no entry but that of the value. -/
theorem mem_entries_insert {e : CacheEntry κ ν} {value : ν}
    (h : e ∈ (c.insert now key value ttl).entries) :
    e = ⟨key, value, now + ttl⟩ ∨ e ∈ c.entries := by
  rw [insert_eq] at h
  split at h
  · exact mem_putEntry (List.mem_filter.1 h).1
  · exact mem_putEntry h

/-- The value of a key was computed now, or stored under the key. -/
theorem exists_of_getOrCompute {compute : Except ε ν} {value : ν}
    (h : (c.getOrCompute now key ttl compute).1 = .ok value) :
    compute = .ok value ∨ ∃ e ∈ c.entries, e.key = key ∧ e.value = value := by
  rw [getOrCompute] at h
  split at h
  · next found _ hget =>
    cases h
    exact .inr (exists_of_get (congrArg Prod.fst hget))
  · split at h
    · cases h
      exact .inl rfl
    · cases h

/-- An entry that is there after a value was computed was there before, or holds the value. -/
theorem mem_entries_getOrCompute {compute : Except ε ν} {e : CacheEntry κ ν}
    (h : e ∈ (c.getOrCompute now key ttl compute).2.entries) :
    e ∈ c.entries ∨ e.key = key ∧ compute = .ok e.value := by
  have hget : ∀ {e}, e ∈ (c.get now key).2.entries → e ∈ c.entries := mem_entries_get
  rw [getOrCompute] at h
  split at h
  · next found c' hfound =>
    rw [hfound] at hget
    exact .inl (hget h)
  · next c' hmissing =>
    rw [hmissing] at hget
    split at h
    · rcases mem_entries_insert h with rfl | h
      · exact .inr ⟨rfl, rfl⟩
      · exact .inl (hget h)
    · exact .inl (hget h)

end ResultCache

/-! ## Runs of a service -/

/-- What is done with a service. -/
inductive ServiceAction where
  | read (request : ReadRequest) (caller : Caller)
  | write (request : WriteRequest) (caller : Caller)
  | advance (milliseconds : Nat)
  | purge

/-- A read that was asked of a service: under which role, and the tables of the time. -/
structure Lookup where
  role : String
  read : CompiledRead
  tables : Tables

def Lookup.key (l : Lookup) : CacheKey := CacheKey.ofRead l.role l.read

namespace Service

/-- What becomes of a service by an action. -/
def act (s : Service) : ServiceAction → Service
  | .read request caller => (s.read request caller).2
  | .write request caller => (s.write request caller).2
  | .advance milliseconds => s.advance milliseconds
  | .purge => s.purge

/-- What becomes of a service by actions, one after another. -/
def after (s : Service) (actions : List ServiceAction) : Service := actions.foldl act s

/-- The read that an action asks for, if it compiles. -/
def lookup? (s : Service) : ServiceAction → Option Lookup
  | .read request caller =>
    (s.compile request caller).toOption.map fun q => ⟨caller.role, q, s.tables⟩
  | .write _ _ | .advance _ | .purge => none

/-- The reads that actions ask for, one after another. -/
def lookups (s : Service) : List ServiceAction → List Lookup
  | [] => []
  | action :: rest => (s.lookup? action).toList ++ (s.act action).lookups rest

/-- Every cached answer was computed for one of the reads, and is kept under its key. -/
def Explained (s : Service) (ls : List Lookup) : Prop :=
  ∀ e ∈ s.cache.entries, ∃ l ∈ ls, e.key = l.key ∧ l.read.fetch l.tables = .ok e.value

variable {s : Service} {request : ReadRequest} {caller : Caller} {q : CompiledRead} {body : String}
  {ls : List Lookup}

/-- A read that compiles fails, is answered from the tables or goes through the cache. -/
theorem read_cases (hcompile : s.compile request caller = .ok q) :
    (∃ error, s.read request caller = (.error error, s)) ∨
      s.read request caller = (q.fetch s.tables, s) ∨
      ∃ ttl, s.read request caller =
        ((s.cache.getOrCompute s.now (CacheKey.ofRead caller.role q) ttl (q.fetch s.tables)).1,
          { s with cache :=
            (s.cache.getOrCompute s.now (CacheKey.ofRead caller.role q) ttl
              (q.fetch s.tables)).2 }) := by
  unfold read
  rw [hcompile]
  cases hentity : s.catalog.requireEntity q.plan.entity with
  | error error =>
    simp only [bind, Except.bind, hentity]
    exact .inl ⟨error, rfl⟩
  | ok e =>
    simp only [bind, Except.bind, pure, Except.pure, hentity]
    cases s.catalog.cacheTtl? e with
    | none => exact .inr (.inl rfl)
    | some ttl => exact .inr (.inr ⟨ttl, rfl⟩)

/-- A read that does not compile fails, and changes nothing. -/
theorem read_of_compile_error {error : RequestError}
    (hcompile : s.compile request caller = .error error) :
    s.read request caller = (.error error, s) := by
  unfold read
  rw [hcompile]
  rfl

theorem explained_start (catalog : Catalog) (tables : Tables) :
    (start catalog tables).Explained [] :=
  fun _ he => absurd he List.not_mem_nil

theorem Explained.mono (h : s.Explained ls) {ls' : List Lookup} (hsub : ls ⊆ ls') :
    s.Explained ls' := by
  intro e he
  obtain ⟨l, hl, hkey, hfetch⟩ := h e he
  exact ⟨l, hsub hl, hkey, hfetch⟩

/-- A service whose entries are among those of another, or hold the
answer to one more read. -/
theorem Explained.of_entries (h : s.Explained ls) {s' : Service} {l : Lookup}
    (hentries : ∀ e ∈ s'.cache.entries,
      e ∈ s.cache.entries ∨ e.key = l.key ∧ l.read.fetch l.tables = .ok e.value) :
    s'.Explained (ls ++ [l]) := by
  intro e he
  rcases hentries e he with he | ⟨hkey, hfetch⟩
  · exact h.mono (List.subset_append_left _ _) e he
  · exact ⟨l, List.mem_append_right _ (List.mem_singleton_self l), hkey, hfetch⟩

/-- **An action keeps every cached answer one that was computed under its key**:
reading stores the answer under the key of the read that it was computed for, and
nothing else stores any. -/
theorem Explained.act (h : s.Explained ls) (action : ServiceAction) :
    (s.act action).Explained (ls ++ (s.lookup? action).toList) := by
  cases action with
  | write request caller =>
    rw [lookup?, Option.toList_none, List.append_nil]
    exact h
  | advance milliseconds =>
    rw [lookup?, Option.toList_none, List.append_nil]
    exact h
  | purge =>
    rw [lookup?, Option.toList_none, List.append_nil]
    exact fun e he => h e (List.mem_filter.1 he).1
  | read request caller =>
    rw [Service.act, lookup?]
    cases hcompile : s.compile request caller with
    | error error =>
      rw [read_of_compile_error hcompile]
      exact h.mono (List.subset_append_left _ _)
    | ok q =>
      refine h.of_entries fun e he => ?_
      rcases read_cases hcompile with ⟨error, hread⟩ | hread | ⟨ttl, hread⟩
      · rw [hread] at he
        exact .inl he
      · rw [hread] at he
        exact .inl he
      · rw [hread] at he
        exact ResultCache.mem_entries_getOrCompute he

/-- After any actions, every cached answer was computed for one of the
reads asked for so far. -/
theorem explained_after (h : s.Explained ls) (actions : List ServiceAction) :
    (s.after actions).Explained (ls ++ s.lookups actions) := by
  induction actions generalizing s ls with
  | nil =>
    rw [lookups, List.append_nil]
    exact h
  | cons action rest ih =>
    rw [lookups, ← List.append_assoc]
    exact ih (h.act action)

/-- What a read is answered with was computed for it, or is the cached answer
to a read with its key. -/
theorem Explained.exists_of_read (h : s.Explained ls) (hcompile : s.compile request caller = .ok q)
    (hread : (s.read request caller).1 = .ok body) :
    ∃ l ∈ ls ++ [⟨caller.role, q, s.tables⟩], l.key = CacheKey.ofRead caller.role q ∧
      l.read.fetch l.tables = .ok body := by
  have hcomputed (hfetch : q.fetch s.tables = .ok body) :
      ∃ l ∈ ls ++ [⟨caller.role, q, s.tables⟩], l.key = CacheKey.ofRead caller.role q ∧
        l.read.fetch l.tables = .ok body :=
    ⟨_, List.mem_append_right _ (List.mem_singleton_self _), rfl, hfetch⟩
  rcases read_cases hcompile with ⟨error, hcase⟩ | hcase | ⟨ttl, hcase⟩
  · rw [hcase] at hread
    cases hread
  · rw [hcase] at hread
    exact hcomputed hread
  · rw [hcase] at hread
    rcases ResultCache.exists_of_getOrCompute hread with hfetch | ⟨e, he, hkey, rfl⟩
    · exact hcomputed hfetch
    · obtain ⟨l, hl, hlkey, hfetch⟩ := h e he
      exact ⟨l, List.mem_append_left _ hl, hlkey.symm.trans hkey, hfetch⟩

/-- **Keys are made of bytes that tell everything, and so answers are for their reads.** The
bytes of two keys are equal exactly if the role, the entity, the statement with its
parameters, the number of rows and the start of the page are. After any actions on a service,
a read is answered with what was computed for a read in the run that agrees with it in all of
these, as long as no other read in the run has different bytes and the same digest. -/
theorem answers_are_for_their_keys :
    (∀ (role₁ role₂ : String) (q₁ q₂ : CompiledRead),
      (CacheKey.message role₁ q₁).length < 2 ^ 64 →
        (CacheKey.message role₁ q₁ = CacheKey.message role₂ q₂ ↔ role₁ = role₂ ∧ q₁.SharesKey q₂)) ∧
    ∀ (catalog : Catalog) (tables : Tables) (actions : List ServiceAction) (request : ReadRequest)
      (caller : Caller) (q : CompiledRead) (body : String),
      ((start catalog tables).after actions).compile request caller = .ok q →
      (CacheKey.message caller.role q).length < 2 ^ 64 →
      (∀ l ∈ (start catalog tables).lookups actions, l.key = CacheKey.ofRead caller.role q →
        CacheKey.message l.role l.read = CacheKey.message caller.role q) →
      (((start catalog tables).after actions).read request caller).1 = .ok body →
        ∃ l ∈ (start catalog tables).lookups actions ++
            [⟨caller.role, q, ((start catalog tables).after actions).tables⟩],
          caller.role = l.role ∧ q.SharesKey l.read ∧ l.read.fetch l.tables = .ok body := by
  refine ⟨fun _ _ _ _ => CacheKey.message_eq_iff, ?_⟩
  intro catalog tables actions request caller q body hcompile hshort hcollision hread
  have hexplained := explained_after (explained_start catalog tables) actions
  rw [List.nil_append] at hexplained
  obtain ⟨l, hl, hkey, hfetch⟩ := hexplained.exists_of_read hcompile hread
  have hmessage : CacheKey.message l.role l.read = CacheKey.message caller.role q := by
    rcases List.mem_append.1 hl with hl | hl
    · exact hcollision l hl hkey
    · rw [List.mem_singleton.1 hl]
  obtain ⟨hrole, hshares⟩ := (CacheKey.message_eq_iff hshort).1 hmessage.symm
  exact ⟨l, hl, hrole, hshares, hfetch⟩

/-- Titles for one role and for another have different bytes; headings that are
asked for after names are answered with what was computed for a read that agrees
with them in all of the bytes. -/
theorem answers_are_for_their_keys_volumes :
    CacheKey.message anonymousRole (titlesRead "name") ≠
      CacheKey.message "clerk" (titlesRead "name") ∧
      ∃ l ∈ library.lookups [.read (titlesAs "name") .anonymous] ++
          [⟨anonymousRole, titlesRead "heading",
            (library.after [.read (titlesAs "name") .anonymous]).tables⟩],
        anonymousRole = l.role ∧ (titlesRead "heading").SharesKey l.read ∧
          l.read.fetch l.tables = .ok (volumeAs "name").compact := by
  have hshort : ∀ label ∈ ["name", "heading"],
      (CacheKey.message anonymousRole (titlesRead label)).length < 2 ^ 64 := by decide +kernel
  refine ⟨?_, ?_⟩
  · intro heq
    have hrole := (answers_are_for_their_keys.1 _ "clerk" _ (titlesRead "name")
      (hshort "name" (by decide))).1 heq
    exact absurd hrole.1 (by decide)
  · have hkey : (titlesRead "name").SharesKey (titlesRead "heading") := ⟨rfl, rfl, rfl, rfl⟩
    have hcompile : (library.after [.read (titlesAs "name") .anonymous]).compile
        (titlesAs "heading") .anonymous = .ok (titlesRead "heading") := rfl
    have hlookups : (start library.catalog library.tables).lookups
        [.read (titlesAs "name") .anonymous] =
          [⟨anonymousRole, titlesRead "name", library.tables⟩] := rfl
    have hread : ((library.after [.read (titlesAs "name") .anonymous]).read
        (titlesAs "heading") .anonymous).1 = .ok (volumeAs "name").compact := by
      have hfirst : library.read (titlesAs "name") .anonymous =
          (.ok (volumeAs "name").compact, library.after [.read (titlesAs "name") .anonymous]) := rfl
      have hname : library.compile (titlesAs "name") .anonymous = .ok (titlesRead "name") := rfl
      have hheading : library.compile (titlesAs "heading") .anonymous =
          .ok (titlesRead "heading") := rfl
      exact congrArg Prod.fst (read_of_sharesKey hname hheading hkey rfl rfl rfl hfirst)
    refine answers_are_for_their_keys.2 library.catalog library.tables _ _ .anonymous _ _ hcompile
      (hshort "heading" (by decide)) ?_ hread
    intro l hl _
    rw [hlookups, List.mem_singleton] at hl
    rw [hl]
    exact (CacheKey.message_eq_iff (hshort "name" (by decide))).2 ⟨rfl, hkey⟩

end Service

end RoleQuery
