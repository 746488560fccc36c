import RoleQuery.Cache.Basic

/-!
# The cache as a record of stores

A cache drops entries in three places: a look-up drops the expired entry that it finds, a
purge drops all expired entries, and so does storing a value from time to time. None of this
can be seen from outside. A key has the value that was last stored under it until the time to
live of that store has passed, as if everything that was ever stored were kept.

What makes this true is an invariant. The entry of a key is that of its last store, and where
there is no entry the last store has expired. Time never goes backwards, so what has expired
stays expired. How often storing a value drops the expired entries does not matter. If time
ends, what needs an instant after the last one fails alike on the cache and on the record, and
the invariant is kept all the same.
-/
namespace RoleQuery

variable {κ ν ε σ : Type} [DecidableEq κ]

/-! ## What was stored -/

/-- A value that was stored under a key at a time, and for how long. -/
structure Store (κ ν : Type) where
  key : κ
  value : ν
  time : Nat
  ttl : Nat
  deriving Repr

namespace Store

/-- The last store under a key; the newest store comes first. -/
def last? (stores : List (Store κ ν)) (key : κ) : Option (Store κ ν) := stores.find? (·.key = key)

/-- The value of a key: that of the last store under it, until the time to live of
the store has passed. -/
def current (stores : List (Store κ ν)) (now : Nat) (key : κ) : Option ν :=
  match last? stores key with
  | some s => if now < s.time + s.ttl then some s.value else none
  | none => none

theorem current_eq_some_iff {stores : List (Store κ ν)} {now : Nat} {key : κ} {value : ν} :
    current stores now key = some value ↔
      ∃ time ttl, last? stores key = some ⟨key, value, time, ttl⟩ ∧ now < time + ttl := by
  rw [current]
  cases hlast : last? stores key with
  | none => simp
  | some s =>
    have hkey : s.key = key := by simpa using List.find?_some hlast
    obtain ⟨_, found, time, ttl⟩ := s
    subst hkey
    by_cases hlive : now < time + ttl
    · simp only [hlive, ↓reduceIte, Option.some.injEq, Store.mk.injEq, true_and]
      exact ⟨fun h => ⟨time, ttl, ⟨h, rfl, rfl⟩, hlive⟩, fun ⟨_, _, h, _⟩ => h.1⟩
    · simp only [hlive, ↓reduceIte, reduceCtorEq, Option.some.injEq, Store.mk.injEq, true_and,
        false_iff, not_exists]
      rintro _ _ ⟨⟨-, rfl, rfl⟩, h⟩
      exact hlive h

@[simp] theorem last?_cons_self (s : Store κ ν) (stores : List (Store κ ν)) :
    last? (s :: stores) s.key = some s := by
  simp [last?]

theorem last?_cons_of_ne (s : Store κ ν) (stores : List (Store κ ν)) {key : κ} (h : key ≠ s.key) :
    last? (s :: stores) key = last? stores key := by
  simp [last?, Ne.symm h]

/-- What has no value has none later. -/
theorem current_eq_none_of_le {stores : List (Store κ ν)} {now later : Nat} {key : κ}
    (hle : now ≤ later) (h : current stores now key = none) : current stores later key = none := by
  unfold current at h ⊢
  cases hlast : last? stores key with
  | none => rfl
  | some s =>
    simp only [hlast, ite_eq_right_iff, reduceCtorEq, imp_false] at h ⊢
    omega

end Store

/-! ## Actions -/

/-- What is done with a cache. -/
inductive CacheAction (κ ν ε σ : Type) where
  | insert (key : κ) (value : ν) (ttl : Nat)
  | get (key : κ)
  /-- Look a key up, and compute a value if there is none. A computation acts on a state of
  its own, in which it leaves a trace when it is run. -/
  | getOrCompute (key : κ) (ttl : Nat) (compute : σ → Except ε ν × σ)
  | purge
  | advance (duration : Nat)

/-- What an action answers. -/
inductive CacheReply (ν ε : Type) where
  | done
  | found (value : Option ν)
  | computed (answer : Except ε ν)

/-- The times that a clock can show, counted from its start. -/
structure ClockRange where
  /-- The last instant. -/
  latest : Option Nat
  /-- The longest time by which the clock can be advanced in all. -/
  longest : Option Nat

/-- What is kept for look-ups, the time, and the state that computations act on. -/
structure Timed (α σ : Type) where
  kept : α
  now : Nat
  world : σ

/-- The replies to actions, one after another, and what is left after them. -/
def run {α β γ : Type} (step : α → β → γ × α) : α → List β → List γ × α
  | s, [] => ([], s)
  | s, a :: rest =>
    ((step s a).1 :: (run step (step s a).2 rest).1, (run step (step s a).2 rest).2)

/-- Everything that was ever stored, and when a cache would next remove what has expired. -/
structure StoreRecord (κ ν : Type) where
  stores : List (Store κ ν)
  nextPurge : Nat

namespace StoreRecord

open ResultCache (nextPurge?)

/-- Add a store, unless it would expire after the last instant. -/
def insert (latest : Option Nat) (interval : Nat) (r : StoreRecord κ ν) (now : Nat) (key : κ)
    (value : ν) (ttl : Nat) : Except PastLastInstant Unit × StoreRecord κ ν :=
  if within latest (now + ttl) then
    let stores := ⟨key, value, now, ttl⟩ :: r.stores
    match nextPurge? latest interval r.nextPurge now with
    | .ok next => (.ok (), ⟨stores, next.getD r.nextPurge⟩)
    | .error e => (.error e, { r with stores })
  else (.error ⟨⟩, r)

/-- One action, if everything that was ever stored is kept. A computation is run where the key
has no value, and what it gives is stored unless it fails. An action fails if it needs an
instant after the last one. -/
def step (clock : ClockRange) (interval : Nat) (s : Timed (StoreRecord κ ν) σ) :
    CacheAction κ ν ε σ →
      Except PastLastInstant (CacheReply ν ε) × Timed (StoreRecord κ ν) σ
  | .insert key value ttl =>
    let (stored, kept) := s.kept.insert clock.latest interval s.now key value ttl
    (stored.map fun _ => .done, { s with kept })
  | .get key =>
    if within clock.latest s.now then
      (.ok (.found (Store.current s.kept.stores s.now key)), s)
    else (.error ⟨⟩, s)
  | .getOrCompute key ttl compute =>
    if within clock.latest s.now then
      match Store.current s.kept.stores s.now key with
      | some value => (.ok (.computed (.ok value)), s)
      | none =>
        match compute s.world with
        | (.ok value, world) =>
          let (stored, kept) := s.kept.insert clock.latest interval s.now key value ttl
          (stored.map fun _ => .computed (.ok value), ⟨kept, s.now, world⟩)
        | (.error e, world) => (.ok (.computed (.error e)), { s with world })
    else (.error ⟨⟩, s)
  | .purge => if within clock.latest s.now then (.ok .done, s) else (.error ⟨⟩, s)
  | .advance duration =>
    if within clock.longest (s.now + duration) then
      (.ok .done, { s with now := s.now + duration })
    else (.error ⟨⟩, s)

end StoreRecord

/-- All the instants exist that actions need from a time on. -/
def InTime (clock : ClockRange) (interval : Nat) : Nat → List (CacheAction κ ν ε σ) → Prop
  | _, [] => True
  | now, .insert _ _ ttl :: rest | now, .getOrCompute _ ttl _ :: rest =>
    within clock.latest (now + ttl) ∧ within clock.latest (now + interval) ∧
      InTime clock interval now rest
  | now, .get _ :: rest | now, .purge :: rest =>
    within clock.latest now ∧ InTime clock interval now rest
  | now, .advance duration :: rest =>
    within clock.longest (now + duration) ∧ InTime clock interval (now + duration) rest

namespace ResultCache

/-- One action on a cache that drops the expired entries at most once in an interval. -/
def step (clock : ClockRange) (interval : Nat) (s : Timed (ResultCache κ ν) σ) :
    CacheAction κ ν ε σ →
      Except PastLastInstant (CacheReply ν ε) × Timed (ResultCache κ ν) σ
  | .insert key value ttl =>
    let (stored, kept) := s.kept.insertEvery clock.latest interval s.now key value ttl
    (stored.map fun _ => .done, { s with kept })
  | .get key =>
    if within clock.latest s.now then
      let (value, kept) := s.kept.get s.now key
      (.ok (.found value), { s with kept })
    else (.error ⟨⟩, s)
  | .getOrCompute key ttl compute =>
    let (answer, kept, world) :=
      s.kept.getOrRun clock.latest interval s.now key ttl compute s.world
    (answer.map .computed, ⟨kept, s.now, world⟩)
  | .purge =>
    if within clock.latest s.now then (.ok .done, { s with kept := s.kept.purge s.now })
    else (.error ⟨⟩, s)
  | .advance duration =>
    if within clock.longest (s.now + duration) then
      (.ok .done, { s with now := s.now + duration })
    else (.error ⟨⟩, s)

/-! ## The entries of a cache -/

/-- An entry that is put in place of that of its key, or at the end. -/
theorem map_key_putEntry (e : CacheEntry κ ν) (es : List (CacheEntry κ ν)) :
    (putEntry e es).map (·.key) =
      if e.key ∈ es.map (·.key) then es.map (·.key) else es.map (·.key) ++ [e.key] := by
  induction es with
  | nil => simp [putEntry]
  | cons other rest ih =>
    by_cases hkey : other.key = e.key
    · simp [putEntry, hkey]
    · by_cases hmem : e.key ∈ rest.map (·.key)
      · simp only [putEntry, if_neg hkey, List.map_cons, ih, List.mem_cons, hmem, or_true,
          if_true]
      · simp only [putEntry, if_neg hkey, List.map_cons, ih, List.mem_cons, hmem, Ne.symm hkey,
          or_self, if_false, List.cons_append]

/-- Where no key stands twice, the entry of a key is kept if it is
among those that are kept. -/
theorem find?_filter {es : List (CacheEntry κ ν)} (hnodup : (es.map (·.key)).Nodup)
    (p : CacheEntry κ ν → Bool) (key : κ) :
    (es.filter p).find? (·.key = key) = (es.find? (·.key = key)).filter p := by
  induction es with
  | nil => rfl
  | cons e rest ih =>
    rw [List.map_cons, List.nodup_cons] at hnodup
    by_cases hkey : e.key = key
    · have hnone : (rest.filter p).find? (·.key = key) = none := by
        rw [List.find?_eq_none]
        intro other hother
        have hmem := List.mem_map_of_mem (f := (·.key)) (List.mem_filter.1 hother).1
        simpa using fun h : other.key = key => hnodup.1 (hkey.trans h.symm ▸ hmem)
      cases hp : p e <;> simp [hp, hkey, hnone, Option.filter]
    · cases hp : p e <;> simp [hp, hkey, ih hnodup.2]

/-- The entries of a cache are those of the last stores; where a key has none, it has
no value at the time. -/
structure Holds (c : ResultCache κ ν) (stores : List (Store κ ν)) (now : Nat) : Prop where
  nodup : (c.entries.map (·.key)).Nodup
  found : ∀ {key e}, c.find? key = some e →
    ∃ s, Store.last? stores key = some s ∧ e.value = s.value ∧ e.expires = s.time + s.ttl
  missing : ∀ {key}, c.find? key = none → Store.current stores now key = none

variable {c : ResultCache κ ν} {stores : List (Store κ ν)} {now : Nat}

theorem holds_nil (nextPurge : Nat) : (⟨[], nextPurge⟩ : ResultCache κ ν).Holds [] now where
  nodup := List.nodup_nil
  found h := by cases h
  missing _ := rfl

/-- An entry gives its key the value of the last store under it. -/
theorem Holds.current_eq (h : c.Holds stores now) {key : κ} {e : CacheEntry κ ν}
    (he : c.find? key = some e) :
    Store.current stores now key = if now < e.expires then some e.value else none := by
  obtain ⟨s, hlast, hvalue, hexpires⟩ := h.found he
  simp only [Store.current, hlast, hvalue, hexpires]

/-- A cache that holds some stores holds them later. -/
theorem Holds.later (h : c.Holds stores now) {later : Nat} (hle : now ≤ later) :
    c.Holds stores later :=
  ⟨h.nodup, h.found, fun hnone => Store.current_eq_none_of_le hle (h.missing hnone)⟩

/-- Entries that have expired may be dropped. -/
theorem Holds.filter (h : c.Holds stores now) {p : CacheEntry κ ν → Bool} (nextPurge : Nat)
    (hp : ∀ e, c.find? e.key = some e → p e = false → e.expires ≤ now) :
    (⟨c.entries.filter p, nextPurge⟩ : ResultCache κ ν).Holds stores now where
  nodup := (List.filter_sublist.map _).nodup h.nodup
  found := by
    intro key e he
    rw [find?, find?_filter h.nodup, Option.filter_eq_some_iff] at he
    exact h.found he.1
  missing := by
    intro key hnone
    rw [find?, find?_filter h.nodup, Option.filter_eq_none_iff] at hnone
    cases he : c.find? key with
    | none => exact h.missing he
    | some e =>
      have hkey : e.key = key := by simpa using List.find?_some he
      have hexpired := hp e (hkey ▸ he) (by simpa using hnone e he)
      rw [h.current_eq he, if_neg (by omega)]

theorem Holds.purge (h : c.Holds stores now) : (c.purge now).Holds stores now := by
  refine h.filter c.nextPurge fun e _ hp => ?_
  simpa using hp

/-- A look-up finds the value of the key, and drops an entry only if it has expired. -/
theorem Holds.get (h : c.Holds stores now) (key : κ) :
    (c.get now key).1 = Store.current stores now key ∧ (c.get now key).2.Holds stores now := by
  rw [ResultCache.get]
  cases he : c.find? key with
  | none => exact ⟨(h.missing he).symm, h⟩
  | some e =>
    rw [h.current_eq he]
    by_cases hlive : now < e.expires
    · simp only [hlive, ↓reduceIte]
      exact ⟨trivial, h⟩
    · simp only [hlive, ↓reduceIte]
      refine ⟨trivial, h.filter c.nextPurge fun other hother hp => ?_⟩
      have hkey : other.key = key := by simpa using hp
      rw [hkey, he] at hother
      cases hother
      omega

/-- The entry of a value that is stored is that of the newest store. -/
theorem Holds.putEntry (h : c.Holds stores now) (key : κ) (value : ν) (ttl : Nat)
    (nextPurge : Nat) :
    (⟨ResultCache.putEntry ⟨key, value, now + ttl⟩ c.entries, nextPurge⟩ : ResultCache κ ν).Holds
      (⟨key, value, now, ttl⟩ :: stores) now where
  nodup := by
    rw [map_key_putEntry]
    split
    · exact h.nodup
    · rename_i hnew
      exact List.nodup_append.2 ⟨h.nodup, by simp, by
        rintro k hk _ hkey rfl
        exact hnew (List.mem_singleton.1 hkey ▸ hk)⟩
  found := by
    intro other e he
    by_cases hkey : other = key
    · subst hkey
      rw [find?, find?_putEntry_self ⟨other, value, now + ttl⟩] at he
      cases he
      exact ⟨_, Store.last?_cons_self ⟨other, value, now, ttl⟩ stores, rfl, rfl⟩
    · rw [find?, find?_putEntry_of_ne _ _ hkey] at he
      rw [Store.last?_cons_of_ne _ _ hkey]
      exact h.found he
  missing := by
    intro other hnone
    by_cases hkey : other = key
    · subst hkey
      rw [find?, find?_putEntry_self ⟨other, value, now + ttl⟩] at hnone
      cases hnone
    · rw [find?, find?_putEntry_of_ne _ _ hkey] at hnone
      rw [Store.current, Store.last?_cons_of_ne _ _ hkey]
      exact h.missing hnone

/-! ## Actions on a cache and on a record of stores -/

/-- A cache and a record that have come about by the same stores. -/
structure Records (c : ResultCache κ ν) (r : StoreRecord κ ν) (now : Nat) : Prop where
  nextPurge : c.nextPurge = r.nextPurge
  holds : c.Holds r.stores now

/-- Storing fails on both or on neither, and is recorded as far as it is done. -/
theorem Records.insertEvery {r : StoreRecord κ ν} (h : c.Records r now) (latest : Option Nat)
    (interval : Nat) (key : κ) (value : ν) (ttl : Nat) :
    (c.insertEvery latest interval now key value ttl).1 =
        (r.insert latest interval now key value ttl).1 ∧
      (c.insertEvery latest interval now key value ttl).2.Records
        (r.insert latest interval now key value ttl).2 now := by
  rw [ResultCache.insertEvery, StoreRecord.insert, ← h.nextPurge]
  by_cases hlatest : within latest (now + ttl)
  · simp only [hlatest, ↓reduceIte]
    have hput := h.holds.putEntry key value ttl
    rcases nextPurge? latest interval c.nextPurge now with e | _ | next
    · exact ⟨rfl, rfl, hput c.nextPurge⟩
    · exact ⟨rfl, rfl, hput c.nextPurge⟩
    · exact ⟨rfl, rfl, (hput next).purge⟩
  · simp only [hlatest]
    exact ⟨rfl, h⟩

theorem nextPurge_get (c : ResultCache κ ν) (now : Nat) (key : κ) :
    (c.get now key).2.nextPurge = c.nextPurge := by
  rw [get]
  split
  · rfl
  · split <;> rfl

/-- A look-up leaves a cache that has come about by the same stores. -/
theorem Records.get {r : StoreRecord κ ν} (h : c.Records r now) (key : κ) :
    (c.get now key).2.Records r now :=
  ⟨(nextPurge_get c now key).trans h.nextPurge, (h.holds.get key).2⟩

/-- A cache and a record, at one time and with one state of the computations. -/
structure Agrees (s : Timed (ResultCache κ ν) σ) (r : Timed (StoreRecord κ ν) σ) : Prop where
  now : s.now = r.now
  world : s.world = r.world
  records : s.kept.Records r.kept r.now

/-- A computation is run on both or on neither. -/
theorem agrees_getOrCompute (clock : ClockRange) (interval : Nat) {s : Timed (ResultCache κ ν) σ}
    {r : Timed (StoreRecord κ ν) σ} (h : Agrees s r) (key : κ) (ttl : Nat)
    (compute : σ → Except ε ν × σ) :
    (step clock interval s (.getOrCompute key ttl compute)).1 =
        (StoreRecord.step clock interval r (.getOrCompute key ttl compute)).1 ∧
      Agrees (step clock interval s (.getOrCompute key ttl compute)).2
        (StoreRecord.step clock interval r (.getOrCompute key ttl compute)).2 := by
  obtain ⟨c, now, world⟩ := s
  obtain ⟨kept, _, _⟩ := r
  obtain ⟨rfl, rfl, hrecords⟩ := h
  have hvalue := (hrecords.holds.get key).1
  have hkept := hrecords.get key
  simp only [step, StoreRecord.step, getOrRun]
  by_cases hnow : within clock.latest now
  · simp only [hnow, ↓reduceIte]
    rcases hget : c.get now key with ⟨_ | value, c'⟩
    · rw [hget] at hvalue hkept
      simp only [← hvalue]
      rcases compute world with ⟨e | value, world'⟩
      · exact ⟨rfl, rfl, rfl, hkept⟩
      · obtain ⟨hstored, hrecords'⟩ := hkept.insertEvery clock.latest interval key value ttl
        refine ⟨?_, rfl, rfl, hrecords'⟩
        simp only [hstored]
        cases (kept.insert clock.latest interval now key value ttl).1 <;> rfl
    · rw [hget] at hvalue hkept
      simp only [← hvalue]
      exact ⟨rfl, rfl, rfl, hkept⟩
  · simp only [hnow]
    exact ⟨rfl, rfl, rfl, hrecords⟩

/-- An action on a cache is answered as on the record of what was stored. -/
theorem agrees_step (clock : ClockRange) (interval : Nat) {s : Timed (ResultCache κ ν) σ}
    {r : Timed (StoreRecord κ ν) σ} (h : Agrees s r) (action : CacheAction κ ν ε σ) :
    (step clock interval s action).1 = (StoreRecord.step clock interval r action).1 ∧
      Agrees (step clock interval s action).2 (StoreRecord.step clock interval r action).2 := by
  cases action with
  | getOrCompute key ttl compute => exact agrees_getOrCompute clock interval h key ttl compute
  | insert key value ttl =>
    obtain ⟨hnow, hworld, hrecords⟩ := h
    obtain ⟨hstored, hrecords'⟩ := hrecords.insertEvery clock.latest interval key value ttl
    simp only [step, StoreRecord.step, hnow]
    exact ⟨congrArg _ hstored, rfl, hworld, hrecords'⟩
  | get key =>
    obtain ⟨hnow, hworld, hrecords⟩ := h
    simp only [step, StoreRecord.step, hnow]
    split
    · exact ⟨by rw [(hrecords.holds.get key).1], rfl, hworld, hrecords.get key⟩
    · exact ⟨rfl, hnow, hworld, hrecords⟩
  | purge =>
    obtain ⟨hnow, hworld, hrecords⟩ := h
    simp only [step, StoreRecord.step, hnow]
    split
    · exact ⟨rfl, rfl, hworld, hrecords.nextPurge, hrecords.holds.purge⟩
    · exact ⟨rfl, hnow, hworld, hrecords⟩
  | advance duration =>
    obtain ⟨hnow, hworld, hrecords⟩ := h
    simp only [step, StoreRecord.step, hnow]
    split
    · exact ⟨rfl, rfl, hworld, hrecords.nextPurge, hrecords.holds.later (Nat.le_add_right _ _)⟩
    · exact ⟨rfl, hnow, hworld, hrecords⟩

/-- Actions on a cache are answered as on the record of what was stored. -/
theorem agrees_run (clock : ClockRange) (interval : Nat) {s : Timed (ResultCache κ ν) σ}
    {r : Timed (StoreRecord κ ν) σ} (h : Agrees s r) (actions : List (CacheAction κ ν ε σ)) :
    (run (step clock interval) s actions).1 =
        (run (StoreRecord.step clock interval) r actions).1 ∧
      Agrees (run (step clock interval) s actions).2
        (run (StoreRecord.step clock interval) r actions).2 := by
  induction actions generalizing s r with
  | nil => exact ⟨rfl, h⟩
  | cons action rest ih =>
    obtain ⟨hreply, hnext⟩ := agrees_step clock interval h action
    obtain ⟨hreplies, hfinal⟩ := ih hnext
    refine ⟨?_, hfinal⟩
    rw [run, run, hreply, hreplies]

end ResultCache

/-! ## Actions that are in time -/

namespace StoreRecord

open ResultCache (nextPurge?)

variable {clock : ClockRange} {interval : Nat}

theorem within_of_le {bound : Option Nat} {time later : Nat} (hle : time ≤ later)
    (h : within bound later) : within bound time := by
  cases bound with
  | none => rfl
  | some last =>
    simp only [within, Option.all_some, decide_eq_true_eq] at h ⊢
    exact Nat.le_trans hle h

omit [DecidableEq κ] in
/-- A store fails only for want of the instants that it needs. -/
theorem insert_fst (r : StoreRecord κ ν) {now ttl : Nat} (key : κ) (value : ν)
    (hexpires : within clock.latest (now + ttl)) (hnext : within clock.latest (now + interval)) :
    (r.insert clock.latest interval now key value ttl).1 = .ok () := by
  rw [insert, if_pos hexpires, nextPurge?, if_pos hnext]
  by_cases hdue : r.nextPurge ≤ now
  · rw [if_pos hdue]
  · rw [if_neg hdue]

/-- An action that is in time succeeds, and so may what follows it. -/
theorem isOk_step {s : Timed (StoreRecord κ ν) σ} {action : CacheAction κ ν ε σ}
    {rest : List (CacheAction κ ν ε σ)} (h : InTime clock interval s.now (action :: rest)) :
    (step clock interval s action).1.isOk ∧
      InTime clock interval (step clock interval s action).2.now rest := by
  cases action with
  | insert key value ttl =>
    obtain ⟨hexpires, hnext, hrest⟩ := h
    simp only [step, insert_fst s.kept key value hexpires hnext]
    exact ⟨rfl, hrest⟩
  | get key =>
    simp only [step, if_pos h.1]
    exact ⟨rfl, h.2⟩
  | getOrCompute key ttl compute =>
    obtain ⟨hexpires, hnext, hrest⟩ := h
    simp only [step, if_pos (within_of_le (Nat.le_add_right _ _) hexpires)]
    cases Store.current s.kept.stores s.now key with
    | some value => exact ⟨rfl, hrest⟩
    | none =>
      rcases compute s.world with ⟨e | value, world⟩
      · exact ⟨rfl, hrest⟩
      · simp only [insert_fst s.kept key value hexpires hnext]
        exact ⟨rfl, hrest⟩
  | purge =>
    simp only [step, if_pos h.1]
    exact ⟨rfl, h.2⟩
  | advance duration =>
    simp only [step, if_pos h.1]
    exact ⟨rfl, h.2⟩

theorem isOk_run {s : Timed (StoreRecord κ ν) σ} {actions : List (CacheAction κ ν ε σ)}
    (h : InTime clock interval s.now actions) :
    ∀ reply ∈ (run (step clock interval) s actions).1, reply.isOk := by
  induction actions generalizing s with
  | nil => exact fun reply hreply => absurd hreply List.not_mem_nil
  | cons action rest ih =>
    obtain ⟨hreply, hrest⟩ := isOk_step h
    exact List.forall_mem_cons.2 ⟨hreply, ih hrest⟩

end StoreRecord

namespace ResultCache

/-- **Actions on a cache that is empty at first are answered as if everything that was
ever stored were kept.** The same computations are run, and a key is found after the
actions exactly if the last store under it has not yet lived for its time. If time ends,
the same actions fail for want of an instant; where all the instants exist that the
actions need, none of them fails. -/
theorem run_eq_run_stores (clock : ClockRange) (interval nextPurge start : Nat) (world : σ)
    (actions : List (CacheAction κ ν ε σ)) :
    let cached := run (step clock interval) ⟨⟨[], nextPurge⟩, start, world⟩ actions
    let stored := run (StoreRecord.step clock interval) ⟨⟨[], nextPurge⟩, start, world⟩ actions
    cached.1 = stored.1 ∧ cached.2.now = stored.2.now ∧ cached.2.world = stored.2.world ∧
      (∀ key value, (cached.2.kept.get cached.2.now key).1 = some value ↔
        ∃ time ttl, Store.last? stored.2.kept.stores key = some ⟨key, value, time, ttl⟩ ∧
          cached.2.now < time + ttl) ∧
      (InTime clock interval start actions → ∀ reply ∈ cached.1, reply.isOk) := by
  intro cached stored
  have hempty : Agrees (⟨⟨[], nextPurge⟩, start, world⟩ : Timed (ResultCache κ ν) σ)
      ⟨⟨[], nextPurge⟩, start, world⟩ := ⟨rfl, rfl, rfl, holds_nil nextPurge⟩
  obtain ⟨hreplies, hnow, hworld, hrecords⟩ := agrees_run clock interval hempty actions
  refine ⟨hreplies, hnow, hworld, fun key value => ?_, fun hintime => ?_⟩
  · rw [hnow, (hrecords.holds.get key).1]
    exact Store.current_eq_some_iff
  · rw [hreplies]
    exact StoreRecord.isOk_run hintime

/-- Computing a value counts the computations that were run. -/
def counted (key ttl : Nat) : CacheAction Nat Nat Unit Nat :=
  .getOrCompute key ttl fun runs => (.ok runs, runs + 1)

/-- Time ends at ten. A value that would be kept until twelve is computed and not stored, so
another is computed; that one is kept until six, and found at five but not at eight. -/
theorem run_eq_run_stores_untilTen :
    let clock : ClockRange := ⟨some 10, none⟩
    let actions := [counted 1 12, counted 1 6, .advance 5, counted 1 3, .advance 3]
    let cached := run (step clock 1) ⟨⟨[], 1⟩, 0, 0⟩ actions
    let inTime : List (CacheAction Nat Nat Unit Nat) := [counted 1 6, .advance 8, .get 1]
    cached.1.map Except.isOk = [false, true, true, true, true] ∧ cached.2.world = 2 ∧
      cached.2.now = 8 ∧ (cached.2.kept.get 8 1).1 = none ∧ InTime clock 1 0 inTime ∧
      ∀ reply ∈ (run (step clock 1) ⟨⟨[], 1⟩, 0, 0⟩ inTime).1, reply.isOk := by
  intro clock actions cached inTime
  obtain ⟨hreplies, hnow, hworld, hfound, -⟩ := run_eq_run_stores clock 1 1 0 0 actions
  have hintime : InTime clock 1 0 inTime := by simp [inTime, InTime, counted, within, clock]
  refine ⟨?_, hworld.trans rfl, hnow.trans rfl, ?_, hintime,
    (run_eq_run_stores clock 1 1 0 0 inTime).2.2.2.2 hintime⟩
  · rw [hreplies]
    rfl
  · rw [Option.eq_none_iff_forall_ne_some]
    intro value hvalue
    obtain ⟨time, ttl, hlast, hlive⟩ := (hfound 1 value).1 hvalue
    cases hlast
    exact absurd hlive (by decide)

end ResultCache

end RoleQuery
