/-!
# A cache of results

A result is stored under a key for a time to live and is given back until that time has
passed. A look-up removes the entry it finds expired, and storing removes all expired entries,
at most once a second. Time is counted in milliseconds and never goes backwards. It may end: a
clock can have a last instant, and what would need a later one is not done.
-/
namespace RoleQuery

/-- A stored result, with the time at which it expires. -/
structure CacheEntry (κ ν : Type) where
  key : κ
  value : ν
  expires : Nat
  deriving Repr

/-- An instant after the last one of the clock was needed. -/
structure PastLastInstant where
  deriving DecidableEq, Repr

/-- Whether a time is within a bound, if there is one. -/
def within (bound : Option Nat) (time : Nat) : Bool := bound.all (time ≤ ·)

/-- Stored results, at most one for a key. -/
structure ResultCache (κ ν : Type) where
  entries : List (CacheEntry κ ν)
  /-- From when on storing a result removes the expired ones. -/
  nextPurge : Nat
  deriving Repr

namespace ResultCache

variable {κ ν : Type} [DecidableEq κ]

/-- The shortest time between two removals of all expired results. -/
def purgeInterval : Nat := 1000

def empty (now : Nat) : ResultCache κ ν := ⟨[], now + purgeInterval⟩

def size (c : ResultCache κ ν) : Nat := c.entries.length

def find? (c : ResultCache κ ν) (key : κ) : Option (CacheEntry κ ν) :=
  c.entries.find? (·.key = key)

/-- Look a key up. An expired entry is removed. -/
def get (c : ResultCache κ ν) (now : Nat) (key : κ) : Option ν × ResultCache κ ν :=
  match c.find? key with
  | none => (none, c)
  | some e =>
    if now < e.expires then (some e.value, c)
    else (none, { c with entries := c.entries.filter fun e => e.key ≠ key })

/-- Remove every expired entry. -/
def purge (c : ResultCache κ ν) (now : Nat) : ResultCache κ ν :=
  { c with entries := c.entries.filter fun e => now < e.expires }

/-- Put an entry among entries, in place of that of the same key. -/
def putEntry (e : CacheEntry κ ν) : List (CacheEntry κ ν) → List (CacheEntry κ ν)
  | [] => [e]
  | other :: rest => if other.key = e.key then e :: rest else other :: putEntry e rest

/-- The next time to remove the expired entries, if it is time to remove them now. -/
def nextPurge? (latest : Option Nat) (interval due now : Nat) :
    Except PastLastInstant (Option Nat) :=
  if due ≤ now then
    if within latest (now + interval) then .ok (some (now + interval)) else .error ⟨⟩
  else .ok none

/-- Store a value for a time to live, and remove the expired entries at most once in an
interval. A value that would expire after the last instant is not stored. Where it is time to
remove the expired entries and there is no instant for the next time, the value is stored and
none of them is removed. -/
def insertEvery (latest : Option Nat) (interval : Nat) (c : ResultCache κ ν) (now : Nat) (key : κ)
    (value : ν) (ttl : Nat) : Except PastLastInstant Unit × ResultCache κ ν :=
  if within latest (now + ttl) then
    let entries := putEntry ⟨key, value, now + ttl⟩ c.entries
    match nextPurge? latest interval c.nextPurge now with
    | .ok none => (.ok (), { c with entries })
    | .ok (some next) => (.ok (), purge ⟨entries, next⟩ now)
    | .error e => (.error e, { c with entries })
  else (.error ⟨⟩, c)

/-- The stored value of a key, or else a computed one, which is then stored; a failed
computation stores nothing. The computation acts on a state of its own, and has acted on it
even if its value cannot be stored. -/
def getOrRun {ε σ : Type} (latest : Option Nat) (interval : Nat) (c : ResultCache κ ν) (now : Nat)
    (key : κ) (ttl : Nat) (compute : σ → Except ε ν × σ) (world : σ) :
    Except PastLastInstant (Except ε ν) × ResultCache κ ν × σ :=
  if within latest now then
    match c.get now key with
    | (some value, c) => (.ok (.ok value), c, world)
    | (none, c) =>
      match compute world with
      | (.ok value, world) =>
        let (stored, c) := c.insertEvery latest interval now key value ttl
        (stored.map fun _ => .ok value, c, world)
      | (.error e, world) => (.ok (.error e), c, world)
  else (.error ⟨⟩, c, world)

/-- Store a value for a time to live, on a clock without a last instant. -/
def insert (c : ResultCache κ ν) (now : Nat) (key : κ) (value : ν) (ttl : Nat) :
    ResultCache κ ν :=
  (c.insertEvery none purgeInterval now key value ttl).2

/-- The stored value of a key, or else a computed one, which is then stored, on a clock
without a last instant. -/
def getOrCompute {ε : Type} (c : ResultCache κ ν) (now : Nat) (key : κ) (ttl : Nat)
    (compute : Except ε ν) : Except ε ν × ResultCache κ ν :=
  match c.get now key with
  | (some value, c) => (.ok value, c)
  | (none, c) =>
    match compute with
    | .ok value => (.ok value, c.insert now key value ttl)
    | .error e => (.error e, c)

theorem insert_eq (c : ResultCache κ ν) (now : Nat) (key : κ) (value : ν) (ttl : Nat) :
    c.insert now key value ttl =
      if c.nextPurge ≤ now then
        purge ⟨putEntry ⟨key, value, now + ttl⟩ c.entries, now + purgeInterval⟩ now
      else { c with entries := putEntry ⟨key, value, now + ttl⟩ c.entries } := by
  rw [insert, insertEvery, nextPurge?]
  by_cases hdue : c.nextPurge ≤ now <;> simp [within, hdue]

/-- Where the clock has the instants that storing a value needs, its end makes no difference. -/
theorem getOrRun_of_within {ε σ : Type} {latest : Option Nat} {now ttl : Nat}
    (hnow : within latest now) (hexpires : within latest (now + ttl))
    (hpurge : within latest (now + purgeInterval)) (c : ResultCache κ ν) (key : κ)
    (compute : σ → Except ε ν × σ) (world : σ) :
    ((c.getOrRun latest purgeInterval now key ttl compute world).1,
      (c.getOrRun latest purgeInterval now key ttl compute world).2.1) =
        (.ok (c.getOrCompute now key ttl (compute world).1).1,
          (c.getOrCompute now key ttl (compute world).1).2) := by
  rw [getOrRun, getOrCompute, if_pos hnow]
  rcases c.get now key with ⟨_ | value, c⟩
  · rcases compute world with ⟨e | value, world⟩
    · rfl
    · simp only [insert_eq, insertEvery, if_pos hexpires, nextPurge?, hpurge, ↓reduceIte]
      by_cases hdue : c.nextPurge ≤ now <;> simp [hdue, Except.map]
  · rfl

theorem find?_putEntry_self (e : CacheEntry κ ν) (es : List (CacheEntry κ ν)) :
    (putEntry e es).find? (·.key = e.key) = some e := by
  induction es with
  | nil => simp [putEntry]
  | cons other rest ih => by_cases h : other.key = e.key <;> simp [putEntry, h, ih]

theorem find?_putEntry_of_ne (e : CacheEntry κ ν) (es : List (CacheEntry κ ν)) {key : κ}
    (hne : key ≠ e.key) : (putEntry e es).find? (·.key = key) = es.find? (·.key = key) := by
  induction es with
  | nil => simp [putEntry, Ne.symm hne]
  | cons other rest ih =>
    by_cases h : other.key = e.key
    · simp [putEntry, h, Ne.symm hne]
    · simp [putEntry, h, List.find?_cons, ih]

end ResultCache

end RoleQuery
