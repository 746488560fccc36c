import RoleQuery.Cache.Basic
import RoleQuery.Cache.Key
import RoleQuery.Service.Write

/-!
# The service

The service answers requests against one catalog. It holds the tables, the cache of answers
and the time; a read goes through the cache if the entity is cached, and a write goes to the
tables and leaves the cache alone, so that an answer may be as old as its time to live.
-/
namespace RoleQuery

/-- The state of the service. -/
structure Service where
  catalog : Catalog
  tables : Tables
  cache : ResultCache CacheKey String
  /-- The time in milliseconds, on a clock without a last instant. -/
  now : Nat
  deriving Repr

namespace Service

/-- A service that starts now, with an empty cache. -/
def start (catalog : Catalog) (tables : Tables) : Service := ⟨catalog, tables, .empty 0, 0⟩

/-- Compile a read without carrying it out. -/
def compile (s : Service) (request : ReadRequest) (caller : Caller) :
    Except RequestError CompiledRead :=
  s.catalog.compileRead request caller

/-- Answer a read. -/
def read (s : Service) (request : ReadRequest) (caller : Caller) :
    Except RequestError String × Service :=
  let compiled : Except RequestError (CompiledRead × Entity) := do
    let q ← s.compile request caller
    let e ← s.catalog.requireEntity q.plan.entity
    return (q, e)
  match compiled with
  | .error error => (.error error, s)
  | .ok (q, e) =>
    match s.catalog.cacheTtl? e with
    | none => (q.fetch s.tables, s)
    | some ttl =>
      let (answer, cache) :=
        s.cache.getOrCompute s.now (CacheKey.ofRead caller.role q) ttl (q.fetch s.tables)
      (answer, { s with cache })

/-- Answer a write. -/
def write (s : Service) (request : WriteRequest) (caller : Caller) :
    Except RequestError WriteAnswer × Service :=
  let (answer, tables) := s.catalog.write s.tables request caller
  (answer, { s with tables })

/-- Let time pass. -/
def advance (s : Service) (milliseconds : Nat) : Service := { s with now := s.now + milliseconds }

/-- Remove the expired answers. -/
def purge (s : Service) : Service := { s with cache := s.cache.purge s.now }

end Service

end RoleQuery
