import RoleQuery.Bytes.Sha256
import RoleQuery.Service.Read

/-!
# Cache keys

An answer depends on the entity, the role, the statement with its parameters, the number of
rows that are fetched and where the page starts. The key of an answer is the digest of all of
these, each preceded by its length, so that no part can run into the next.
-/
namespace RoleQuery

/-- The key of an answer: a digest. -/
abbrev CacheKey := List UInt8

namespace CacheKey

def parameterBytes (p : String × Value) : List UInt8 := Wire.text p.1 ++ Wire.value p.2

def continuationBytes : Continuation → List UInt8
  | .start => Wire.littleEndian 4 0
  | .after values => Wire.littleEndian 4 1 ++ Wire.list Wire.value values
  | .token token => Wire.littleEndian 4 2 ++ Wire.text token

/-- A part, preceded by its length. -/
def part (bytes : List UInt8) : List UInt8 := Wire.littleEndian 8 bytes.length ++ bytes

/-- The bytes that identify an answer. -/
def message (role : String) (q : CompiledRead) : List UInt8 :=
  part (Utf8.encode q.plan.entity) ++ part (Utf8.encode role) ++
    part (Utf8.encode q.statement.text) ++
    part (Wire.list parameterBytes q.statement.parameters) ++
    part (Wire.littleEndian 4 q.plan.pagination.fetchLimit.toNat) ++
    part (continuationBytes q.plan.pagination.continuation)

def ofRead (role : String) (q : CompiledRead) : CacheKey := Sha256.digest (message role q)

/-- The form of a key in messages: its first six bytes. -/
def display (key : CacheKey) : String := Sha256.hex (key.take 6)

end CacheKey

end RoleQuery
