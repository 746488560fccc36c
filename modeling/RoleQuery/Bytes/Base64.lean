/-!
# Base64 with the URL-safe alphabet

Three bytes are written as four symbols, and a rest of one or two bytes as two or three; there
is no padding. Reading accepts exactly what writing produces: the bits that are left over in
the last symbol must be zero.
-/
namespace RoleQuery

namespace Base64

/-- Why bytes are no base64 text. -/
inductive Fault where
  /-- The byte at `offset` is no symbol. -/
  | symbol (byte : UInt8) (offset : Nat)
  /-- No bytes are written with so many symbols. -/
  | length (n : Nat)
  /-- The last symbol has bits that belong to no byte. -/
  | lastSymbol (byte : UInt8) (offset : Nat)
  deriving DecidableEq, Repr

def Fault.message : Fault → String
  | .symbol byte offset => s!"Invalid symbol {byte.toNat}, offset {offset}."
  | .length n => s!"Invalid input length: {n}"
  | .lastSymbol byte offset => s!"Invalid last symbol {byte.toNat}, offset {offset}."

/-- The symbol of a number below 64. -/
def symbol (n : Nat) : Char :=
  if n < 26 then Char.ofNat (65 + n)
  else if n < 52 then Char.ofNat (71 + n)
  else if n < 62 then Char.ofNat (n - 4)
  else if n = 62 then '-'
  else '_'

/-- The number of a symbol, given as a byte. -/
def value? (b : UInt8) : Option Nat :=
  let n := b.toNat
  if 65 ≤ n ∧ n ≤ 90 then some (n - 65)
  else if 97 ≤ n ∧ n ≤ 122 then some (n - 71)
  else if 48 ≤ n ∧ n ≤ 57 then some (n + 4)
  else if n = 45 then some 62
  else if n = 95 then some 63
  else none

def symbols : List UInt8 → List Char
  | [] => []
  | [a] => [symbol (a.toNat / 4), symbol (a.toNat % 4 * 16)]
  | [a, b] =>
    [symbol (a.toNat / 4), symbol (a.toNat % 4 * 16 + b.toNat / 16), symbol (b.toNat % 16 * 4)]
  | a :: b :: c :: rest =>
    symbol (a.toNat / 4) :: symbol (a.toNat % 4 * 16 + b.toNat / 16) ::
      symbol (b.toNat % 16 * 4 + c.toNat / 64) :: symbol (c.toNat % 64) :: symbols rest

def encode (bytes : List UInt8) : String := String.ofList (symbols bytes)

/-- The bytes of sextets, and the value of the bits left over. -/
def join : List Nat → List UInt8 × Nat
  | a :: b :: c :: d :: rest =>
    let (bytes, left) := join rest
    (UInt8.ofNat (a * 4 + b / 16) :: UInt8.ofNat (b % 16 * 16 + c / 4) ::
      UInt8.ofNat (c % 4 * 64 + d) :: bytes, left)
  | [a, b, c] => ([UInt8.ofNat (a * 4 + b / 16), UInt8.ofNat (b % 16 * 16 + c / 4)], c % 4)
  | [a, b] => ([UInt8.ofNat (a * 4 + b / 16)], b % 16)
  | _ => ([], 0)

/-- The first byte that is no symbol, with its offset. -/
def firstInvalid? (offset : Nat) : List UInt8 → Option (UInt8 × Nat)
  | [] => none
  | b :: rest => if (value? b).isSome then firstInvalid? (offset + 1) rest else some (b, offset)

/-- The bytes of a text, given as its own bytes. A last byte that no length admits is reported
before an earlier one that is no symbol. -/
def decode (text : List UInt8) : Except Fault (List UInt8) :=
  let n := text.length
  let last := text.getLastD 0
  if n % 4 = 1 ∧ value? last = none then .error (.symbol last (n - 1))
  else match firstInvalid? 0 text with
    | some (b, offset) => .error (.symbol b offset)
    | none =>
      if n % 4 = 1 then .error (.length n)
      else
        let (bytes, left) := join (text.filterMap value?)
        if left = 0 then .ok bytes else .error (.lastSymbol last (n - 1))

end Base64

end RoleQuery
