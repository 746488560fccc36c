import RoleQuery.Bytes.Utf8
import RoleQuery.Value

/-!
# A binary form of values

Numbers have a fixed width and their low byte first; a text is its length in eight bytes and
its UTF-8 bytes; one of several forms is its index in four bytes and its contents. A reader
takes its part off the front of the bytes and leaves the rest.
-/
namespace RoleQuery.Wire

/-- Why bytes do not hold what is read from them. -/
inductive Fault where
  /-- A number is cut short. -/
  | numberCut
  /-- A text is longer than the rest. -/
  | textCut
  /-- The index of a form is not below `limit`. -/
  | form (index limit : Nat)
  /-- A truth value is neither 0 nor 1. -/
  | truth (byte : Nat)
  | encoding (fault : Utf8.Fault)
  deriving DecidableEq, Repr

def Fault.message : Fault → String
  | .numberCut => "io error: unexpected end of file"
  | .textCut => "io error: "
  | .form index limit =>
    "invalid value: integer `" ++ toString index ++ "`, expected variant index 0 <= i < " ++
      toString limit
  | .truth byte => s!"invalid u8 while decoding bool, expected 0 or 1, found {byte}"
  | .encoding fault => "string is not valid utf8: " ++ fault.message

/-- The `width` low bytes of a number, the lowest first. -/
def littleEndian : Nat → Nat → List UInt8
  | 0, _ => []
  | width + 1, n => UInt8.ofNat (n % 256) :: littleEndian width (n / 256)

/-- The number that bytes write, the lowest first. -/
def ofLittleEndian : List UInt8 → Nat
  | [] => 0
  | b :: rest => b.toNat + 256 * ofLittleEndian rest

@[simp] theorem length_littleEndian (width n : Nat) : (littleEndian width n).length = width := by
  induction width generalizing n with
  | zero => rfl
  | succ width ih => simp [littleEndian, ih]

/-- A length in eight bytes and the UTF-8 bytes. -/
def text (s : String) : List UInt8 :=
  let bytes := Utf8.encode s
  littleEndian 8 bytes.length ++ bytes

/-- The bytes of a scalar. -/
def value : Value → List UInt8
  | .null => littleEndian 4 0
  | .boolean b => littleEndian 4 1 ++ [if b then 1 else 0]
  | .integer n => littleEndian 4 2 ++ littleEndian 8 n.toUInt64.toNat
  | .float x => littleEndian 4 3 ++ littleEndian 8 x.bits.toNat
  | .text s => littleEndian 4 4 ++ text s

/-- The number of items in eight bytes, and the items. -/
def list {α : Type} (item : α → List UInt8) (items : List α) : List UInt8 :=
  littleEndian 8 items.length ++ items.flatMap item

/-- Reads a part off the front of the bytes. -/
abbrev Reader (α : Type) := List UInt8 → Except Fault (α × List UInt8)

/-- A number of `width` bytes. -/
def readNat (width : Nat) : Reader Nat := fun bytes =>
  if width ≤ bytes.length then .ok (ofLittleEndian (bytes.take width), bytes.drop width)
  else .error .numberCut

/-- The index of one of `limit` forms. -/
def readForm (limit : Nat) : Reader Nat := fun bytes =>
  match readNat 4 bytes with
  | .error fault => .error fault
  | .ok (index, rest) => if index < limit then .ok (index, rest) else .error (.form index limit)

def readText : Reader String := fun bytes =>
  match readNat 8 bytes with
  | .error fault => .error fault
  | .ok (length, rest) =>
    if length ≤ rest.length then
      match Utf8.decode (rest.take length) with
      | .ok s => .ok (s, rest.drop length)
      | .error fault => .error (.encoding fault)
    else .error .textCut

def readTruth : Reader Bool := fun bytes =>
  match readNat 1 bytes with
  | .error fault => .error fault
  | .ok (byte, rest) =>
    if byte = 0 then .ok (false, rest)
    else if byte = 1 then .ok (true, rest)
    else .error (.truth byte)

/-- A scalar. -/
def readValue : Reader Value := fun bytes =>
  match readForm 5 bytes with
  | .error fault => .error fault
  | .ok (0, rest) => .ok (.null, rest)
  | .ok (1, rest) => (readTruth rest).map fun (b, rest) => (.boolean b, rest)
  | .ok (2, rest) => (readNat 8 rest).map fun (n, rest) => (.integer (UInt64.ofNat n).toInt64, rest)
  | .ok (3, rest) => (readNat 8 rest).map fun (n, rest) => (.float ⟨UInt64.ofNat n⟩, rest)
  | .ok (_, rest) => (readText rest).map fun (s, rest) => (.text s, rest)

/-- So many items one after another. -/
def readItems {α : Type} (item : Reader α) : Nat → Reader (List α)
  | 0 => fun bytes => .ok ([], bytes)
  | n + 1 => fun bytes =>
    match item bytes with
    | .error fault => .error fault
    | .ok (x, rest) => (readItems item n rest).map fun (xs, rest) => (x :: xs, rest)

def readList {α : Type} (item : Reader α) : Reader (List α) := fun bytes =>
  match readNat 8 bytes with
  | .error fault => .error fault
  | .ok (n, rest) => readItems item n rest

end RoleQuery.Wire
