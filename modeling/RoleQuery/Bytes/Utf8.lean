/-!
# UTF-8

Texts as bytes. Decoding accepts exactly the shortest form of every character, and a fault
says where the first ill-formed sequence begins and how long its well-formed beginning is.
-/
namespace RoleQuery

namespace Utf8

/-- Why bytes are no text. -/
inductive Fault where
  /-- The `length` bytes at `index` begin no character. -/
  | invalid (length index : Nat)
  /-- The bytes end inside the character at `index`. -/
  | incomplete (index : Nat)
  deriving DecidableEq, Repr

def Fault.message : Fault → String
  | .invalid length index => s!"invalid utf-8 sequence of {length} bytes from index {index}"
  | .incomplete index => s!"incomplete utf-8 byte sequence from index {index}"

def encodeChar (c : Char) : List UInt8 :=
  let n := c.toNat
  if n < 0x80 then [UInt8.ofNat n]
  else if n < 0x800 then [UInt8.ofNat (0xC0 + n / 64), UInt8.ofNat (0x80 + n % 64)]
  else if n < 0x10000 then
    [UInt8.ofNat (0xE0 + n / 4096), UInt8.ofNat (0x80 + n / 64 % 64), UInt8.ofNat (0x80 + n % 64)]
  else
    [UInt8.ofNat (0xF0 + n / 262144), UInt8.ofNat (0x80 + n / 4096 % 64),
      UInt8.ofNat (0x80 + n / 64 % 64), UInt8.ofNat (0x80 + n % 64)]

/-- The bytes of a text. -/
def encode (s : String) : List UInt8 := s.toList.flatMap encodeChar

/-- Whether a byte continues a character. -/
def isContinuation (b : UInt8) : Bool := decide (0x80 ≤ b.toNat ∧ b.toNat < 0xC0)

/-- The second bytes that may follow the first byte of a character of three bytes: those that
make the form shortest and no surrogate. -/
def secondOfThree (first second : UInt8) : Bool :=
  if first = 0xE0 then decide (0xA0 ≤ second.toNat ∧ second.toNat < 0xC0)
  else if first = 0xED then decide (0x80 ≤ second.toNat ∧ second.toNat < 0xA0)
  else isContinuation second

/-- The second bytes that may follow the first byte of a character of four bytes. -/
def secondOfFour (first second : UInt8) : Bool :=
  if first = 0xF0 then decide (0x90 ≤ second.toNat ∧ second.toNat < 0xC0)
  else if first = 0xF4 then decide (0x80 ≤ second.toNat ∧ second.toNat < 0x90)
  else isContinuation second

/-- The low six bits of a byte, counted `places` sextets up. -/
def sextet (b : UInt8) (places : Nat) : Nat := (b.toNat % 64) <<< (6 * places)

/-- The characters of the bytes that begin at `index`. -/
def decodeAt (index : Nat) : List UInt8 → Except Fault (List Char)
  | [] => .ok []
  | a :: rest =>
    if a.toNat < 0x80 then (decodeAt (index + 1) rest).map (Char.ofNat a.toNat :: ·)
    else if 0xC2 ≤ a.toNat ∧ a.toNat < 0xE0 then
      match rest with
      | [] => .error (.incomplete index)
      | b :: rest =>
        if isContinuation b then
          (decodeAt (index + 2) rest).map
            (Char.ofNat ((a.toNat - 0xC0) * 64 + sextet b 0) :: ·)
        else .error (.invalid 1 index)
    else if 0xE0 ≤ a.toNat ∧ a.toNat < 0xF0 then
      match rest with
      | [] => .error (.incomplete index)
      | b :: rest =>
        if secondOfThree a b then
          match rest with
          | [] => .error (.incomplete index)
          | c :: rest =>
            if isContinuation c then
              (decodeAt (index + 3) rest).map
                (Char.ofNat ((a.toNat - 0xE0) * 4096 + sextet b 1 + sextet c 0) :: ·)
            else .error (.invalid 2 index)
        else .error (.invalid 1 index)
    else if 0xF0 ≤ a.toNat ∧ a.toNat < 0xF5 then
      match rest with
      | [] => .error (.incomplete index)
      | b :: rest =>
        if secondOfFour a b then
          match rest with
          | [] => .error (.incomplete index)
          | c :: rest =>
            if isContinuation c then
              match rest with
              | [] => .error (.incomplete index)
              | d :: rest =>
                if isContinuation d then
                  (decodeAt (index + 4) rest).map
                    (Char.ofNat
                      ((a.toNat - 0xF0) * 262144 + sextet b 2 + sextet c 1 + sextet d 0) :: ·)
                else .error (.invalid 3 index)
            else .error (.invalid 2 index)
        else .error (.invalid 1 index)
    else .error (.invalid 1 index)

def decode (bytes : List UInt8) : Except Fault String := (decodeAt 0 bytes).map String.ofList

end Utf8

end RoleQuery
