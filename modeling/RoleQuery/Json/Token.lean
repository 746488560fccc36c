import RoleQuery.Json.Basic

/-!
# Tokens of JSON texts

A text is read one character at a time by a machine that is between tokens or inside one. A
number or a quoted text can be well formed and still have no value: a number beyond the range
of binary64, half of a surrogate pair. Such a token stands for an unusable part, which is an
error only where somebody wants the value.
-/
namespace RoleQuery.Json

/-- What a JSON text says, before its parts are given values. -/
inductive Raw where
  | null
  | bool (b : Bool)
  | int (n : Int)
  | float (x : Binary64)
  | str (s : String)
  | list (items : List Raw)
  /-- Members as written, a name possibly more than once. -/
  | object (members : List (String × Raw))
  /-- A part that is well formed but has no value. -/
  | unusable
  deriving Repr, Inhabited

/-- A token of a JSON text. -/
inductive Token where
  | beginList
  | endList
  | beginObject
  | endObject
  | comma
  | colon
  /-- A literal or a number. -/
  | scalar (value : Raw)
  /-- A quoted text; it has no value where half of a surrogate pair stands alone. -/
  | text (value : Option String)

namespace Token

/-- The integer that a list of decimal digits writes. -/
def natOfDigits (digits : List Char) : Nat :=
  digits.foldl (fun n c => 10 * n + (c.toNat - 48)) 0

/-- The number `± whole.fraction * 10 ^ exponent`, unusable when it is beyond the range. -/
def floatOfDigits (negative : Bool) (whole fraction : List Char) (exponent : Int) : Raw :=
  let x := Binary64.ofDecimal negative (natOfDigits (whole ++ fraction))
    (exponent - fraction.length)
  if x.isFinite then .float x else .unusable

/-- An integer token. It is an integer if it fits sixty-four bits, signed or unsigned; `-0`
and all others are floating-point numbers. -/
def integer (negative : Bool) (digits : List Char) : Raw :=
  let n := natOfDigits digits
  if !negative && decide (n < UInt64.size) then .int n
  else if negative && n != 0 && decide (n ≤ 0x8000000000000000) then .int (-(n : Int))
  else floatOfDigits negative digits [] 0

/-- The exponent of a number: a sign and at least one digit. -/
def exponent? (cs : List Char) : Option Int :=
  let (negative, digits) : Bool × List Char := match cs with
    | '-' :: rest => (true, rest)
    | '+' :: rest => (false, rest)
    | _ => (false, cs)
  if digits.isEmpty || !digits.all Char.isDigit then none
  else if negative then some (-(natOfDigits digits : Int)) else some (natOfDigits digits)

/-- A number: no leading zero, at least one digit after a point, an
exponent only with digits. -/
def number? (cs : List Char) : Option Raw :=
  let (negative, cs) : Bool × List Char := match cs with
    | '-' :: rest => (true, rest)
    | _ => (false, cs)
  let whole := cs.takeWhile Char.isDigit
  if whole.isEmpty || (whole.head? == some '0' && whole.length != 1) then none
  else match cs.dropWhile Char.isDigit with
    | [] => some (integer negative whole)
    | '.' :: rest =>
      let fraction := rest.takeWhile Char.isDigit
      if fraction.isEmpty then none
      else match rest.dropWhile Char.isDigit with
        | [] => some (floatOfDigits negative whole fraction 0)
        | c :: tail =>
          if c = 'e' ∨ c = 'E' then
            (exponent? tail).map (floatOfDigits negative whole fraction)
          else none
    | c :: tail =>
      if c = 'e' ∨ c = 'E' then (exponent? tail).map (floatOfDigits negative whole [])
      else none

def literal? (cs : List Char) : Option Raw :=
  if cs = ['t', 'r', 'u', 'e'] then some (.bool true)
  else if cs = ['f', 'a', 'l', 's', 'e'] then some (.bool false)
  else if cs = ['n', 'u', 'l', 'l'] then some .null
  else none

/-- One unit of a quoted text: a character, or the sixteen bits of a numeric escape. -/
inductive TextUnit where
  | char (c : Char)
  | escaped (code : Nat)

/-- The characters that units stand for; a surrogate counts only as part of a pair. -/
def chars? : List TextUnit → Option (List Char)
  | [] => some []
  | .char c :: rest => (chars? rest).map (c :: ·)
  | .escaped high :: rest =>
    if 0xD800 ≤ high ∧ high < 0xDC00 then
      match rest with
      | .escaped low :: rest =>
        if 0xDC00 ≤ low ∧ low < 0xE000 then
          (chars? rest).map
            (Char.ofNat (0x10000 + (high - 0xD800) * 0x400 + (low - 0xDC00)) :: ·)
        else none
      | _ => none
    else if 0xDC00 ≤ high ∧ high < 0xE000 then none
    else (chars? rest).map (Char.ofNat high :: ·)

/-- The text that units stand for. -/
def text? (units : List TextUnit) : Option String := (chars? units).map String.ofList

/-- The value of a hexadecimal digit. -/
def hexValue? (c : Char) : Option Nat :=
  if '0' ≤ c ∧ c ≤ '9' then some (c.toNat - 48)
  else if 'a' ≤ c ∧ c ≤ 'f' then some (c.toNat - 87)
  else if 'A' ≤ c ∧ c ≤ 'F' then some (c.toNat - 55)
  else none

/-- The character after a backslash, other than the numeric escape. -/
def escape? (c : Char) : Option Char :=
  if c = '"' ∨ c = '\\' ∨ c = '/' then some c
  else if c = 'b' then some (Char.ofNat 8)
  else if c = 'f' then some (Char.ofNat 12)
  else if c = 'n' then some '\n'
  else if c = 'r' then some '\r'
  else if c = 't' then some '\t'
  else none

/-- Where the reader of characters stands; what it has read of a token is kept in reverse. -/
inductive Reading where
  | between
  | word (read : List Char)
  | number (read : List Char)
  | text (read : List TextUnit)
  | escape (read : List TextUnit)
  /-- Inside a numeric escape that lacks `left` digits. -/
  | code (read : List TextUnit) (left : Nat) (value : Nat)

/-- Characters that continue a number. -/
def isNumberChar (c : Char) : Bool :=
  c.isDigit || c == '-' || c == '+' || c == '.' || c == 'e' || c == 'E'

/-- Read a character that stands between tokens; `out` holds the tokens so far, last first. -/
def start? (out : List Token) (c : Char) : Option (List Token × Reading) :=
  if c = ' ' ∨ c = '\n' ∨ c = '\t' ∨ c = '\r' then some (out, .between)
  else if c = '[' then some (.beginList :: out, .between)
  else if c = ']' then some (.endList :: out, .between)
  else if c = '\x7b' then some (.beginObject :: out, .between)
  else if c = '\x7d' then some (.endObject :: out, .between)
  else if c = ',' then some (.comma :: out, .between)
  else if c = ':' then some (.colon :: out, .between)
  else if c = '"' then some (out, .text [])
  else if c.isDigit || c == '-' then some (out, .number [c])
  else if c.isLower then some (out, .word [c])
  else none

def step? (out : List Token) (c : Char) : Reading → Option (List Token × Reading)
  | .between => start? out c
  | .word read =>
    if c.isLower then some (out, .word (c :: read))
    else (literal? read.reverse).bind fun value => start? (.scalar value :: out) c
  | .number read =>
    if isNumberChar c then some (out, .number (c :: read))
    else (number? read.reverse).bind fun value => start? (.scalar value :: out) c
  | .text read =>
    if c = '"' then some (.text (text? read.reverse) :: out, .between)
    else if c = '\\' then some (out, .escape read)
    else if c.toNat < 32 then none
    else some (out, .text (.char c :: read))
  | .escape read =>
    if c = 'u' then some (out, .code read 4 0)
    else (escape? c).map fun d => (out, .text (.char d :: read))
  | .code read left value =>
    (hexValue? c).map fun digit =>
      let value := 16 * value + digit
      if left ≤ 1 then (out, .text (.escaped value :: read))
      else (out, .code read (left - 1) value)

/-- The end of the text. -/
def finish? (out : List Token) : Reading → Option (List Token)
  | .between => some out.reverse
  | .word read => (literal? read.reverse).map fun value => (.scalar value :: out).reverse
  | .number read => (number? read.reverse).map fun value => (.scalar value :: out).reverse
  | _ => none

/-- The tokens of the characters that follow the tokens `out`. -/
def read? (out : List Token) (state : Reading) : List Char → Option (List Token)
  | [] => finish? out state
  | c :: rest =>
    match step? out c state with
    | some (out, state) => read? out state rest
    | none => none

def ofChars? (cs : List Char) : Option (List Token) := read? [] .between cs

end Token

end RoleQuery.Json
