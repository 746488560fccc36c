import RoleQuery.Json.Printer
import RoleQuery.Text.Quoted

/-!
# Scalar values

Filter operands, statement parameters and cursor positions are scalars. They are fewer
kinds than JSON has: an integer has sixty-four bits, and a number beyond that range is
a floating-point number.
-/
namespace RoleQuery

/-- A scalar. -/
inductive Value where
  | null
  | boolean (b : Bool)
  | integer (n : Int64)
  | float (x : Binary64)
  | text (s : String)
  deriving DecidableEq, Repr, Inhabited

namespace Value

/-- The kinds of scalars other than null. -/
inductive Kind where
  | boolean
  | integer
  | float
  | text
  deriving DecidableEq, Repr

/-- The kind of a scalar; null has none. -/
def kind? : Value → Option Kind
  | .null => none
  | .boolean _ => some .boolean
  | .integer _ => some .integer
  | .float _ => some .float
  | .text _ => some .text

def isNull : Value → Bool
  | .null => true
  | _ => false

def text? : Value → Option String
  | .text s => some s
  | _ => none

/-- The truth value of a truth value. -/
def boolean? : Value → Option Bool
  | .boolean b => some b
  | _ => none

/-- Whether an integer fits sixty-four bits. -/
def fitsInt64 (n : Int) : Bool := decide (-0x8000000000000000 ≤ n ∧ n < 0x8000000000000000)

/-- The scalar of a JSON scalar. An integer beyond sixty-four bits is rounded to a
floating-point number; lists and objects are no scalars. -/
def ofJson? : Json → Option Value
  | .null => some .null
  | .bool b => some (.boolean b)
  | .int n => some (if fitsInt64 n then .integer (Int64.ofInt n) else .float (Binary64.ofInt n))
  | .float x => some (.float x)
  | .str s => some (.text s)
  | .list _ | .object _ => none

/-- The JSON form of a scalar. JSON has no form for NaN and the infinities. -/
def toJson : Value → Json
  | .null => .null
  | .boolean b => .bool b
  | .integer n => .int n.toInt
  | .float x => if x.isFinite then .float x else .null
  | .text s => .str s

/-- The order of two scalars. Numbers compare as numbers, an integer rounded to binary64
where it meets a floating-point number; a null, a NaN and scalars of different kinds
compare with nothing. -/
def compare? : Value → Value → Option Ordering
  | .boolean a, .boolean b => some (compare a b)
  | .integer a, .integer b => some (compare a b)
  | .float a, .float b => a.compare? b
  | .integer a, .float b => (Binary64.ofInt a.toInt).compare? b
  | .float a, .integer b => a.compare? (Binary64.ofInt b.toInt)
  | .text a, .text b => some (compare a b)
  | _, _ => none

/-- Equality of scalars: of one kind, and equal as numbers, truth values or texts. -/
def same : Value → Value → Bool
  | .null, .null => true
  | .boolean a, .boolean b => a == b
  | .integer a, .integer b => a == b
  | .float a, .float b => a.same b
  | .text a, .text b => a == b
  | _, _ => false

/-- The form of a scalar in messages. -/
def display : Value → String
  | .null => "null"
  | .boolean b => if b then "true" else "false"
  | .integer n => toString n.toInt
  | .float x => x.render .plain
  | .text s => Text.display s

end Value

end RoleQuery
