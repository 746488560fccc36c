import RoleQuery.Json.Basic
import RoleQuery.Binary64.Decimal

/-!
# JSON texts

Two layouts of one value: without any space, and with two spaces of indentation.
Members are written in their order. A number that JSON cannot express, a NaN or an
infinity, is written as `null`.
-/
namespace RoleQuery.Json

private def hexDigit (n : Nat) : Char :=
  Char.ofNat (if n < 10 then 48 + n else 87 + n)

/-- A character inside a quoted text: quotes, backslashes and controls are escaped. -/
def escapeChar (c : Char) : List Char :=
  if c = '"' then ['\\', '"']
  else if c = '\\' then ['\\', '\\']
  else if c = '\n' then ['\\', 'n']
  else if c = '\r' then ['\\', 'r']
  else if c = '\t' then ['\\', 't']
  else if c.toNat = 8 then ['\\', 'b']
  else if c.toNat = 12 then ['\\', 'f']
  else if c.toNat < 32 then
    ['\\', 'u', '0', '0', hexDigit (c.toNat / 16), hexDigit (c.toNat % 16)]
  else [c]

def quoted (s : String) : String :=
  String.ofList ('"' :: s.toList.flatMap escapeChar ++ ['"'])

/-- The text of a floating-point number. -/
def floatText (x : Binary64) : String :=
  if x.isFinite then x.render .json else "null"

mutual

/-- The text without spaces. -/
def compact : Json → String
  | .null => "null"
  | .bool b => if b then "true" else "false"
  | .int n => toString n
  | .float x => floatText x
  | .str s => quoted s
  | .list items => "[" ++ ",".intercalate (compactItems items) ++ "]"
  | .object ms => "\x7b" ++ ",".intercalate (compactMembers ms) ++ "\x7d"
termination_by structural j => j

def compactItems : List Json → List String
  | [] => []
  | j :: rest => compact j :: compactItems rest
termination_by structural js => js

def compactMembers : List (String × Json) → List String
  | [] => []
  | (name, j) :: rest => (quoted name ++ ":" ++ compact j) :: compactMembers rest
termination_by structural ms => ms

end

/-- The start of a line at a depth. -/
def lineStart (depth : Nat) : String := "\n" ++ String.ofList (List.replicate (2 * depth) ' ')

/-- Lines between brackets; nothing between them when there is no line. -/
def block (left right : String) (depth : Nat) (lines : List String) : String :=
  if lines.isEmpty then left ++ right
  else left ++ ",".intercalate (lines.map (lineStart (depth + 1) ++ ·)) ++ lineStart depth ++ right

mutual

/-- The text of a value that stands at a depth, one item or member a line. -/
def indentedAt (depth : Nat) : Json → String
  | .null => "null"
  | .bool b => if b then "true" else "false"
  | .int n => toString n
  | .float x => floatText x
  | .str s => quoted s
  | .list items => block "[" "]" depth (indentedItems (depth + 1) items)
  | .object ms => block "\x7b" "\x7d" depth (indentedMembers (depth + 1) ms)
termination_by structural j => j

def indentedItems (depth : Nat) : List Json → List String
  | [] => []
  | j :: rest => indentedAt depth j :: indentedItems depth rest
termination_by structural js => js

def indentedMembers (depth : Nat) : List (String × Json) → List String
  | [] => []
  | (name, j) :: rest =>
    (quoted name ++ ": " ++ indentedAt depth j) :: indentedMembers depth rest
termination_by structural ms => ms

end

/-- The text with two spaces of indentation. -/
def indented (j : Json) : String := indentedAt 0 j

end RoleQuery.Json
