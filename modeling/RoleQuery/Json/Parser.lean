import RoleQuery.Json.Token

/-!
# Reading JSON texts

Tokens are put together by a machine with a stack of the lists and objects that are
still open. Values may be nested 127 deep; a list or object below that is unusable. An
unusable part spoils the whole only where its value is asked for, so that members nobody
reads cannot fail a document.
-/
namespace RoleQuery.Json

namespace Raw

/-- The greatest number of lists and objects around a usable scalar. -/
def maxDepth : Nat := 127

/-- A list or object that is still open; what it holds is kept in reverse. -/
inductive Open where
  | list (read : List Raw)
  /-- An object, with the name whose value comes next. -/
  | object (read : List (String × Raw)) (name : String) (usable : Bool)

/-- What may come next. -/
inductive Expecting where
  | value
  /-- A value or the end of the list. -/
  | firstItem
  | name
  /-- A name or the end of the object. -/
  | firstName
  | colon
  /-- A comma or the end of what is open. -/
  | next
  /-- Nothing: the text has said its value. -/
  | done (value : Raw)

/-- The machine: what is open, innermost first, and what may come next. -/
structure Machine where
  stack : List Open
  expecting : Expecting

/-- A complete value arrives. -/
def Machine.push (stack : List Open) (value : Raw) : Machine :=
  match stack with
  | [] => ⟨[], .done value⟩
  | .list read :: rest => ⟨.list (value :: read) :: rest, .next⟩
  | .object read name usable :: rest => ⟨.object ((name, value) :: read) name usable :: rest, .next⟩

/-- Close a list or object; one that is nested too deep is unusable. -/
def Machine.close (rest : List Open) (value : Raw) : Machine :=
  .push rest (if rest.length < maxDepth then value else .unusable)

/-- A quoted text arrives where a value may stand. -/
def Machine.pushText (stack : List Open) : Option String → Machine
  | some s => .push stack (.str s)
  | none => .push stack .unusable

/-- A name arrives, which is always a quoted text; an object with an
unusable name is unusable. -/
def Machine.name? (stack : List Open) (name : Option String) : Option Machine :=
  match stack with
  | .object read _ usable :: rest =>
    some ⟨.object read (name.getD "") (usable && name.isSome) :: rest, .colon⟩
  | _ => none

def Machine.step? (m : Machine) (token : Token) : Option Machine :=
  match m.expecting, token with
  | .value, .scalar value => some (.push m.stack value)
  | .value, .text value => some (.pushText m.stack value)
  | .value, .beginList => some ⟨.list [] :: m.stack, .firstItem⟩
  | .value, .beginObject => some ⟨.object [] "" true :: m.stack, .firstName⟩
  | .firstItem, .scalar value => some (.push m.stack value)
  | .firstItem, .text value => some (.pushText m.stack value)
  | .firstItem, .beginList => some ⟨.list [] :: m.stack, .firstItem⟩
  | .firstItem, .beginObject => some ⟨.object [] "" true :: m.stack, .firstName⟩
  | .firstItem, .endList =>
    match m.stack with
    | .list _ :: rest => some (.close rest (.list []))
    | _ => none
  | .firstName, .endObject =>
    match m.stack with
    | .object _ _ _ :: rest => some (.close rest (.object []))
    | _ => none
  | .firstName, .text name => Machine.name? m.stack name
  | .name, .text name => Machine.name? m.stack name
  | .colon, .colon => some ⟨m.stack, .value⟩
  | .next, .comma =>
    match m.stack with
    | .list _ :: _ => some ⟨m.stack, .value⟩
    | .object _ _ _ :: _ => some ⟨m.stack, .name⟩
    | [] => none
  | .next, .endList =>
    match m.stack with
    | .list read :: rest => some (.close rest (.list read.reverse))
    | _ => none
  | .next, .endObject =>
    match m.stack with
    | .object read _ usable :: rest =>
      some (.close rest (if usable then .object read.reverse else .unusable))
    | _ => none
  | _, _ => none

/-- Read tokens to the end. -/
def Machine.run? (m : Machine) : List Token → Option Raw
  | [] =>
    match m.expecting with
    | .done value => some value
    | _ => none
  | token :: rest => (m.step? token).bind fun m => m.run? rest

/-- What a text says, if it is a JSON text. -/
def ofText? (text : String) : Option Raw :=
  (Token.ofChars? text.toList).bind fun tokens => Machine.run? ⟨[], .value⟩ tokens

mutual

/-- The value of a raw tree. Of members with one name the last value
counts, at the first place. -/
def value? : Raw → Option Json
  | .null => some .null
  | .bool b => some (.bool b)
  | .int n => some (.int n)
  | .float x => some (.float x)
  | .str s => some (.str s)
  | .list items => (valueItems? items).map .list
  | .object ms => (valueMembers? ms).map fun pairs => .object (Members.ofList pairs)
  | .unusable => none
termination_by structural r => r

def valueItems? : List Raw → Option (List Json)
  | [] => some []
  | r :: rest =>
    match value? r, valueItems? rest with
    | some j, some js => some (j :: js)
    | _, _ => none
termination_by structural rs => rs

/-- The values of the members, names as written. -/
def valueMembers? : List (String × Raw) → Option (List (String × Json))
  | [] => some []
  | (name, r) :: rest =>
    match value? r, valueMembers? rest with
    | some j, some ms => some ((name, j) :: ms)
    | _, _ => none
termination_by structural ms => ms

end

end Raw

mutual

/-- A value as a raw tree. -/
def toRaw : Json → Raw
  | .null => .null
  | .bool b => .bool b
  | .int n => .int n
  | .float x => .float x
  | .str s => .str s
  | .list items => .list (toRawItems items)
  | .object ms => .object (toRawMembers ms)
termination_by structural j => j

def toRawItems : List Json → List Raw
  | [] => []
  | j :: rest => toRaw j :: toRawItems rest
termination_by structural js => js

def toRawMembers : List (String × Json) → List (String × Raw)
  | [] => []
  | (name, j) :: rest => (name, toRaw j) :: toRawMembers rest
termination_by structural ms => ms

end

def parse? (text : String) : Option Json := (Raw.ofText? text).bind Raw.value?

end RoleQuery.Json
