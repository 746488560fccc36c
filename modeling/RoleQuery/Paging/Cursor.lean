import RoleQuery.Error

/-!
# Cursors

A cursor is the text that a client hands back to continue after a page: the position of the
last row in the ordering, or what the backend gave to continue by. It is opaque to clients,
and reading it gives back exactly what was written.
-/
namespace RoleQuery

/-- The direction of an ordering. -/
inductive SortDirection where
  | asc
  | desc
  deriving DecidableEq, Repr, Inhabited

namespace SortDirection

def name : SortDirection → String
  | .asc => "asc"
  | .desc => "desc"

def keyword : SortDirection → String
  | .asc => "ASC"
  | .desc => "DESC"

end SortDirection

/-- The value of one ordering field in the last row of a page. -/
structure CursorField where
  field : String
  value : Value
  direction : SortDirection
  deriving DecidableEq, Repr

/-- What a cursor says. -/
inductive CursorPayload where
  /-- The position of the last row, field by field. -/
  | keyset (fields : List CursorField)
  /-- The token of the backend. -/
  | continuation (token : String)
  deriving DecidableEq, Repr

namespace CursorPayload

def fieldBytes (f : CursorField) : List UInt8 :=
  Wire.text f.field ++ Wire.value f.value ++
    Wire.littleEndian 4 (match f.direction with | .asc => 0 | .desc => 1)

def bytes : CursorPayload → List UInt8
  | .keyset fields => Wire.littleEndian 4 0 ++ Wire.list fieldBytes fields
  | .continuation token => Wire.littleEndian 4 1 ++ Wire.text token

def readDirection : Wire.Reader SortDirection := fun bytes =>
  (Wire.readForm 2 bytes).map fun (index, rest) => (if index = 0 then .asc else .desc, rest)

def readField : Wire.Reader CursorField := fun bytes =>
  match Wire.readText bytes with
  | .error fault => .error fault
  | .ok (field, rest) =>
    match Wire.readValue rest with
    | .error fault => .error fault
    | .ok (value, rest) =>
      (readDirection rest).map fun (direction, rest) => (⟨field, value, direction⟩, rest)

def read : Wire.Reader CursorPayload := fun bytes =>
  match Wire.readForm 2 bytes with
  | .error fault => .error fault
  | .ok (0, rest) =>
    (Wire.readList readField rest).map fun (fields, rest) => (.keyset fields, rest)
  | .ok (_, rest) => (Wire.readText rest).map fun (token, rest) => (.continuation token, rest)

def encode (p : CursorPayload) : String := Base64.encode p.bytes

/-- What the text of a cursor says. Padding at its end is ignored, and so are bytes
that follow the payload. -/
def decode (cursor : String) : Except RequestError CursorPayload :=
  let symbols := (cursor.toList.reverse.dropWhile (· = '=')).reverse
  match Base64.decode (Utf8.encode (String.ofList symbols)) with
  | .error fault => .error (.cursor (.base64 fault))
  | .ok bytes =>
    match read bytes with
    | .error fault => .error (.cursor (.payload fault))
    | .ok (payload, _) => .ok payload

end CursorPayload

end RoleQuery
