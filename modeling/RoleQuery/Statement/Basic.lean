import RoleQuery.Value

/-!
# Statements

The text of a statement never holds a value. A statement is text with holes, and each hole has
an operand; in the text, the holes are the parameters `@param0`, `@param1`, … in order. So two
statements that differ only in their operands have one text. An operand without a hole is a
parameter that the text does not mention.
-/
namespace RoleQuery

/-- A piece of a statement. -/
inductive Piece where
  | text (s : String)
  /-- A hole and its operand. -/
  | operand (v : Value)
  /-- An operand without a hole. -/
  | hidden (v : Value)
  deriving DecidableEq, Repr

namespace Piece

/-- The name of the parameter number `n`. -/
def parameterName (n : Nat) : String := "@param" ++ toString n

/-- The texts of pieces, of which the first operand has the number `n`. -/
def render (n : Nat) : List Piece → List String
  | [] => []
  | .text s :: rest => s :: render n rest
  | .operand _ :: rest => parameterName n :: render (n + 1) rest
  | .hidden _ :: rest => render (n + 1) rest

/-- The parameters of pieces, of which the first operand has the number `n`. -/
def parameters (n : Nat) : List Piece → List (String × Value)
  | [] => []
  | .text _ :: rest => parameters n rest
  | .operand v :: rest | .hidden v :: rest => (parameterName n, v) :: parameters (n + 1) rest

/-- Pieces with a separator between them. -/
def intercalate (separator : String) : List (List Piece) → List Piece
  | [] => []
  | [ps] => ps
  | ps :: rest => ps ++ .text separator :: intercalate separator rest

end Piece

/-- The text of a statement and its parameters. -/
structure Statement where
  text : String
  parameters : List (String × Value)
  deriving DecidableEq, Repr

namespace Statement

/-- The statement of pieces. -/
def ofPieces (pieces : List Piece) : Statement :=
  ⟨String.join (Piece.render 0 pieces), Piece.parameters 0 pieces⟩

def toJson (s : Statement) : Json :=
  .object [("text", .str s.text),
    ("parameters",
      .object (Members.ofList (s.parameters.map fun (name, v) => (name, v.toJson))))]

end Statement

end RoleQuery
