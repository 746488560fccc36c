import RoleQuery.Predicate.Basic

/-!
# Names and literals in SQL

An identifier stands in double quotes and a literal in single quotes, and the quote itself
is written twice inside. A pattern marks with a backslash each character that would
otherwise stand for others.
-/
namespace RoleQuery.Sql

/-- Write a character twice. -/
def double (quoteChar c : Char) : List Char := if c = quoteChar then [c, c] else [c]

/-- An identifier in double quotes. -/
def quote (name : String) : String :=
  String.ofList ('"' :: name.toList.flatMap (double '"') ++ ['"'])

/-- The characters between points. -/
def splitAtPoints : List Char → List (List Char)
  | [] => [[]]
  | c :: rest =>
    match splitAtPoints rest with
    | [] => [[c]]
    | part :: parts => if c = '.' then [] :: part :: parts else (c :: part) :: parts

/-- The name of a table, each part of a qualified name quoted by itself. -/
def quoteObject (object : String) : String :=
  ".".intercalate ((splitAtPoints object.toList).map fun part => quote (String.ofList part))

def escapeLiteral (s : String) : String := String.ofList (s.toList.flatMap (double '\''))

/-- A character of a pattern that stands for itself. -/
def escapePatternChar (c : Char) : List Char :=
  if c = '\\' ∨ c = '%' ∨ c = '_' then ['\\', c] else [c]

/-- A pattern that matches a text alone. -/
def escapePattern (s : String) : String := String.ofList (s.toList.flatMap escapePatternChar)

def aliasName (a : Alias) : String := "t" ++ toString a.toNat

/-- The table that is queried. -/
def rootName : String := "t0"

def tableName : Scope → String
  | .root => rootName
  | .bound a => aliasName a

/-- A column of a table in the statement. -/
structure Column where
  table : String
  name : String
  deriving DecidableEq, Repr

def Column.text (c : Column) : String := c.table ++ "." ++ quote c.name

/-- Pairs of columns by which a row of one table is related to a row of another. -/
def correlation (source target : List String) (parent child : String) : List (Column × Column) :=
  (target.zip source).map fun (t, s) => (⟨child, t⟩, ⟨parent, s⟩)

def correlationText (pairs : List (Column × Column)) : String :=
  " AND ".intercalate (pairs.map fun (a, b) => a.text ++ " = " ++ b.text)

end RoleQuery.Sql
