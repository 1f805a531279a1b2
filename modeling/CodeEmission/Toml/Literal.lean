/-!
# TOML Literals and Statements

A document as it is written: a sequence of statements, which open tables and assign literals to
keys. What the statements mean together is the business of `Toml.Document`.
-/

namespace CodeEmission.Toml

/-- The names from the root of a document to a key. -/
abbrev KeyPath := List String

/-- A dotted key: its last name and the names before it. -/
structure Key where
  /-- The names before the last. -/
  parents : KeyPath := []
  /-- The last name. -/
  last : String
  deriving DecidableEq, Repr, Inhabited

/-- All names of a key. -/
def Key.path (k : Key) : KeyPath :=
  k.parents ++ [k.last]

/-- A value as it is written. Of a float and of a date or time only the text is kept. -/
inductive Literal where
  | text (s : String)
  | integer (n : Int64)
  | float (s : String)
  | boolean (b : Bool)
  | moment (s : String)
  | array (items : List Literal)
  | inline (entries : List (Key × Literal))
  deriving Repr, Inhabited

/-- A line of a document: the header of a table, the header of a further element of an array of
tables, or an assignment. -/
inductive Statement where
  | table (key : Key)
  | element (key : Key)
  | assign (key : Key) (value : Literal)
  deriving Repr, Inhabited

end CodeEmission.Toml
