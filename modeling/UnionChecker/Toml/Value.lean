/-!
# TOML values

The values of a TOML text, each with the place where it starts. A place is the number of characters
from there to the end of the text.
-/

namespace UnionChecker.Toml

/-- How a table came to be. -/
inductive TableKind where
  /-- Under a header of its own, or the whole text. -/
  | header
  /-- Named in the header of a table below it. -/
  | parent
  /-- Named in a dotted key. -/
  | dotted
  /-- Written in braces. -/
  | inline
deriving DecidableEq, Repr

/-- A value. Numbers with a fraction and dates are told apart and not kept. -/
inductive Value where
  | string (text : String)
  | integer (n : Int)
  | float
  | boolean (b : Bool)
  | datetime
  | array (items : List (Nat × Value))
  | table (kind : TableKind) (entries : List (String × Nat × Value))
  /-- Tables under the same doubled header. -/
  | tables (elements : List (Nat × List (String × Nat × Value)))
deriving Inhabited

/-- The entries of a table in the order they came in. -/
abbrev Entries := List (String × Nat × Value)

/-- A name in a key, with the place where it starts. -/
structure KeyPart where
  place : Nat
  name : String
deriving DecidableEq, Repr

end UnionChecker.Toml
