import UnionChecker.Basic
/-!
# Qualified names

A `Ref` names something declared in a package. Built-in types live in the package with the empty
name, and their names are written bare.
-/

namespace UnionChecker

/-- A name together with the package that declares it. -/
structure Ref where
  package : String
  name : String
deriving DecidableEq, Repr

namespace Ref

/-- `package.name`, or the bare name for the empty package. -/
def display (r : Ref) : String :=
  if r.package == "" then r.name else r.package ++ "." ++ r.name

/-- The characters after the last dot, and those before it when there is one. -/
def splitLastDot : List Char → Option (List Char) × List Char
  | [] => (none, [])
  | c :: cs =>
    match splitLastDot cs with
    | (some before, after) => (some (c :: before), after)
    | (none, after) => if c == '.' then (some [], after) else (none, c :: after)

/-- Read `package.name`. The package is everything before the last dot. -/
def ofString (text : String) : Ref :=
  match splitLastDot text.toList with
  | (some package, name) => ⟨String.ofList package, String.ofList name⟩
  | (none, name) => ⟨"", String.ofList name⟩

/-- Order by package, then by name. -/
def le (a b : Ref) : Bool :=
  if a.package == b.package then textLe a.name b.name else textLe a.package b.package

end Ref

end UnionChecker
