import UnionChecker.Basic
/-!
# Paths

Paths are texts with slashes. They are compared component by component, and looked up after dots
are taken out.
-/

namespace UnionChecker.CommandLine

/-- A component of a path, as paths are compared. -/
inductive Component where
  | root
  | current
  | parent
  | name (text : String)
deriving DecidableEq, Repr

/-- The order of components: the root, the current folder, its parent, and names. -/
def Component.rank : Component → Nat
  | .root => 0
  | .current => 1
  | .parent => 2
  | .name _ => 3

namespace Path

/-- The pieces of a text between slashes. -/
def pieces : List Char → List (List Char)
  | [] => [[]]
  | c :: cs =>
    if c == '/' then [] :: pieces cs
    else
      match pieces cs with
      | [] => [[c]]
      | piece :: rest => (c :: piece) :: rest

/-- The pieces of a path as texts. -/
def split (path : String) : List String := (pieces path.toList).map String.ofList

/-- Whether a path starts at the root. -/
def isAbsolute (path : String) : Bool := path.toList.head? == some '/'

/-- The components behind the first piece. Dots for the current folder and doubled slashes do not
count. -/
def innerComponents (pieces : List String) : List Component :=
  pieces.filterMap fun piece =>
    if piece == "" || piece == "." then none
    else if piece == ".." then some .parent
    else some (.name piece)

/-- The components of a path. A dot counts at the start only. -/
def components (path : String) : List Component :=
  match split path with
  | [] => []
  | first :: rest =>
    if isAbsolute path then .root :: innerComponents rest
    else if first == "." then .current :: innerComponents rest
    else innerComponents (first :: rest)

/-- Whether a component comes no later than another one. -/
def componentLe : Component → Component → Bool
  | .name a, .name b => textLe a b
  | a, b => a.rank ≤ b.rank

/-- Whether a list of components comes no later than another one. -/
def componentsLe : List Component → List Component → Bool
  | [], _ => true
  | _ :: _, [] => false
  | a :: as, b :: bs => if a == b then componentsLe as bs else componentLe a b

/-- Whether a path comes no later than another one. -/
def le (a b : String) : Bool := componentsLe (components a) (components b)

/-- A name inside a folder. -/
def join (folder name : String) : String :=
  if folder.toList.getLast? == some '/' then folder ++ name else folder ++ "/" ++ name

/-- Go from the place that names lead to along one more piece of a path. Parents above the start are
kept as `..`, and a path from the root starts with `/`. -/
def step (names : List String) (piece : String) : List String :=
  if piece == "" || piece == "." then names
  else if piece == ".." then
    match names.getLast? with
    | none => [".."]
    | some ".." => names ++ [".."]
    | some "/" => names
    | some _ => names.dropLast
  else names ++ [piece]

/-- Where a path starts. -/
def start (path : String) : List String := if isAbsolute path then ["/"] else []

/-- The names that a path stands for, without dots. -/
def resolve (path : String) : List String := (split path).foldl step (start path)

/-- Split a name at its last point, into what is before it and after it. A point at the start does
not count. -/
def splitExtension (name : String) : String × Option String :=
  let reversed := name.toList.reverse
  let after := reversed.takeWhile (· != '.')
  match reversed.dropWhile (· != '.') with
  | [] => (name, none)
  | _ :: before =>
    if before.isEmpty then (name, none)
    else (String.ofList before.reverse, some (String.ofList after.reverse))

/-- The extension of a name. -/
def extension? (name : String) : Option String := (splitExtension name).2

/-- A path with an extension behind the stem of its last name. A path that leads to a parent has no
name to change. -/
def setExtension (path extension : String) : String :=
  match (split path).reverse with
  | [] => path
  | name :: folders =>
    if name == ".." then path
    else "/".intercalate (folders.reverse ++ [(splitExtension name).1 ++ "." ++ extension])

/-- A path with another extension. The old one is cut off first, up to its point; what is left may
be a path to a parent, which stays as it is. -/
def withExtension (path extension : String) : String :=
  match (split path).getLast?.bind extension? with
  | none => setExtension path extension
  | some old => setExtension (String.ofList (path.toList.take (path.length - old.length))) extension

end Path

end UnionChecker.CommandLine
