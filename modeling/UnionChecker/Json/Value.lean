import UnionChecker.Basic
import UnionChecker.Json.Binary64
/-!
# JSON values

Objects keep their keys in the order they were written, repeated keys included, and integers are
kept apart from other numbers. A text may hold well-formed values that stand for nothing, such as a
number that is too great; they do no harm where nobody looks at them, so they are values too.
-/

namespace UnionChecker

/-- A JSON value. -/
inductive Json where
  | null
  | bool (value : Bool)
  /-- A number written without fraction and exponent. -/
  | int (value : Int)
  /-- Any other number. -/
  | float (value : Binary64)
  | str (value : String)
  | arr (items : List Json)
  | obj (members : List (String × Json))
  /-- A well-formed value without a meaning: a number out of range, a text with half of a surrogate
  pair, an object with such a key, or an array or object that is nested too deep. -/
  | meaningless
deriving Repr, Inhabited

namespace Json

mutual

/-- Nesting depth of a value. -/
def depth : Json → Nat
  | .arr items => depthItems items + 1
  | .obj members => depthMembers members + 1
  | _ => 1

/-- Greatest depth among the items of an array. -/
def depthItems : List Json → Nat
  | [] => 0
  | j :: js => max (depth j) (depthItems js)

/-- Greatest depth among the values of an object. -/
def depthMembers : List (String × Json) → Nat
  | [] => 0
  | (_, j) :: ms => max (depth j) (depthMembers ms)

end

mutual

/-- Keep only the last of several members with one key, at every depth. -/
def lastMembers : Json → Json
  | .arr items => .arr (lastMembersOfItems items)
  | .obj members => .obj (lastMembersOfObject members)
  | j => j

/-- `lastMembers` on every item of an array. -/
def lastMembersOfItems : List Json → List Json
  | [] => []
  | j :: js => lastMembers j :: lastMembersOfItems js

/-- The members of an object without those that a later one with the same key replaces. -/
def lastMembersOfObject : List (String × Json) → List (String × Json)
  | [] => []
  | (key, j) :: ms =>
    let rest := lastMembersOfObject ms
    if rest.any (fun m => m.1 == key) then rest else (key, lastMembers j) :: rest

end

/-- The value under a key of an object. -/
def get? (j : Json) (key : String) : Option Json :=
  match j with
  | .obj members => members.lookup key
  | _ => none

def str? : Json → Option String
  | .str s => some s
  | _ => none

def bool? : Json → Option Bool
  | .bool b => some b
  | _ => none

/-- A natural number below `limit`. -/
def nat? (limit : Nat) : Json → Option Nat
  | .int (.ofNat n) => if n < limit then some n else none
  | _ => none

/-- An integer of 64 bits, signed. -/
def int64? : Json → Option Int
  | .int n => if fitsInt64 n then some n else none
  | _ => none

/-- A number as a double; an integer is rounded to the nearest one. -/
def binary64? : Json → Option Binary64
  | .int n => some (.ofInt n)
  | .float x => some x
  | _ => none

def arr? : Json → Option (List Json)
  | .arr items => some items
  | _ => none

def strings (texts : List String) : Json := .arr (texts.map .str)

end Json

end UnionChecker
