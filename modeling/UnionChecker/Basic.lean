/-!
# Lists and numbers

Maps are lists of pairs, looked up with `List.lookup`. `put` keeps one entry per key.

Lists are put in order by insertion. An element is placed before the first one that it does not
exceed, and elements are inserted from the right, so equal elements keep the order they came in.
-/

namespace UnionChecker

/-! ## Association lists -/

/-- Give `key` the value `value`, whatever it had before. -/
def put {κ α : Type} [BEq κ] (key : κ) (value : α) (entries : List (κ × α)) : List (κ × α) :=
  (key, value) :: entries.filter (fun entry => !(entry.1 == key))

/-- Whether `key` has a value. -/
def hasKey {κ α : Type} [BEq κ] (key : κ) (entries : List (κ × α)) : Bool :=
  (entries.lookup key).isSome

/-! ## Stable sorting -/

/-- Put `a` before the first element that it is at most. -/
def insertOrdered {α : Type} (le : α → α → Bool) (a : α) : List α → List α
  | [] => [a]
  | b :: bs => if le a b then a :: b :: bs else b :: insertOrdered le a bs

/-- The elements in the order of `le`, equal ones as they stood. -/
def sortOrdered {α : Type} (le : α → α → Bool) : List α → List α
  | [] => []
  | a :: as => insertOrdered le a (sortOrdered le as)

/-- The order of texts, code point by code point. -/
def textLe (a b : String) : Bool := !decide (b < a)

/-! ## Ranges of integers -/

/-- Unsigned integers of 32 bits are below this one. -/
def limit32 : Nat := 4294967296

/-- Unsigned integers of 64 bits are below this one. -/
def limit64 : Nat := 18446744073709551616

/-- Whether an integer fits in 64 bits with a sign. -/
def fitsInt64 (n : Int) : Bool :=
  decide (-9223372036854775808 ≤ n) && decide (n < 9223372036854775808)

end UnionChecker
