import UnionChecker.Ty.Basic
/-!
# Unions and equality of types

Two types are equal when they denote the same thing: unions compare as sets of members, and the
generics that a function type binds compare by position and not by name. To compare two function
types, the generics bound in each are renamed to positional names, which rebuilds the unions
inside. Building a union drops members that are equal to one already there. So equality, renaming
and union construction need each other.

The knot is cut by giving renaming and union construction the comparison to use (`renameWith`,
`unionWith`), and equality a bound on the number of nested comparisons (`equalWithin`). Every
comparison is between types of smaller total size, so the total size of the two types is bound
enough, and `equal`, `join` and `rename` carry no bound.
-/

namespace UnionChecker.Ty

/-! ## Building unions with a given comparison -/

/-- Add a member. A member equal to one already there takes its place only if its name is
smaller. -/
def insertMember (eq : Ty → Ty → Bool) : List Ty → Ty → List Ty
  | [], t => [t]
  | m :: ms, t =>
    if eq m t then (if t.name < m.name then t else m) :: ms else m :: insertMember eq ms t

/-- The members of a union of `ts`: nested unions opened, equal ones dropped. -/
def distinctMembers (eq : Ty → Ty → Bool) (ts : List Ty) : List Ty :=
  (flattenAll ts).foldl (insertMember eq) []

/-- The union with the given distinct members, sorted by name. A single member stands for
itself. -/
def ofMembers : List Ty → Ty
  | [t] => t
  | ts => .union (sortOrdered le ts)

/-- The union of the types `ts`. -/
def unionWith (eq : Ty → Ty → Bool) (ts : List Ty) : Ty := ofMembers (distinctMembers eq ts)

/-! ## Positional names for bound generics -/

/-- Name of the generic at position `index` of a function type `depth` function types deep. -/
def positional (depth index : Nat) : String := "$" ++ toString depth ++ "_" ++ toString index

/-- The positional names of a list of generics. -/
def positionals (depth : Nat) (generics : List String) : List String :=
  (List.range generics.length).map (positional depth)

/-- The renaming inside a function type: its own generics shadow those around it, and of two
generics with one name the later counts. -/
def enter (depth : Nat) (generics : List String) (ρ : List (String × String)) :
    List (String × String) :=
  (generics.zip (positionals depth generics)).reverse ++ ρ

mutual

/-- Rename the generics bound by function types to positional names. Unions are rebuilt. -/
def renameWith (eq : Ty → Ty → Bool) (depth : Nat) (ρ : List (String × String)) : Ty → Ty
  | .var x => .var ((ρ.lookup x).getD x)
  | .named decl args => .named decl (renameAllWith eq depth ρ args)
  | .fn generics params result =>
    .fn (positionals depth generics)
      (renameParamsWith eq (depth + 1) (enter depth generics ρ) params)
      (renameWith eq (depth + 1) (enter depth generics ρ) result)
  | .union ms => unionWith eq (renameAllWith eq depth ρ ms)

/-- `renameWith` on every type of a list. -/
def renameAllWith (eq : Ty → Ty → Bool) (depth : Nat) (ρ : List (String × String)) :
    List Ty → List Ty
  | [] => []
  | t :: ts => renameWith eq depth ρ t :: renameAllWith eq depth ρ ts

/-- `renameWith` on every type of a parameter list. -/
def renameParamsWith (eq : Ty → Ty → Bool) (depth : Nat) (ρ : List (String × String)) :
    List (String × Ty) → List (String × Ty)
  | [] => []
  | (x, t) :: ps => (x, renameWith eq depth ρ t) :: renameParamsWith eq depth ρ ps

end

/-! ## Equality -/

/-- Whether two lists have equal elements at every position. -/
def pairwise (eq : Ty → Ty → Bool) : List Ty → List Ty → Bool
  | [], [] => true
  | a :: as, b :: bs => eq a b && pairwise eq as bs
  | _, _ => false

/-- Whether two lists have the same elements, order and repetition aside. -/
def sameMembers (eq : Ty → Ty → Bool) (as bs : List Ty) : Bool :=
  as.all (fun a => bs.any (fun b => eq a b)) && bs.all (fun b => as.any (fun a => eq a b))

/-- Equality with at most `bound` nested comparisons. -/
def equalWithin : (bound : Nat) → Ty → Ty → Bool
  | 0, _, _ => false
  | bound + 1, .union as, b => sameMembers (equalWithin bound) as b.members
  | bound + 1, a, .union bs => sameMembers (equalWithin bound) a.members bs
  | _ + 1, .var x, .var y => x == y
  | bound + 1, .named d as, .named e bs => d.ref == e.ref && pairwise (equalWithin bound) as bs
  | bound + 1, .fn gs ps r, .fn hs qs s =>
    let left := renameParamsWith (equalWithin bound) 1 (enter 0 gs []) ps
    let right := renameParamsWith (equalWithin bound) 1 (enter 0 hs []) qs
    gs.length == hs.length
      && pairwise (equalWithin bound) (left.map (·.2)) (right.map (·.2))
      && equalWithin bound (renameWith (equalWithin bound) 1 (enter 0 gs []) r)
          (renameWith (equalWithin bound) 1 (enter 0 hs []) s)
  | _ + 1, _, _ => false

/-- Whether two types denote the same thing. -/
def equal (a b : Ty) : Bool := equalWithin (a.size + b.size) a b

/-- The union of types: flat, without equal members, sorted by name, and never of one member. Of
equal members the one with the smallest name stays. -/
def join (ts : List Ty) : Ty := unionWith equal ts

/-- Rename the generics bound by function types to positional names. -/
def rename (depth : Nat) (ρ : List (String × String)) (t : Ty) : Ty :=
  renameWith equal depth ρ t

end UnionChecker.Ty
