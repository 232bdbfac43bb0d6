import UnionChecker.Ty.Equality
/-!
# Assignability

A value may go where another type is wanted when every member of its type has a place there.
Declared types and function types are invariant: their generics, parameters and results have to be
equal.
-/

namespace UnionChecker.Ty

/-- Whether a value of the first type may be used where the second is wanted, neither of them a
union. -/
def fits : (value target : Ty) → Bool
  | .named d as, .named e bs => d.ref == e.ref && pairwise equal as bs
  | .fn gs ps r, .fn hs qs s => equal (.fn gs ps r) (.fn hs qs s)
  | .var x, .var y => x == y
  | _, _ => false

mutual

/-- Whether `value`, which is no union, may be used where `target` is wanted. -/
def fitsMember (value : Ty) : (target : Ty) → Bool
  | .union ms => fitsSome value ms
  | t => fits value t

/-- Whether `value`, which is no union, may be used where one of the types is wanted. -/
def fitsSome (value : Ty) : (targets : List Ty) → Bool
  | [] => false
  | t :: ts => fitsMember value t || fitsSome value ts

end

mutual

/-- Whether a value of the first type may be used where the second is wanted. -/
def isAssignable : (value target : Ty) → Bool
  | .union ms, target => allAssignable ms target
  | t, target => fitsMember t target

/-- Whether values of all the types may be used where `target` is wanted. -/
def allAssignable : (values : List Ty) → (target : Ty) → Bool
  | [], _ => true
  | t :: ts, target => isAssignable t target && allAssignable ts target

end

/-- Whether every member of `sub` is a member of `sup`. -/
def containedIn (sub sup : Ty) : Bool :=
  sub.members.all fun element => sup.members.any fun candidate => equal candidate element

end UnionChecker.Ty
