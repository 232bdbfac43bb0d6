import UnionChecker.Ty.Basic
/-!
# Failures of the type algebra

Instantiating, inferring and compiling runtime tests can fail. Each failure is a cause, and its
wording is in one place.
-/

namespace UnionChecker

/-- Why a type cannot be tested at run time. -/
inductive Unmatchable where
  | generic
  | function
  /-- A union among the generics of a declared type. -/
  | unionInGeneric
deriving DecidableEq, Repr

/-- The wording of the reason. -/
def Unmatchable.message : Unmatchable → String
  | .generic => "can't match on generic"
  | .function => "can't match on function"
  | .unionInGeneric => "can't match on or in generic position"

/-- Failures of the type algebra. -/
inductive TyError where
  | wrongGenericCount (expected actual : Nat)
  /-- Two arguments ask for different types for one generic. -/
  | inferenceConflict (generic : String) (previous current : Ty)
  | notMatchable (ty : Ty) (reason : Unmatchable)
  /-- No field of the struct shows what its generic `parameter` is. -/
  | unnarrowableGeneric (struct : Ref) (parameter : String)
deriving Repr

/-- The wording of a failure. -/
def TyError.message : TyError → String
  | .wrongGenericCount expected actual =>
    "wrong number of generics, expected " ++ toString expected ++ " but got " ++ toString actual
  | .inferenceConflict _ _ _ => "Could not infer generics, please annotate them"
  | .notMatchable _ reason => reason.message
  | .unnarrowableGeneric struct parameter =>
    "matching on a struct with generics requires the struct to have one field of that type ("
      ++ struct.display ++ " has no field of type <" ++ parameter ++ ">)"

end UnionChecker
