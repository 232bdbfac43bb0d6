import UnionChecker.Ty.Assignability
import UnionChecker.Ty.Substitution
/-!
# Inference of generics

`Ty.infer` reads off what a generic has to be for an argument to fit a parameter. Several places
of the parameter may have a say; a later one may only widen what an earlier one asked for.
-/

namespace UnionChecker

/-- Combine an earlier inference for `generic` with a new one, which has to contain it. -/
def mergeInference (generic : String) (found : Option Ty) (inferred : Ty) : Except TyError Ty :=
  match found with
  | none => .ok inferred
  | some previous =>
    if previous.containedIn inferred then .ok inferred
    else .error (.inferenceConflict generic previous inferred)

/-- `mergeInference`, where the new inference may say nothing. -/
def mergeOptional (generic : String) (found inferred : Option Ty) : Except TyError (Option Ty) :=
  match inferred with
  | none => .ok found
  | some t => (mergeInference generic found t).map some

namespace Ty

mutual

/-- What `generic` has to be for the argument to fit the parameter; `none` when the parameter says
nothing about it. Members of a union argument that the union parameter has literally say nothing;
the rest has to come from the generic. -/
def infer (generic : String) : (parameter : Ty) → (argument : Ty) → Except TyError (Option Ty)
  | .var x, argument => .ok (if x == generic then some argument else none)
  | .named decl params, argument =>
    match argument with
    | .named decl' args =>
      if decl.ref == decl'.ref && params.length == args.length then
        inferAll generic params args none
      else .ok none
    | _ => .ok none
  | .fn generics params result, argument =>
    if generics.contains generic then .ok none
    else
      match argument with
      | .fn _ params' result' =>
        if params.length == params'.length then do
          let found ← inferParams generic params params' none
          let last ← infer generic result result'
          mergeOptional generic found last
        else .ok none
      | _ => .ok none
  | .union ms, argument =>
    let rest := argument.members.filter (fun a => !ms.any (fun p => equal p a))
    if rest.isEmpty then .ok none else inferEach generic ms (join rest) none

/-- `infer` on types at the same positions, merged from left to right. -/
def inferAll (generic : String) :
    List Ty → List Ty → Option Ty → Except TyError (Option Ty)
  | p :: ps, a :: as, found => do
    let next ← infer generic p a
    let found ← mergeOptional generic found next
    inferAll generic ps as found
  | _, _, found => .ok found

/-- `infer` on the types of parameters at the same positions, merged from left to right. -/
def inferParams (generic : String) :
    List (String × Ty) → List (String × Ty) → Option Ty → Except TyError (Option Ty)
  | (_, p) :: ps, (_, a) :: as, found => do
    let next ← infer generic p a
    let found ← mergeOptional generic found next
    inferParams generic ps as found
  | _, _, found => .ok found

/-- `infer` of one argument against several parameters, merged from left to right. -/
def inferEach (generic : String) :
    List Ty → Ty → Option Ty → Except TyError (Option Ty)
  | p :: ps, a, found => do
    let next ← infer generic p a
    let found ← mergeOptional generic found next
    inferEach generic ps a found
  | [], _, found => .ok found

end

end Ty

end UnionChecker
