import UnionChecker.Ty.Equality
import UnionChecker.Ty.Error
/-!
# Substitution

A substitution gives types for generic parameters. Generics that a function type binds shadow it,
and generics without a type stay as they are. Unions are rebuilt, because putting types in can
make members equal or bring in nested unions; with nothing to substitute a type is left as it is.
-/

namespace UnionChecker

/-- Types for generic parameters, each listed once. -/
abbrev Substitution := List (String × Ty)

namespace Substitution

/-- Give `generic` the type `t`, whatever it had before. -/
def set (σ : Substitution) (generic : String) (t : Ty) : Substitution :=
  (generic, t) :: σ.filter (fun entry => entry.1 != generic)

/-- Drop the entries of some generics. -/
def without (σ : Substitution) (generics : List String) : Substitution :=
  σ.filter (fun entry => !generics.contains entry.1)

/-- Whether `generic` has a type. -/
def binds (σ : Substitution) (generic : String) : Bool := (σ.lookup generic).isSome

/-- Pair generics with types by position. The last of several entries for one name counts. -/
def ofLists (generics : List String) (types : List Ty) : Substitution :=
  (generics.zip types).foldl (fun σ entry => σ.set entry.1 entry.2) []

/-- The entries of `τ` added to those of `σ`, which they override. -/
def extend (σ τ : Substitution) : Substitution :=
  τ.foldr (fun entry ρ => Substitution.set ρ entry.1 entry.2) σ

end Substitution

namespace Ty

mutual

/-- Replace generic parameters. Inside a function type that binds all of the substitution nothing
changes. -/
def substitute (σ : Substitution) : Ty → Ty
  | .var x => (σ.lookup x).getD (.var x)
  | .named decl args => .named decl (substituteAll σ args)
  | .fn generics params result =>
    let inner := σ.without generics
    if inner.isEmpty then .fn generics params result
    else .fn generics (substituteParams inner params) (substitute inner result)
  | .union ms => join (substituteAll σ ms)

/-- Replace generic parameters in every type of a list. -/
def substituteAll (σ : Substitution) : List Ty → List Ty
  | [] => []
  | t :: ts => substitute σ t :: substituteAll σ ts

/-- Replace generic parameters in every type of a parameter list. -/
def substituteParams (σ : Substitution) : List (String × Ty) → List (String × Ty)
  | [] => []
  | (x, t) :: ps => (x, substitute σ t) :: substituteParams σ ps

end

/-- Replace generic parameters, leaving the type as it is when there is nothing to replace. -/
def resolve (σ : Substitution) (t : Ty) : Ty := if σ.isEmpty then t else t.substitute σ

mutual

/-- Whether one of `generics` occurs free. -/
def mentionsAny (generics : List String) : Ty → Bool
  | .var x => generics.contains x
  | .named _ args => mentionsAnyOf generics args
  | .fn bound params result =>
    let free := generics.filter (fun g => !bound.contains g)
    mentionsAnyOfParams free params || mentionsAny free result
  | .union ms => mentionsAnyOf generics ms

/-- Whether one of `generics` occurs free in one of the types. -/
def mentionsAnyOf (generics : List String) : List Ty → Bool
  | [] => false
  | t :: ts => mentionsAny generics t || mentionsAnyOf generics ts

/-- Whether one of `generics` occurs free in one of the parameter types. -/
def mentionsAnyOfParams (generics : List String) : List (String × Ty) → Bool
  | [] => false
  | (_, t) :: ps => mentionsAny generics t || mentionsAnyOfParams generics ps

end

end Ty

namespace Signature

/-- The types of the parameters. -/
def paramTypes (s : Signature) : List Ty := s.params.map (·.2)

/-- The signature at concrete generics. -/
def instantiate (s : Signature) (types : List Ty) : Except TyError Signature :=
  if s.generics.length == types.length then
    let σ := Substitution.ofLists s.generics types
    .ok ⟨[], s.params.map (fun p => (p.1, p.2.resolve σ)), s.result.resolve σ⟩
  else
    .error (.wrongGenericCount s.generics.length types.length)

end Signature

end UnionChecker
