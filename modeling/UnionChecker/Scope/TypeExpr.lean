import UnionChecker.Failure
import UnionChecker.Scope.Frames
import UnionChecker.Syntax.Tree
/-!
# The meaning of written types

A written type is resolved in a scope, together with generics that are in scope for this type only:
those of the struct, alias or function that it is part of. A function type brings its own generics
into scope for its parameters and its result.
-/

namespace UnionChecker

open Syntax (Name Span TypeExpr Alternative)

namespace Context

/-- A wrong number of generics at `span`. -/
def wrongCount (Γ : Context) (span : Span) (expected actual : Nat) : Failure :=
  Γ.failure (.algebra (.wrongGenericCount expected actual)) span

/-- A generic parameter, which takes no generics itself. -/
def genericAt (Γ : Context) (name : Name) (args : List Ty) : Except Failure Ty :=
  if args.isEmpty then .ok (.var name.text) else .error (Γ.wrongCount name.span 0 args.length)

/-- The type that a name stands for at given generics. -/
def typeAt (Γ : Context) (frames : Frames) (generics : List String) (name : Name)
    (args : List Ty) : Except Failure Ty :=
  if generics.contains name.text then Γ.genericAt name args
  else
    match Γ.lookupType frames name.text with
    | none => .error (Γ.failure (.typeNotFound name.text) name.span)
    | some .generic => Γ.genericAt name args
    | some (.named decl _) =>
      if decl.formals.length == args.length then .ok (.named decl args)
      else .error (Γ.wrongCount name.span decl.formals.length args.length)
    | some (.synonym formals ty) =>
      if formals.length == args.length then .ok (ty.resolve (Substitution.ofLists formals args))
      else .error (Γ.wrongCount name.span formals.length args.length)

mutual

/-- The type that a written type stands for. -/
def resolveType (Γ : Context) (frames : Frames) (generics : List String) :
    TypeExpr → Except Failure Ty
  | ⟨alternatives, _⟩ => (resolveAlternatives Γ frames generics alternatives).map .join

/-- The type that an alternative stands for. -/
def resolveAlternative (Γ : Context) (frames : Frames) (generics : List String) :
    Alternative → Except Failure Ty
  | .hole span => .error (Γ.failure .misplacedHole span)
  | .named name args => do
    let args ← resolveTypes Γ frames generics args
    Γ.typeAt frames generics name args
  | .fn bound params result _ => do
    let inner := generics ++ bound.map (·.text)
    let params ← resolveParams Γ frames inner params
    let result ← resolveType Γ frames inner result
    return .fn (bound.map (·.text)) params result

/-- The types that alternatives stand for. -/
def resolveAlternatives (Γ : Context) (frames : Frames) (generics : List String) :
    List Alternative → Except Failure (List Ty)
  | [] => .ok []
  | a :: as => do
    let first ← resolveAlternative Γ frames generics a
    let rest ← resolveAlternatives Γ frames generics as
    return first :: rest

/-- The types that written types stand for. -/
def resolveTypes (Γ : Context) (frames : Frames) (generics : List String) :
    List TypeExpr → Except Failure (List Ty)
  | [] => .ok []
  | t :: ts => do
    let first ← resolveType Γ frames generics t
    let rest ← resolveTypes Γ frames generics ts
    return first :: rest

/-- The parameters of a function type. One without a name is called `_`. -/
def resolveParams (Γ : Context) (frames : Frames) (generics : List String) :
    List (Option Name × TypeExpr) → Except Failure (List (String × Ty))
  | [] => .ok []
  | (name, t) :: ps => do
    let first ← resolveType Γ frames generics t
    let rest ← resolveParams Γ frames generics ps
    return ((name.map (·.text)).getD "_", first) :: rest

end

end Context

end UnionChecker
