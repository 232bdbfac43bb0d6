import UnionChecker.Check.Monad
/-!
# Parameters and results of lambdas

A lambda that is wanted somewhere has a *shape*: the types of its parameters and, unless the body
decides it, the type of its result. Written types have to agree with the shape; a parameter or
result without one takes it from the shape.
-/

namespace UnionChecker.Check

open Syntax (Name Span Parameter TypeExpr Lambda)

/-- What is wanted of a lambda, its generics being called as the lambda calls them. -/
structure Shape where
  params : List Ty
  /-- None when the body decides. -/
  result : Option Ty

/-- The function types among the members of a type. -/
def functionMembers (t : Ty) : List Signature := t.members.filterMap Ty.signature?

/-- The shape that a lambda has to take where `expected` is wanted. -/
def expectedShape (Γ : Context) (generics : List Name) (expected : Ty) (span : Span) :
    Check Shape :=
  match functionMembers expected with
  | [signature] =>
    if signature.generics.length == generics.length then
      let σ := Substitution.ofLists signature.generics (generics.map fun g => .var g.text)
      pure ⟨signature.params.map (fun p => p.2.resolve σ), some (signature.result.resolve σ)⟩
    else fail Γ (.genericCount signature.generics.length generics.length) span
  | _ => fail Γ (.lambdaMismatch expected) span

/-- Bring the generics of a lambda into scope. -/
def defineGenerics (Γ : Context) : List Name → Check Unit
  | [] => pure ()
  | name :: names => do
    defineGeneric Γ name
    defineGenerics Γ names

/-- The type of the parameter at position `index`, from its written type and from the shape. -/
def paramType (Γ : Context) (index : Nat) (param : Parameter) (wanted : Option Ty) : Check Ty := do
  match ← resolveOptional Γ param.type, wanted with
  | some written, some wanted =>
    if written.equal wanted then pure written
    else fail Γ (.paramMismatch index wanted written) param.name.span
  | some written, none => pure written
  | none, some wanted => pure wanted
  | none, none => fail Γ (.unannotatedParam param.name.text) param.name.span

/-- The parameters of a lambda with their types, from position `index` on. -/
def paramTypes (Γ : Context) (index : Nat) :
    List Parameter → List Ty → Check (List (String × Ty))
  | [], _ => pure []
  | param :: params, wanted => do
    let type ← paramType Γ index param wanted.head?
    return (param.name.text, type) :: (← paramTypes Γ (index + 1) params wanted.tail)

/-- The type of the result of a lambda, or none when the body decides it. -/
def resultType (Γ : Context) (result : Option TypeExpr) (shape : Option Shape) (span : Span) :
    Check (Option Ty) := do
  match ← resolveOptional Γ result, shape with
  | some written, some ⟨_, some wanted⟩ =>
    if written.equal wanted then pure (some written)
    else fail Γ (.resultMismatch wanted written) span
  | some written, _ => pure (some written)
  | none, some shape => pure shape.result
  | none, none => fail Γ .unannotatedResult span

/-- Require that a lambda has as many parameters as its shape. -/
def requireParamCount (Γ : Context) (params : List Parameter) (shape : Option Shape)
    (span : Span) : Check Unit :=
  match shape with
  | none => pure ()
  | some shape =>
    if shape.params.length == params.length then pure ()
    else fail Γ (.paramCount shape.params.length params.length) span

/-- Bind the parameters of a lambda. -/
def defineParams (Γ : Context) : List Parameter → List (String × Ty) → Check Unit
  | param :: params, type :: types => do
    define Γ param.name type.2
    defineParams Γ params types
  | _, _ => pure ()

/-- What a lambda declares before its body is looked at: its generics and parameters are brought
into scope, and the type of its result is determined. -/
def enterLambda (Γ : Context) (generics : List Name) (params : List Parameter)
    (result : Option TypeExpr) (shape : Option Shape) (span : Span) :
    Check (List (String × Ty) × Option Ty) := do
  defineGenerics Γ generics
  requireParamCount Γ params shape span
  let types ← paramTypes Γ 0 params ((shape.map (·.params)).getD [])
  let result ← resultType Γ result shape span
  defineParams Γ params types
  return (types, result)

/-- The parameters of a lambda whose types are all written. -/
def writtenParams (Γ : Context) (generics : List String) :
    List Parameter → Check (List (String × Ty))
  | [] => pure []
  | param :: params => do
    match param.type with
    | none => writtenParams Γ generics params
    | some type => do
      let type ← (fun frames => (Γ.resolveType frames generics type, frames) : Check Ty)
      return (param.name.text, type) :: (← writtenParams Γ generics params)

/-- The signature of a lambda whose types are all written, without a look at its body. So
package-level functions can refer to themselves and to each other. -/
def writtenSignature (Γ : Context) (lambda : Lambda) : Check (Option Signature) :=
  match lambda.result with
  | none => pure none
  | some result =>
    if lambda.params.all (fun p => p.type.isSome) then do
      let generics := lambda.generics.map (·.text)
      let params ← writtenParams Γ generics lambda.params
      let result ← (fun frames => (Γ.resolveType frames generics result, frames) : Check Ty)
      return some ⟨generics, params, result⟩
    else pure none

end UnionChecker.Check
