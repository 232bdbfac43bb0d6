import UnionChecker.Check.Monad
import UnionChecker.Ty.Inference
/-!
# Names, fields and generics of calls

The parts of checking a call that do not look into its arguments. The generics of a call are given
explicitly, left open with `_`, or all left open. Open generics are inferred from the arguments, and
what these leave open from the type that the call is wanted at.
-/

namespace UnionChecker.Check

open Syntax (Name Span TypeExpr Argument)

/-- The variable of a name. -/
def identifier (Γ : Context) (name : Name) : Check TypedExpr := fun frames =>
  match Γ.resolveValue frames name.text with
  | .ok resolved => (.ok (.reference resolved.type resolved.package resolved.name), frames)
  | .error .notFound => (.error (Γ.failure (.notInScope name.text) name.span), frames)
  | .error .pending => (.error (Γ.failure (.undetermined name.text) name.span), frames)

/-- The field of a record. -/
def member (Γ : Context) (subject : TypedExpr) (name : Name) : Check TypedExpr :=
  match subject.ty with
  | .named decl args =>
    match ((Γ.table.fieldsOf decl args).getD []).lookup name.text with
    | some type => pure (.access type subject name.text)
    | none => fail Γ (.noField name.text (.named decl args)) name.span
  | other => fail Γ (.accessOver other) name.span

/-- The signature of a callee. -/
def calleeSignature (Γ : Context) (subject : TypedExpr) (span : Span) : Check Signature :=
  match subject.ty with
  | .fn generics params result => pure ⟨generics, params, result⟩
  | other => fail Γ (.notInvocable other) span

/-- Require that named arguments bear the names of their parameters. -/
def requireLabels (Γ : Context) : List Argument → List (String × Ty) → Check Unit
  | argument :: arguments, param :: params => do
    match argument.label with
    | none => pure ()
    | some label =>
      if label.text == param.1 then pure () else fail Γ (.argumentLabel param.1) label.span
    requireLabels Γ arguments params
  | _, _ => pure ()

/-- Whether a written type is `_`, which leaves a generic open. -/
def isHole (type : TypeExpr) : Bool :=
  match type.alternatives with
  | [.hole _] => true
  | _ => false

/-- Match the generics of a callee with the written ones: what is given, and what is open. -/
def givenGenerics (Γ : Context) :
    List String → List TypeExpr → Substitution → List String → Check (Substitution × List String)
  | generic :: generics, type :: types, given, opened =>
    if isHole type then givenGenerics Γ generics types given (opened ++ [generic])
    else do
      let t ← resolve Γ type
      givenGenerics Γ generics types (given.set generic t) opened
  | _, _, given, opened => pure (given, opened)

/-- What the written generics of a call give for the generics of the callee, and what they leave
open: everything, when none are written. -/
def explicitGenerics (Γ : Context) (generics : List String) (types : List TypeExpr) (span : Span) :
    Check (Substitution × List String) :=
  if types.isEmpty then pure ([], generics)
  else if types.length == generics.length then givenGenerics Γ generics types [] []
  else fail Γ (.genericCount generics.length types.length) span

/-- Infer open generics from the type of an argument. -/
def inferFrom (Γ : Context) (param argument : Ty) (span : Span) :
    List String → Substitution → Check Substitution
  | [], inferred => pure inferred
  | generic :: opened, inferred => do
    match ← ofAlgebra Γ span (param.infer generic argument) with
    | none => inferFrom Γ param argument span opened inferred
    | some found =>
      let merged ← ofAlgebra Γ span (mergeInference generic (inferred.lookup generic) found)
      inferFrom Γ param argument span opened (inferred.set generic merged)

/-- Infer what is left open from the type that the call is wanted at. -/
def inferFromExpected (Γ : Context) (result expected : Ty) (span : Span) :
    List String → Substitution → Check Substitution
  | [], inferred => pure inferred
  | generic :: opened, inferred => do
    match ← ofAlgebra Γ span (result.infer generic expected) with
    | none => inferFromExpected Γ result expected span opened inferred
    | some found => inferFromExpected Γ result expected span opened (inferred.set generic found)

/-- Complete the inference of the open generics, given what the arguments say about them. -/
def completeInference (Γ : Context) (result : Ty) (expected : Option Ty) (opened : List String)
    (inferred : Substitution) (span : Span) : Check Substitution := do
  let rest := opened.filter fun generic => !inferred.binds generic
  let inferred ← (
    match expected with
    | none => pure inferred
    | some expected => inferFromExpected Γ result expected span rest inferred)
  if opened.all inferred.binds then pure inferred else fail Γ .unknownGenerics span

/-- Require that arguments fit their parameters at the inferred generics. -/
def requireArguments (Γ : Context) (inferred : Substitution) :
    List Argument → List Ty → List TypedExpr → Check Unit
  | argument :: arguments, param :: params, value :: values => do
    requireAssignable Γ value.ty (param.resolve inferred) argument.value.span
    requireArguments Γ inferred arguments params values
  | _, _, _ => pure ()

/-- The types that the generics of a call stand for. None of them may be a function type. -/
def callGenerics (Γ : Context) (σ : Substitution) (span : Span) : List String → Check (List Ty)
  | [] => pure []
  | generic :: generics => do
    match (σ.lookup generic).getD (.var generic) with
    | .fn _ _ _ => fail Γ .functionAsGeneric span
    | t => return t :: (← callGenerics Γ σ span generics)

end UnionChecker.Check
