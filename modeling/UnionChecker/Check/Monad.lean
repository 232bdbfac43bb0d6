import UnionChecker.Program.Tree
import UnionChecker.Scope.TypeExpr
import UnionChecker.Ty.Assignability
/-!
# Checks

A check reads the frames in scope, may add to the innermost one, and may fail. The frames are kept
when it fails, so what a failed check leaves behind can be stated too.
-/

namespace UnionChecker

open Syntax (Name Span TypeExpr)

/-- A computation over the frames in scope that may fail. -/
abbrev Check := ExceptT Failure (StateM Frames)

namespace Check

/-- Fail with a cause at a place. -/
def fail {α : Type} (Γ : Context) (cause : Cause) (span : Span) : Check α :=
  throw (Γ.failure cause span)

/-- A result that does not depend on the frames. -/
def ofExcept {α : Type} (result : Except Failure α) : Check α := fun frames => (result, frames)

/-- A failure of the type algebra, reported at a place. -/
def ofAlgebra {α : Type} (Γ : Context) (span : Span) (result : Except TyError α) : Check α :=
  ofExcept (result.mapError fun error => Γ.failure (.algebra error) span)

/-- Run a check in a frame of its own, which is left in any case. -/
def inFrame {α : Type} (check : Check α) : Check α := fun frames =>
  let (result, inner) := check.run.run frames.push
  (result, Frames.pop inner)

/-- Change the failure of a check. -/
def mapFailure {α : Type} (f : Failure → Failure) (check : Check α) : Check α := fun frames =>
  let (result, frames) := check.run.run frames
  (result.mapError f, frames)

/-- The type that a written type stands for. -/
def resolve (Γ : Context) (type : TypeExpr) : Check Ty := fun frames =>
  (Γ.resolveType frames [] type, frames)

/-- The type that a written type stands for, if there is one. -/
def resolveOptional (Γ : Context) : Option TypeExpr → Check (Option Ty)
  | none => pure none
  | some type => do return some (← resolve Γ type)

/-- Bind a local. -/
def define (Γ : Context) (name : Name) (ty : Ty) : Check Unit := fun frames =>
  match frames.defineValue name.text ty with
  | some frames => (.ok (), frames)
  | none => (.error (Γ.failure (.duplicateVariable name.text) name.span), frames)

/-- Bring a generic into scope. -/
def defineGeneric (Γ : Context) (name : Name) : Check Unit := fun frames =>
  match frames.defineGeneric name.text with
  | some frames => (.ok (), frames)
  | none => (.error (Γ.failure (.duplicateVariable name.text) name.span), frames)

/-- Require that a value of type `found` may stand where `expected` is wanted. -/
def requireAssignable (Γ : Context) (found expected : Ty) (span : Span) : Check Unit :=
  if found.isAssignable expected then pure () else fail Γ (.mismatch expected found) span

/-- `requireAssignable`, when something is wanted at all. -/
def requireExpected (Γ : Context) (found : Ty) (expected : Option Ty) (span : Span) : Check Unit :=
  match expected with
  | none => pure ()
  | some expected => requireAssignable Γ found expected span

end Check

end UnionChecker
