import UnionChecker.Coverage
import UnionChecker.Syntax.Span
import UnionChecker.Ty.Error
/-!
# Failures of a check

A failure is a cause at a place of a file. Every cause belongs to a kind with a stable code, and
all wording is in `Cause.message`. The kind is kept beside the cause, because the same mismatch is
reported under another kind when it comes from the early exit of a short circuit.
-/

namespace UnionChecker

open Syntax (Span)

/-- Kinds of failures. -/
inductive ErrorKind where
  /-- A value does not fit, or generics cannot be inferred. -/
  | typeMismatch
  | unresolvedReference
  | notFoundType
  | duplicateVariable
  /-- A repeated type, field, import or declaration. -/
  | duplicateDeclaration
  | nonExhaustiveMatch
  | duplicateOrUnreachableCase
  /-- An arm over a generic struct without a witness field. -/
  | unnarrowableGeneric
  /-- The early exit of a short circuit does not fit its function. -/
  | shortCircuitOutsideReturnCompatibleFunction
  | timeout
deriving DecidableEq, Repr

namespace ErrorKind

/-- All kinds, in the order of their codes. -/
def all : List ErrorKind :=
  [.typeMismatch, .unresolvedReference, .notFoundType, .duplicateVariable, .duplicateDeclaration,
    .nonExhaustiveMatch, .duplicateOrUnreachableCase, .unnarrowableGeneric,
    .shortCircuitOutsideReturnCompatibleFunction, .timeout]

/-- The stable code of a kind. -/
def code : ErrorKind → String
  | .typeMismatch => "E2001"
  | .unresolvedReference => "E2002"
  | .notFoundType => "E2003"
  | .duplicateVariable => "E2004"
  | .duplicateDeclaration => "E2005"
  | .nonExhaustiveMatch => "E2006"
  | .duplicateOrUnreachableCase => "E2007"
  | .unnarrowableGeneric => "E2008"
  | .shortCircuitOutsideReturnCompatibleFunction => "E2009"
  | .timeout => "E2010"

/-- The name of a kind. -/
def label : ErrorKind → String
  | .typeMismatch => "TypeMismatch"
  | .unresolvedReference => "UnresolvedReference"
  | .notFoundType => "NotFoundType"
  | .duplicateVariable => "DuplicateVariable"
  | .duplicateDeclaration => "DuplicateDeclaration"
  | .nonExhaustiveMatch => "NonExhaustiveMatch"
  | .duplicateOrUnreachableCase => "DuplicateOrUnreachableCase"
  | .unnarrowableGeneric => "UnnarrowableGeneric"
  | .shortCircuitOutsideReturnCompatibleFunction => "ShortCircuitOutsideReturnCompatibleFunction"
  | .timeout => "Timeout"

/-- The kind with a given name. -/
def ofLabel? (label : String) : Option ErrorKind := all.find? (fun kind => kind.label == label)

end ErrorKind

/-- The kind under which a failure of the type algebra is reported. -/
def TyError.kind : TyError → ErrorKind
  | .unnarrowableGeneric _ _ => .unnarrowableGeneric
  | _ => .typeMismatch

/-- What is wrong. -/
inductive Cause where
  /-- A value of type `found` stands where `expected` is wanted. -/
  | mismatch (expected found : Ty)
  | reservedName (name : String)
  /-- A lambda stands where `expected`, not one function type, is wanted. -/
  | lambdaMismatch (expected : Ty)
  | genericCount (expected actual : Nat)
  | paramCount (expected actual : Nat)
  | argumentCount (expected actual : Nat)
  | emptyFunction
  /-- A parameter is annotated with another type than is wanted. -/
  | paramMismatch (index : Nat) (expected annotated : Ty)
  | resultMismatch (expected annotated : Ty)
  | unannotatedParam (name : String)
  | unannotatedResult
  | unknownListElement
  | unknownGenerics
  | accessOver (ty : Ty)
  | notInvocable (ty : Ty)
  /-- An argument bears another name than its parameter, `expected`. -/
  | argumentLabel (expected : String)
  | functionAsGeneric
  | misplacedHole
  | algebra (error : TyError)
  | packageName
  | packageMismatch (expected found : String)
  | arrowWithoutArguments
  | notInScope (name : String)
  /-- The type of a package-level name is still, or forever, unknown. -/
  | undetermined (name : String)
  | noField (field : String) (ty : Ty)
  | importWithoutPackage
  | importNotFound (name package : String)
  | packageNotFound (package : String)
  | typeNotFound (name : String)
  | incomparableField (ty : Ty)
  | duplicateVariable (name : String)
  | duplicateType (name : String)
  | importConflict (name : String)
  | duplicateImport (name : String)
  | duplicateGeneric (generic owner : String)
  | duplicateField (field owner : String)
  | missingCases (missing : List String)
  | coverage (error : CoverageError)
  | shortCircuitAtTopLevel
  | shortCircuitUnannotated
  | timeout (declaration : String) (milliseconds : Nat)
deriving Repr

namespace Cause

/-- The kind of a cause. -/
def kind : Cause → ErrorKind
  | .algebra error => error.kind
  | .notInScope _ | .undetermined _ | .noField _ _ | .importWithoutPackage | .importNotFound _ _
  | .packageNotFound _ => .unresolvedReference
  | .typeNotFound _ | .incomparableField _ => .notFoundType
  | .duplicateVariable _ => .duplicateVariable
  | .duplicateType _ | .importConflict _ | .duplicateImport _ | .duplicateGeneric _ _
  | .duplicateField _ _ => .duplicateDeclaration
  | .missingCases _ => .nonExhaustiveMatch
  | .coverage _ => .duplicateOrUnreachableCase
  | .shortCircuitAtTopLevel | .shortCircuitUnannotated =>
    .shortCircuitOutsideReturnCompatibleFunction
  | .timeout _ _ => .timeout
  | _ => .typeMismatch

/-- `expected n things but got m`. -/
def countMessage (things : String) (expected actual : Nat) : String :=
  "expected " ++ toString expected ++ " " ++ things ++ " but got " ++ toString actual

/-- The wording of a cause. -/
def message : Cause → String
  | .mismatch expected found => "expected type " ++ expected.name ++ " but found " ++ found.name
  | .reservedName name => "Variable can't be named '" ++ name ++ "'"
  | .lambdaMismatch expected => "Expected " ++ expected.name ++ " but got a function"
  | .genericCount expected actual => countMessage "generics" expected actual
  | .paramCount expected actual => countMessage "params" expected actual
  | .argumentCount expected actual => countMessage "arguments" expected actual
  | .emptyFunction => "empty function block not allowed (maybe you want to return null?)"
  | .paramMismatch index expected annotated =>
    "in parameter position " ++ toString index ++ " expected type " ++ expected.name
      ++ " but you have annotated " ++ annotated.name
  | .resultMismatch expected annotated =>
    "in return type expected type " ++ expected.name ++ " but you have annotated " ++ annotated.name
  | .unannotatedParam name => "Type annotation required for " ++ name
  | .unannotatedResult => "Return type annotation required"
  | .unknownListElement => "Could not infer list generic, please annotate it"
  | .unknownGenerics => "Could not infer generics, please annotate them"
  | .accessOver ty => "can't access over " ++ ty.name
  | .notInvocable ty => "Should be a function in order to be invoked but is " ++ ty.name
  | .argumentLabel expected => "name of argument should be '" ++ expected ++ "'"
  | .functionAsGeneric => "Can't pass a function as a generic"
  | .misplacedHole => "Generic inference not allowed here"
  | .algebra error => error.message
  | .packageName => "package name should start with a lowercase letter"
  | .packageMismatch expected found => "expected package " ++ expected ++ " but found " ++ found
  | .arrowWithoutArguments => "Arrow syntax requires parenthesis on the right-hand side"
  | .notInScope name => "Not found in scope: " ++ name
  | .undetermined name =>
    "Could not determine the type of '" ++ name ++ "', please annotate it"
  | .noField field ty => "no field named " ++ field ++ " on " ++ ty.name
  | .importWithoutPackage => "all imports belong to a package"
  | .importNotFound name package => name ++ " not found in package " ++ package
  | .packageNotFound package => "no package " ++ package ++ " found"
  | .typeNotFound name => "not found type: " ++ name
  | .incomparableField ty =>
    "not found type: " ++ ty.name ++ " (are you using an incomparable type?)"
  | .duplicateVariable name => "duplicate variable '" ++ name ++ "'"
  | .duplicateType name => "duplicate type " ++ name
  | .importConflict name => "import " ++ name ++ " conflicts with a declaration of the same name"
  | .duplicateImport name => "duplicate import " ++ name
  | .duplicateGeneric generic owner => "duplicate generic " ++ generic ++ " in " ++ owner
  | .duplicateField field owner => "duplicate field " ++ field ++ " in " ++ owner
  | .missingCases missing => missingCasesMessage missing
  | .coverage error => error.message
  | .shortCircuitAtTopLevel => "shortcircuit only allowed inside of functions"
  | .shortCircuitUnannotated => "when shortcircuiting one of the types needs to be annotated"
  | .timeout declaration milliseconds =>
    "checking '" ++ declaration ++ "' did not finish within " ++ toString milliseconds ++ "ms"

end Cause

/-- A cause at a place, under the kind it is reported as. -/
structure Failure where
  kind : ErrorKind
  cause : Cause
  file : String
  span : Span
deriving Repr

namespace Failure

/-- A cause reported under its own kind. -/
def of (cause : Cause) (file : String) (span : Span) : Failure := ⟨cause.kind, cause, file, span⟩

def message (f : Failure) : String := f.cause.message

/-- Whether the failure is due to a name whose type is not known yet. -/
def isUndetermined (f : Failure) : Bool :=
  match f.cause with
  | .undetermined _ => true
  | _ => false

end Failure

/-! ## Reports -/

/-- An error as it is reported. -/
structure Report where
  kind : ErrorKind
  message : String
  file : String
  span : Syntax.Span
deriving Repr

/-- The report of a failure. -/
def Failure.report (f : Failure) : Report := ⟨f.kind, f.message, f.file, f.span⟩

/-- A report on one line: `file:line:column: error[code]: message`. -/
def Report.plain (r : Report) : String :=
  r.file ++ ":" ++ toString r.span.line ++ ":" ++ toString r.span.column ++ ": error["
    ++ r.kind.code ++ "]: " ++ r.message

end UnionChecker
