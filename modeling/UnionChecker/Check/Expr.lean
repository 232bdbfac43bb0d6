import UnionChecker.Check.Call
import UnionChecker.Check.Function
/-!
# Checking expressions

Every expression is checked against a type that is wanted of it, or without one. A wanted type goes
down into blocks, lambdas and list items, and what comes back has to be assignable to it; without
one the type is built from the bottom up.

Arguments of a call whose parameters mention open generics are checked without a wanted type, and
what they say is collected. Lambdas among them come last, so that the types of their parameters can
come from the other arguments.
-/

namespace UnionChecker.Check

open Syntax

/-- The type of a literal. -/
def literalType : Literal → Ty
  | .float _ => .float
  | .int _ => .int
  | .string _ => .string
  | .bool _ => .boolean
  | .null => .void

/-- A block with the given statements. An empty block yields nothing. -/
def blockOf (Γ : Context) (block : List Term) (expected : Option Ty) (span : Span)
    (statements : Check (List TypedExpr)) : Check (List TypedExpr) :=
  if block.isEmpty then do
    requireExpected Γ .void expected span
    return []
  else statements

/-- A conditional with the given parts. Without an `else` it yields nothing. -/
def conditionalOf (Γ : Context) (hasElse : Bool) (expected : Option Ty) (span : Span)
    (condition : Check TypedExpr) (thenBlock elseBlock : Check (List TypedExpr)) :
    Check TypedExpr := do
  let condition ← condition
  if !hasElse then requireExpected Γ .void expected span
  let thenBlock ← inFrame thenBlock
  let elseBlock ← elseBlock
  let type :=
    match expected with
    | some expected => expected
    | none =>
      if hasElse then .join [blockType thenBlock, blockType elseBlock] else .void
  return .conditional type condition thenBlock elseBlock

/-- Require that a declared name is not one of the reserved ones. -/
def requireUnreserved (Γ : Context) (name : Name) : Check Unit :=
  if name.text == "true" || name.text == "false" then fail Γ (.reservedName name.text) name.span
  else pure ()

/-- A mismatch in the early exit of a short circuit means that the enclosing block cannot return
the residual, and is reported so. -/
def residualFailure (origin : Origin) (f : Failure) : Failure :=
  if origin == .shortCircuitResidual && f.kind == .typeMismatch then
    { f with kind := .shortCircuitOutsideReturnCompatibleFunction }
  else f

/-- The body of an arm, in a frame where the value is bound at the type of the arm. -/
def armBody (Γ : Context) (name : Option Name) (type : Ty) (origin : Origin)
    (body : Check (List TypedExpr)) : Check (List TypedExpr) :=
  mapFailure (residualFailure origin) (inFrame do
    match name with
    | none => pure ()
    | some name => define Γ name type
    body)

/-- Require that nothing is left of the value of a `when`. -/
def requireExhaustive (Γ : Context) (coverage : Coverage) (span : Span) : Check Unit :=
  match coverage.missing with
  | [] => pure ()
  | missing => fail Γ (.missingCases missing) span

/-- Cases are ordered by the names of their types. -/
def caseLe (a b : TypedCase) : Bool := a.type.le b.type

/-- A lambda without a chain and without generics of its own. -/
def isPlainLambda (t : Term) : Bool :=
  match t with
  | ⟨.lambda ⟨[], _, _, _, _⟩, [], _⟩ => true
  | _ => false

/-- The shape that open generics leave to a lambda argument: none when a parameter is still open. -/
def openShape (opened : List String) : Ty → Option Shape
  | .fn _ params result =>
    if params.any (fun p => p.2.mentionsAny opened) then none
    else some ⟨params.map (·.2), if result.mentionsAny opened then none else some result⟩
  | _ => none

mutual

/-- Check a term. -/
def checkTerm (Γ : Context) : Term → Option Ty → Check TypedExpr
  | ⟨head, [], span⟩, expected => do
    let e ← checkExpr Γ head expected
    requireExpected Γ e.ty expected span
    return e
  | ⟨head, link :: links, span⟩, expected => do
    let first ← checkExpr Γ head none
    let e ← checkLinks Γ (link :: links) first expected
    requireExpected Γ e.ty expected span
    return e

/-- Check the links of a chain. Only the last one is wanted at a type. -/
def checkLinks (Γ : Context) : List Link → TypedExpr → Option Ty → Check TypedExpr
  | [], e, _ => pure e
  | ⟨access, args, span⟩ :: links, e, expected => do
    let e ← (
      match access with
      | none => pure e
      | some access => member Γ e access.name)
    let e ← (
      match args with
      | none => pure e
      | some args => checkCall Γ args e (if links.isEmpty then expected else none) span)
    checkLinks Γ links e expected

/-- Check a call of `subject`. -/
def checkCall (Γ : Context) : Arguments → TypedExpr → Option Ty → Span → Check TypedExpr
  | ⟨generics, items, argsSpan⟩, subject, expected, span => do
    let signature ← calleeSignature Γ subject span
    if items.length != signature.params.length then
      fail Γ (.argumentCount signature.params.length items.length) argsSpan
    requireLabels Γ items signature.params
    let (given, opened) ← explicitGenerics Γ signature.generics generics argsSpan
    let params := signature.paramTypes.map (·.resolve given)
    let (σ, args) ← (
      if opened.isEmpty then do
        let args ← checkArguments Γ items params
        return (given, args)
      else do
        let (early, inferred) ← checkEarly Γ items params opened []
        let (args, inferred) ← checkDeferred Γ items params opened early inferred
        let inferred ← completeInference Γ (signature.result.resolve given) expected opened
          inferred span
        requireArguments Γ inferred items params args
        return (given.extend inferred, args))
    let generics ← callGenerics Γ σ span signature.generics
    return .invocation (signature.result.resolve σ) subject generics args

/-- Check arguments whose parameters are known. -/
def checkArguments (Γ : Context) : List Argument → List Ty → Check (List TypedExpr)
  | ⟨_, value, _⟩ :: items, param :: params => do
    let e ← checkTerm Γ value (some param)
    return e :: (← checkArguments Γ items params)
  | _, _ => pure []

/-- Check the arguments of a call with open generics, except for the lambdas that have to wait, and
collect what the arguments say about the generics. -/
def checkEarly (Γ : Context) :
    List Argument → List Ty → List String → Substitution →
    Check (List (Option TypedExpr) × Substitution)
  | ⟨_, value, _⟩ :: items, param :: params, opened, inferred => do
    let (first, inferred) ← (
      if !param.mentionsAny opened then do
        let e ← checkTerm Γ value (some param)
        return (some e, inferred)
      else if isPlainLambda value && param.signature?.isSome then
        return (none, inferred)
      else do
        let e ← checkTerm Γ value none
        return (some e, ← inferFrom Γ param e.ty value.span opened inferred))
    let (rest, inferred) ← checkEarly Γ items params opened inferred
    return (first :: rest, inferred)
  | _, _, _, inferred => pure ([], inferred)

/-- Check the lambdas that had to wait, at what is inferred by then, and collect what they say about
the generics. -/
def checkDeferred (Γ : Context) :
    List Argument → List Ty → List String → List (Option TypedExpr) → Substitution →
    Check (List TypedExpr × Substitution)
  | ⟨_, ⟨head, _, span⟩, _⟩ :: items, param :: params, opened, early :: rest, inferred => do
    let (first, inferred) ← (
      match early with
      | some e => return (e, inferred)
      | none => do
        let e ← (
          match head, openShape opened (param.resolve inferred) with
          | .lambda lambda, some shape => do
            return .function (← checkLambda Γ lambda (some shape))
          | head, _ => checkExpr Γ head none)
        return (e, ← inferFrom Γ param e.ty span opened inferred))
    let (rest, inferred) ← checkDeferred Γ items params opened rest inferred
    return (first :: rest, inferred)
  | _, _, _, _, inferred => pure ([], inferred)

/-- Check the head of a term. -/
def checkExpr (Γ : Context) : Expr → Option Ty → Check TypedExpr
  | .literal value _, _ => pure (.literal value (literalType value))
  | .reference name args span, expected => do
    let subject ← identifier Γ name
    match args with
    | none => pure subject
    | some args => checkCall Γ args subject expected span
  | .lambda lambda, expected => do
    let shape ← (
      match expected with
      | none => pure none
      | some expected => do
        return some (← expectedShape Γ lambda.generics expected lambda.span))
    return .function (← checkLambda Γ lambda shape)
  | .declaration ⟨name, type, _, value, _⟩, _ => do
    requireUnreserved Γ name
    match type with
    | some type =>
      -- the name is bound first, so that the value may refer to it
      let ty ← resolve Γ type
      define Γ name ty
      let e ← checkTerm Γ value (some ty)
      return .declaration name.text e
    | none =>
      let e ← checkTerm Γ value none
      define Γ name e.ty
      return .declaration name.text e
  | .conditional ⟨condition, thenBlock, elseIfs, elseBlock, span⟩, expected =>
    conditionalOf Γ (!elseIfs.isEmpty || !elseBlock.isEmpty) expected span
      (checkTerm Γ condition (some .boolean))
      (blockOf Γ thenBlock expected span (checkStatements Γ thenBlock expected))
      (checkElse Γ elseIfs (!elseBlock.isEmpty) expected span
        (fun span => blockOf Γ elseBlock expected span (checkStatements Γ elseBlock expected)))
  | .list generics items span, expected =>
    match generics with
    | [] => do
      let wanted := ((expected.map Ty.members).getD []).filterMap Ty.listElement?
      match wanted with
      | [element] => return .list element (← checkItems Γ items (some element))
      | _ =>
        if items.isEmpty then fail Γ .unknownListElement span
        else
          let items ← checkItems Γ items none
          let inferred := Ty.join (items.map TypedExpr.ty)
          return .list ((wanted.find? inferred.containedIn).getD inferred) items
    | [generic] => do
      let element ← resolve Γ generic
      return .list element (← checkItems Γ items (some element))
    | _ => fail Γ (.genericCount 1 generics.length) span
  | .when ⟨subject, arms, other, span⟩, expected => do
    let subject ← checkTerm Γ subject none
    let (cases, coverage) ← checkArms Γ arms (.ofTy subject.ty) expected
    let (otherBlock, coverage) ← (
      match other with
      | none => return (none, coverage)
      | some ⟨name, body, span, origin⟩ => do
        let (rest, coverage) := coverage.takeRemaining
        let body ← armBody Γ name rest origin
          (blockOf Γ body expected span (checkStatements Γ body expected))
        return (some body, coverage))
    requireExhaustive Γ coverage span
    let cases := sortOrdered caseLe cases
    let type :=
      match expected with
      | some expected => expected
      | none => .join (cases.map (fun c => blockType c.block) ++ otherBlock.toList.map blockType)
    return .choice type subject cases otherBlock
      ((other.bind (·.name)).map (·.text))

/-- Check a lambda, against a shape when one is known. -/
def checkLambda (Γ : Context) : Lambda → Option Shape → Check TypedFunction
  | ⟨generics, params, result, body, span⟩, shape =>
    if body.isEmpty then fail Γ .emptyFunction span
    else inFrame do
      let (types, result) ← enterLambda Γ generics params result shape span
      let block ← checkStatements Γ body result
      return {
        signature := ⟨generics.map (·.text), types, result.getD (blockType block)⟩
        params := params.map (·.name.text)
        block }

/-- Check the statements of a block. Only the last one is wanted at a type. -/
def checkStatements (Γ : Context) : List Term → Option Ty → Check (List TypedExpr)
  | [], _ => pure []
  | t :: ts, expected => do
    let e ← checkTerm Γ t (if ts.isEmpty then expected else none)
    return e :: (← checkStatements Γ ts expected)

/-- Check the items of a list, all wanted at the same type. -/
def checkItems (Γ : Context) : List Term → Option Ty → Check (List TypedExpr)
  | [], _ => pure []
  | t :: ts, expected => do
    let e ← checkTerm Γ t expected
    return e :: (← checkItems Γ ts expected)

/-- Check what follows an `if`: a conditional for the next `else if`, or the `else` block. -/
def checkElse (Γ : Context) :
    List ElseIf → (hasElseBlock : Bool) → Option Ty → Span →
    (elseBlock : Span → Check (List TypedExpr)) → Check (List TypedExpr)
  | [], _, _, span, elseBlock => inFrame (elseBlock span)
  | ⟨condition, thenBlock, span⟩ :: branches, hasElseBlock, expected, _, elseBlock => do
    let e ← conditionalOf Γ (!branches.isEmpty || hasElseBlock) expected span
      (checkTerm Γ condition (some .boolean))
      (blockOf Γ thenBlock expected span (checkStatements Γ thenBlock expected))
      (checkElse Γ branches hasElseBlock expected span elseBlock)
    return [e]

/-- Check the arms of a `when`, each of which takes its members of what is left. -/
def checkArms (Γ : Context) :
    List Arm → Coverage → Option Ty → Check (List TypedCase × Coverage)
  | [], coverage, _ => pure ([], coverage)
  | ⟨name, type, body, span, origin⟩ :: arms, coverage, expected => do
    let t ← resolve Γ type
    let test ← ofAlgebra Γ type.span (Discriminator.ofTy Γ.table.matchFields t)
    let coverage ← ofExcept ((coverage.consume t).mapError fun error =>
      Γ.failure (.coverage error) type.span)
    let block ← armBody Γ name t origin
      (blockOf Γ body expected span (checkStatements Γ body expected))
    let (cases, coverage) ← checkArms Γ arms coverage expected
    return (⟨name.map (·.text), t, test, block⟩ :: cases, coverage)

end

/-- The type of a package-level declaration, from its written type or from its value. -/
def inferDeclaration (Γ : Context) (d : Declaration) : Check Ty := do
  match d.type with
  | some type => resolve Γ type
  | none =>
    match d.value with
    | ⟨.lambda lambda, [], _⟩ =>
      match ← writtenSignature Γ lambda with
      | some signature => return signature.toTy
      | none => return (← checkTerm Γ d.value none).ty
    | _ => return (← checkTerm Γ d.value none).ty

/-- Check a package-level declaration against its type. -/
def checkDeclaration (Γ : Context) (d : Declaration) (ty : Ty) : Check TypedDeclaration := do
  return ⟨d.name.text, ← checkTerm Γ d.value (some ty)⟩

/-- Run a check of a package-level declaration in a scope of its own. -/
def atTopLevel {α : Type} (check : Check α) : Except Failure α := (check.run.run .initial).1

end UnionChecker.Check
