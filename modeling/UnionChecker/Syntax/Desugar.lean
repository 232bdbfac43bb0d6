import UnionChecker.Failure
import UnionChecker.Syntax.Tree
/-!
# Removing sugar

Two forms are expanded before anything is checked.

* A declaration with a short circuit, `x: T ? R = value`, becomes a `when` over the value. The arm
  of the success type holds the rest of the block; the arm of the residual type yields the value
  itself and so leaves the block. When only one of the two types is given, the other arm is `other`.
* An arrow call `a->f(b)` becomes `f(a, b)`.

A block is expanded from its last statement to its first, so that the rest of the block is ready
when a short circuit takes it in. Of several faults in a block the last one is therefore reported.
The statements are collected as they come, the last one first, and put in order at the end.
-/

namespace UnionChecker.Syntax

/-- The name given to a short circuit that is called `_`, so that its residual can be referred
to. -/
def unusedBinding : String := "_unused_"

/-- A reference to a name. -/
def Term.ofName (name : Name) : Term := .ofExpr (.reference name none name.span)

/-- The `when` that a declaration with a short circuit stands for, given the rest of its block. -/
def shortCircuitTerm (file : String) (name : Name) (success residual : Option TypeExpr)
    (value : Term) (rest : List Term) (span : Span) : Except Failure Term :=
  let name := if name.text == "_" then { name with text := unusedBinding } else name
  let exit := [Term.ofName name]
  let choice (arms : List Arm) (other : Option Otherwise) : Term :=
    ⟨.when ⟨value, arms, other, span⟩, [], span⟩
  match success, residual with
  | none, none => .error (.of .shortCircuitUnannotated file span)
  | some success, some residual =>
    .ok (choice
      [⟨some name, residual, exit, span, .shortCircuitResidual⟩,
        ⟨some name, success, rest, span, .source⟩]
      none)
  | none, some residual =>
    .ok (choice [⟨some name, residual, exit, span, .shortCircuitResidual⟩]
      (some ⟨some name, rest, span, .source⟩))
  | some success, none =>
    .ok (choice [⟨some name, success, rest, span, .source⟩]
      (some ⟨some name, exit, span, .shortCircuitResidual⟩))

/-- Collect a statement, already expanded, after the later ones of its block, which stand in reverse
order. A short circuit takes them all in. -/
def collectStatement (file : String) (later : List Term) (statement : Term) :
    Except Failure (List Term) :=
  match statement.head with
  | .declaration ⟨name, type, some shortCircuit, value, span⟩ =>
    (shortCircuitTerm file name type shortCircuit.residual value later.reverse span).map ([·])
  | _ => .ok (later ++ [statement])

/-- Add a link, already expanded, to the term built so far. An arrow turns the term into the first
argument of a call; `start` is where the whole term stands. -/
def applyLink (file : String) (start : Span) (current : Term) (link : Link) :
    Except Failure Term :=
  match link.access with
  | some ⟨name, true⟩ =>
    match link.args with
    | none => .error (.of .arrowWithoutArguments file link.span)
    | some args =>
      let receiver : Argument := ⟨none, current, current.span⟩
      .ok (.ofExpr (.reference name (some { args with items := receiver :: args.items })
        (start.merge link.span)))
  | _ => .ok { current with chain := current.chain ++ [link] }

mutual

/-- Expand a term: its head, then its links from left to right. -/
def desugarTerm (file : String) : Term → Except Failure Term
  | ⟨head, chain, span⟩ => do
    let head ← desugarExpr file head
    desugarLinks file span chain ⟨head, [], span⟩

/-- Expand the links of a chain and add them to the term built so far. -/
def desugarLinks (file : String) (start : Span) : List Link → Term → Except Failure Term
  | [], current => .ok current
  | ⟨access, args, span⟩ :: links, current => do
    let args ← (
      match args with
      | none => .ok none
      | some args => (desugarArguments file args).map some)
    let current ← applyLink file start current ⟨access, args, span⟩
    desugarLinks file start links current

/-- Expand the arguments of a call. -/
def desugarArguments (file : String) : Arguments → Except Failure Arguments
  | ⟨generics, items, span⟩ => do
    let items ← desugarItems file items
    return ⟨generics, items, span⟩

/-- Expand arguments from left to right. -/
def desugarItems (file : String) : List Argument → Except Failure (List Argument)
  | [] => .ok []
  | ⟨label, value, span⟩ :: items => do
    let value ← desugarTerm file value
    let items ← desugarItems file items
    return ⟨label, value, span⟩ :: items

/-- Expand the head of a term. -/
def desugarExpr (file : String) : Expr → Except Failure Expr
  | .literal value span => .ok (.literal value span)
  | .reference name args span => do
    let args ← (
      match args with
      | none => .ok none
      | some args => (desugarArguments file args).map some)
    return .reference name args span
  | .lambda ⟨generics, params, result, body, span⟩ => do
    let body ← (desugarBackwards file body).map List.reverse
    return .lambda ⟨generics, params, result, body, span⟩
  | .declaration d => (desugarDeclaration file d).map .declaration
  | .conditional ⟨condition, thenBlock, elseIfs, elseBlock, span⟩ => do
    let elseIfs ← desugarElseIfs file elseIfs
    let condition ← desugarTerm file condition
    let thenBlock ← (desugarBackwards file thenBlock).map List.reverse
    let elseBlock ← (desugarBackwards file elseBlock).map List.reverse
    return .conditional ⟨condition, thenBlock, elseIfs, elseBlock, span⟩
  | .list generics items span => do
    let items ← desugarTerms file items
    return .list generics items span
  | .when ⟨subject, arms, other, span⟩ => do
    let arms ← desugarArms file arms
    let other ← (
      match other with
      | none => .ok none
      | some ⟨name, body, span, origin⟩ => do
        let body ← (desugarBackwards file body).map List.reverse
        return some ⟨name, body, span, origin⟩)
    let subject ← desugarTerm file subject
    return .when ⟨subject, arms, other, span⟩

/-- Expand the value of a declaration. Its short circuit stays for the block around it. -/
def desugarDeclaration (file : String) : Declaration → Except Failure Declaration
  | ⟨name, type, shortCircuit, value, span⟩ => do
    let value ← desugarTerm file value
    return ⟨name, type, shortCircuit, value, span⟩

/-- Expand the statements of a block from the last one to the first, and collect them. -/
def desugarBackwards (file : String) : List Term → Except Failure (List Term)
  | [] => .ok []
  | statement :: rest => do
    let later ← desugarBackwards file rest
    let statement ← desugarTerm file statement
    collectStatement file later statement

/-- Expand terms that are no block, from left to right. -/
def desugarTerms (file : String) : List Term → Except Failure (List Term)
  | [] => .ok []
  | t :: ts => do
    let t ← desugarTerm file t
    let ts ← desugarTerms file ts
    return t :: ts

/-- Expand `else if` branches. -/
def desugarElseIfs (file : String) : List ElseIf → Except Failure (List ElseIf)
  | [] => .ok []
  | ⟨condition, thenBlock, span⟩ :: branches => do
    let condition ← desugarTerm file condition
    let thenBlock ← (desugarBackwards file thenBlock).map List.reverse
    let branches ← desugarElseIfs file branches
    return ⟨condition, thenBlock, span⟩ :: branches

/-- Expand the arms of a `when`. -/
def desugarArms (file : String) : List Arm → Except Failure (List Arm)
  | [] => .ok []
  | ⟨name, type, body, span, origin⟩ :: arms => do
    let body ← (desugarBackwards file body).map List.reverse
    let arms ← desugarArms file arms
    return ⟨name, type, body, span, origin⟩ :: arms

end

/-- Expand a block. -/
def desugarBlock (file : String) (block : List Term) : Except Failure (List Term) :=
  (desugarBackwards file block).map List.reverse

/-- Expand a declaration at package level, where there is no block to leave. -/
def desugarTopDeclaration (file : String) (d : Declaration) : Except Failure Declaration :=
  match d.shortCircuit with
  | some shortCircuit =>
    .error (.of .shortCircuitAtTopLevel file (shortCircuit.span.merge d.name.span))
  | none => desugarDeclaration file d

/-- Expand a declaration of a file. -/
def desugarTopLevel (file : String) : TopLevel → Except Failure TopLevel
  | .declaration d => (desugarTopDeclaration file d).map .declaration
  | other => .ok other

/-- Expand the declarations of a file. -/
def desugarFile (file : String) (tree : File) : Except Failure File := do
  let declarations ← tree.declarations.mapM (desugarTopLevel file)
  return { tree with declarations }

end UnionChecker.Syntax
