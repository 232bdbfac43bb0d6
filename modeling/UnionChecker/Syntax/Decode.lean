import UnionChecker.Json.Fields
import UnionChecker.Syntax.Tree
/-!
# Reading syntax trees from JSON

A node is a record with required and optional fields. A missing optional field has its default: an
empty list, no value, or the zero span. Values that may be absent may also be null; nothing else
may. The readers of nodes that can nest take a bound on the depth of the text, and a text is never
deeper than its own depth.
-/

namespace UnionChecker.Syntax

open Json (Fields required fieldOr optionalField listOf listField bare)

def Span.ofJson? (j : Json) : Option Span :=
  Fields.of Span.mk
    |>.field "start" (required (Json.nat? limit64))
    |>.field "end" (required (Json.nat? limit64))
    |>.field "line" (required (Json.nat? limit32))
    |>.field "column" (required (Json.nat? limit32))
    |>.ofJson? j

def spanField : Option Json → Option Span := fieldOr .zero Span.ofJson?

def Name.ofJson? (j : Json) : Option Name :=
  Fields.of Name.mk
    |>.field "text" (required Json.str?)
    |>.field "span" spanField
    |>.ofJson? j

/-! ## Written types -/

/-- Read a parameter of a written function type, given how its type is read. -/
def typeParam? (read : Json → Option TypeExpr) (j : Json) : Option (Option Name × TypeExpr) :=
  Fields.of Prod.mk
    |>.field "name" (optionalField Name.ofJson?)
    |>.field "annotation" (required read)
    |>.ofJson? j

mutual

/-- Read a type. -/
def TypeExpr.ofJsonWithin : (depth : Nat) → Json → Option TypeExpr
  | 0, _ => none
  | depth + 1, j =>
    Fields.of TypeExpr.mk
      |>.field "or_types" (required (listOf (Alternative.ofJsonWithin depth)))
      |>.field "span" spanField
      |>.ofJson? j

/-- Read an alternative of a type. -/
def Alternative.ofJsonWithin : (depth : Nat) → Json → Option Alternative
  | 0, _ => none
  | depth + 1, j =>
    j.variant? [
      ("Underscore", required fun payload => (Span.ofJson? payload).map .hole),
      ("SingleName", required (
        Fields.of Alternative.named
          |>.field "name" (required Name.ofJson?)
          |>.field "generics" (listField (TypeExpr.ofJsonWithin depth))
          |>.ofJson?)),
      ("Function", required (
        Fields.of Alternative.fn
          |>.field "generics" (listField Name.ofJson?)
          |>.field "arguments" (required (listOf (typeParam? (TypeExpr.ofJsonWithin depth))))
          |>.field "return_type" (required (TypeExpr.ofJsonWithin depth))
          |>.field "span" spanField
          |>.ofJson?))]

end

def TypeExpr.ofJson? (j : Json) : Option TypeExpr := TypeExpr.ofJsonWithin j.depth j

/-! ## Leaves of expressions -/

def Literal.ofJson? (j : Json) : Option Literal :=
  j.variant? [
    ("Float", required fun payload => payload.binary64?.map .float),
    ("Int", required fun payload => payload.int64?.map .int),
    ("String", required fun payload => payload.str?.map .string),
    ("Bool", required fun payload => payload.bool?.map .bool),
    ("Null", bare .null)]

def Origin.ofJson? (j : Json) : Option Origin :=
  j.variant? [
    ("Source", bare .source),
    ("ShortCircuitResidual", bare .shortCircuitResidual)]

def originField : Option Json → Option Origin := fieldOr .source Origin.ofJson?

def Member.ofJson? (j : Json) : Option Member :=
  Fields.of Member.mk
    |>.field "name" (required Name.ofJson?)
    |>.field "arrow" (fieldOr false Json.bool?)
    |>.ofJson? j

def Parameter.ofJson? (j : Json) : Option Parameter :=
  Fields.of Parameter.mk
    |>.field "name" (required Name.ofJson?)
    |>.field "annotation" (optionalField TypeExpr.ofJson?)
    |>.ofJson? j

def ShortCircuit.ofJson? (j : Json) : Option ShortCircuit :=
  Fields.of ShortCircuit.mk
    |>.field "annotation" (optionalField TypeExpr.ofJson?)
    |>.field "span" spanField
    |>.ofJson? j

/-! ## Terms -/

mutual

/-- Read a term. -/
def Term.ofJsonWithin : (depth : Nat) → Json → Option Term
  | 0, _ => none
  | depth + 1, j =>
    Fields.of Term.mk
      |>.field "expression" (required (Expr.ofJsonWithin depth))
      |>.field "chain" (listField (Link.ofJsonWithin depth))
      |>.field "span" spanField
      |>.ofJson? j

/-- Read a link of a chain. -/
def Link.ofJsonWithin : (depth : Nat) → Json → Option Link
  | 0, _ => none
  | depth + 1, j =>
    Fields.of Link.mk
      |>.field "access" (optionalField Member.ofJson?)
      |>.field "arguments" (optionalField (Arguments.ofJsonWithin depth))
      |>.field "span" spanField
      |>.ofJson? j

/-- Read the generics and arguments of a call. -/
def Arguments.ofJsonWithin : (depth : Nat) → Json → Option Arguments
  | 0, _ => none
  | depth + 1, j =>
    Fields.of Arguments.mk
      |>.field "generics" (listField TypeExpr.ofJson?)
      |>.field "arguments" (required (listOf (Argument.ofJsonWithin depth)))
      |>.field "span" spanField
      |>.ofJson? j

/-- Read an argument. -/
def Argument.ofJsonWithin : (depth : Nat) → Json → Option Argument
  | 0, _ => none
  | depth + 1, j =>
    Fields.of Argument.mk
      |>.field "name" (optionalField Name.ofJson?)
      |>.field "argument" (required (Term.ofJsonWithin depth))
      |>.field "span" spanField
      |>.ofJson? j

/-- Read the head of a term. -/
def Expr.ofJsonWithin : (depth : Nat) → Json → Option Expr
  | 0, _ => none
  | depth + 1, j =>
    j.variant? [
      ("Literal", required (
        Fields.of Expr.literal
          |>.field "literal" (required Literal.ofJson?)
          |>.field "span" spanField
          |>.ofJson?)),
      ("ReferenceOrInvocation", required (
        Fields.of Expr.reference
          |>.field "var" (required Name.ofJson?)
          |>.field "arguments" (optionalField (Arguments.ofJsonWithin depth))
          |>.field "span" spanField
          |>.ofJson?)),
      ("Lambda", required fun payload => (Lambda.ofJsonWithin depth payload).map .lambda),
      ("Declaration", required fun payload =>
        (Declaration.ofJsonWithin depth payload).map .declaration),
      ("If", required fun payload =>
        (Conditional.ofJsonWithin depth payload).map .conditional),
      ("List", required (
        Fields.of Expr.list
          |>.field "generics" (listField TypeExpr.ofJson?)
          |>.field "expressions" (required (listOf (Term.ofJsonWithin depth)))
          |>.field "span" spanField
          |>.ofJson?)),
      ("When", required fun payload => (When.ofJsonWithin depth payload).map .when)]

/-- Read a function literal. -/
def Lambda.ofJsonWithin : (depth : Nat) → Json → Option Lambda
  | 0, _ => none
  | depth + 1, j =>
    Fields.of Lambda.mk
      |>.field "generics" (listField Name.ofJson?)
      |>.field "parameters" (required (listOf Parameter.ofJson?))
      |>.field "return_type" (optionalField TypeExpr.ofJson?)
      |>.field "block" (required (listOf (Term.ofJsonWithin depth)))
      |>.field "span" spanField
      |>.ofJson? j

/-- Read a declaration. -/
def Declaration.ofJsonWithin : (depth : Nat) → Json → Option Declaration
  | 0, _ => none
  | depth + 1, j =>
    Fields.of Declaration.mk
      |>.field "name" (required Name.ofJson?)
      |>.field "annotation" (optionalField TypeExpr.ofJson?)
      |>.field "short_circuit" (optionalField ShortCircuit.ofJson?)
      |>.field "value" (required (Term.ofJsonWithin depth))
      |>.field "span" spanField
      |>.ofJson? j

/-- Read an `if`. -/
def Conditional.ofJsonWithin : (depth : Nat) → Json → Option Conditional
  | 0, _ => none
  | depth + 1, j =>
    Fields.of Conditional.mk
      |>.field "condition" (required (Term.ofJsonWithin depth))
      |>.field "then_block" (required (listOf (Term.ofJsonWithin depth)))
      |>.field "else_ifs" (listField (ElseIf.ofJsonWithin depth))
      |>.field "else_block" (listField (Term.ofJsonWithin depth))
      |>.field "span" spanField
      |>.ofJson? j

/-- Read an `else if` branch. -/
def ElseIf.ofJsonWithin : (depth : Nat) → Json → Option ElseIf
  | 0, _ => none
  | depth + 1, j =>
    Fields.of ElseIf.mk
      |>.field "condition" (required (Term.ofJsonWithin depth))
      |>.field "then_block" (required (listOf (Term.ofJsonWithin depth)))
      |>.field "span" spanField
      |>.ofJson? j

/-- Read a `when`. -/
def When.ofJsonWithin : (depth : Nat) → Json → Option When
  | 0, _ => none
  | depth + 1, j =>
    Fields.of When.mk
      |>.field "over" (required (Term.ofJsonWithin depth))
      |>.field "is" (listField (Arm.ofJsonWithin depth))
      |>.field "other" (optionalField (Otherwise.ofJsonWithin depth))
      |>.field "span" spanField
      |>.ofJson? j

/-- Read an arm of a `when`. -/
def Arm.ofJsonWithin : (depth : Nat) → Json → Option Arm
  | 0, _ => none
  | depth + 1, j =>
    Fields.of Arm.mk
      |>.field "name" (optionalField Name.ofJson?)
      |>.field "annotation" (required TypeExpr.ofJson?)
      |>.field "then_block" (required (listOf (Term.ofJsonWithin depth)))
      |>.field "span" spanField
      |>.field "origin" originField
      |>.ofJson? j

/-- Read the last arm of a `when`. -/
def Otherwise.ofJsonWithin : (depth : Nat) → Json → Option Otherwise
  | 0, _ => none
  | depth + 1, j =>
    Fields.of Otherwise.mk
      |>.field "name" (optionalField Name.ofJson?)
      |>.field "then_block" (required (listOf (Term.ofJsonWithin depth)))
      |>.field "span" spanField
      |>.field "origin" originField
      |>.ofJson? j

end

def Term.ofJson? (j : Json) : Option Term := Term.ofJsonWithin j.depth j

def Declaration.ofJson? (j : Json) : Option Declaration := Declaration.ofJsonWithin j.depth j

/-! ## Files -/

def Package.ofJson? (j : Json) : Option Package :=
  Fields.of Package.mk
    |>.field "path" (required (listOf Name.ofJson?))
    |>.field "span" spanField
    |>.ofJson? j

def Import.ofJson? (j : Json) : Option Import :=
  Fields.of Import.mk
    |>.field "path" (required (listOf Name.ofJson?))
    |>.field "alias" (optionalField Name.ofJson?)
    |>.field "span" spanField
    |>.ofJson? j

/-- Read a field of a struct or an interface. -/
def recordField? (j : Json) : Option (Name × TypeExpr) :=
  Fields.of Prod.mk
    |>.field "name" (required Name.ofJson?)
    |>.field "annotation" (required TypeExpr.ofJson?)
    |>.ofJson? j

def Record.ofJson? (j : Json) : Option Record :=
  Fields.of Record.mk
    |>.field "name" (required Name.ofJson?)
    |>.field "generics" (listField Name.ofJson?)
    |>.field "fields" (listField recordField?)
    |>.field "span" spanField
    |>.ofJson? j

def TypeAlias.ofJson? (j : Json) : Option TypeAlias :=
  Fields.of TypeAlias.mk
    |>.field "name" (required Name.ofJson?)
    |>.field "generics" (listField Name.ofJson?)
    |>.field "annotation" (required TypeExpr.ofJson?)
    |>.field "span" spanField
    |>.ofJson? j

def TopLevel.ofJson? (j : Json) : Option TopLevel :=
  j.variant? [
    ("Declaration", required fun payload => (Declaration.ofJson? payload).map .declaration),
    ("Struct", required fun payload => (Record.ofJson? payload).map .struct),
    ("Interface", required fun payload => (Record.ofJson? payload).map .interface),
    ("TypeAlias", required fun payload => (TypeAlias.ofJson? payload).map .typeAlias)]

/-- Read the tree of a file. -/
def File.ofJson? (j : Json) : Option File :=
  Fields.of File.mk
    |>.field "package" (required Package.ofJson?)
    |>.field "imports" (listField Import.ofJson?)
    |>.field "declarations" (listField TopLevel.ofJson?)
    |>.ofJson? j

end UnionChecker.Syntax
