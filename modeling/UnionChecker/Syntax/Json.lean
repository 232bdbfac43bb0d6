import UnionChecker.Json.Value
import UnionChecker.Syntax.Tree
/-!
# Syntax trees as JSON

Every field is written, those that are absent as null. Alternatives are tagged objects, and tags
without payload are bare texts.
-/

namespace UnionChecker.Syntax

def optionalJson (j : Option Json) : Json := j.getD .null

def Span.toJson (s : Span) : Json :=
  .obj [("start", .int s.start), ("end", .int s.stop), ("line", .int s.line),
    ("column", .int s.column)]

def Name.toJson (n : Name) : Json := .obj [("text", .str n.text), ("span", n.span.toJson)]

def namesToJson (names : List Name) : Json := .arr (names.map Name.toJson)

mutual

/-- A written type as JSON. -/
def TypeExpr.toJson : TypeExpr → Json
  | ⟨alternatives, span⟩ =>
    .obj [("or_types", .arr (alternativesToJson alternatives)), ("span", span.toJson)]

/-- An alternative of a written type as JSON. -/
def Alternative.toJson : Alternative → Json
  | .hole span => .obj [("Underscore", span.toJson)]
  | .named name args =>
    .obj [("SingleName", .obj [("name", name.toJson), ("generics", .arr (typeExprsToJson args))])]
  | .fn generics params result span =>
    .obj [("Function", .obj [
      ("generics", namesToJson generics),
      ("arguments", .arr (typeParamsToJson params)),
      ("return_type", result.toJson),
      ("span", span.toJson)])]

/-- Alternatives as JSON. -/
def alternativesToJson : List Alternative → List Json
  | [] => []
  | a :: as => a.toJson :: alternativesToJson as

/-- Written types as JSON. -/
def typeExprsToJson : List TypeExpr → List Json
  | [] => []
  | a :: as => a.toJson :: typeExprsToJson as

/-- A parameter of a written function type as JSON. -/
def typeParamToJson : Option Name × TypeExpr → Json
  | (name, a) => .obj [("name", optionalJson (name.map Name.toJson)), ("annotation", a.toJson)]

/-- The parameters of a written function type as JSON. -/
def typeParamsToJson : List (Option Name × TypeExpr) → List Json
  | [] => []
  | p :: ps => typeParamToJson p :: typeParamsToJson ps

end

def optionalTypeToJson (a : Option TypeExpr) : Json :=
  optionalJson (a.map TypeExpr.toJson)

def Literal.toJson : Literal → Json
  | .float x => .obj [("Float", .float x)]
  | .int n => .obj [("Int", .int n)]
  | .string s => .obj [("String", .str s)]
  | .bool b => .obj [("Bool", .bool b)]
  | .null => .str "Null"

def Origin.toJson : Origin → Json
  | .source => .str "Source"
  | .shortCircuitResidual => .str "ShortCircuitResidual"

def Member.toJson (m : Member) : Json :=
  .obj [("name", m.name.toJson), ("arrow", .bool m.arrow)]

def Parameter.toJson (p : Parameter) : Json :=
  .obj [("name", p.name.toJson), ("annotation", optionalTypeToJson p.type)]

def ShortCircuit.toJson (s : ShortCircuit) : Json :=
  .obj [("annotation", optionalTypeToJson s.residual), ("span", s.span.toJson)]

mutual

/-- A term as JSON. -/
def Term.toJson : Term → Json
  | ⟨head, chain, span⟩ =>
    .obj [("expression", head.toJson), ("chain", .arr (linksToJson chain)), ("span", span.toJson)]

/-- A link of a chain as JSON. -/
def Link.toJson : Link → Json
  | ⟨access, args, span⟩ =>
    .obj [
      ("access", optionalJson (access.map Member.toJson)),
      ("arguments", match args with
        | none => .null
        | some args => args.toJson),
      ("span", span.toJson)]

/-- Links as JSON. -/
def linksToJson : List Link → List Json
  | [] => []
  | link :: links => link.toJson :: linksToJson links

/-- The generics and arguments of a call as JSON. -/
def Arguments.toJson : Arguments → Json
  | ⟨generics, items, span⟩ =>
    .obj [
      ("generics", .arr (typeExprsToJson generics)),
      ("arguments", .arr (argumentsToJson items)),
      ("span", span.toJson)]

/-- An argument as JSON. -/
def Argument.toJson : Argument → Json
  | ⟨label, value, span⟩ =>
    .obj [
      ("name", optionalJson (label.map Name.toJson)),
      ("argument", value.toJson),
      ("span", span.toJson)]

/-- Arguments as JSON. -/
def argumentsToJson : List Argument → List Json
  | [] => []
  | item :: items => item.toJson :: argumentsToJson items

/-- The head of a term as JSON. -/
def Expr.toJson : Expr → Json
  | .literal value span =>
    .obj [("Literal", .obj [("literal", value.toJson), ("span", span.toJson)])]
  | .reference name args span =>
    .obj [("ReferenceOrInvocation", .obj [
      ("var", name.toJson),
      ("arguments", match args with
        | none => .null
        | some args => args.toJson),
      ("span", span.toJson)])]
  | .lambda l => .obj [("Lambda", l.toJson)]
  | .declaration d => .obj [("Declaration", d.toJson)]
  | .conditional c => .obj [("If", c.toJson)]
  | .list generics items span =>
    .obj [("List", .obj [
      ("generics", .arr (typeExprsToJson generics)),
      ("expressions", .arr (termsToJson items)),
      ("span", span.toJson)])]
  | .when w => .obj [("When", w.toJson)]

/-- A function literal as JSON. -/
def Lambda.toJson : Lambda → Json
  | ⟨generics, params, result, body, span⟩ =>
    .obj [
      ("generics", namesToJson generics),
      ("parameters", .arr (params.map Parameter.toJson)),
      ("return_type", optionalTypeToJson result),
      ("block", .arr (termsToJson body)),
      ("span", span.toJson)]

/-- A declaration as JSON. -/
def Declaration.toJson : Declaration → Json
  | ⟨name, type, shortCircuit, value, span⟩ =>
    .obj [
      ("name", name.toJson),
      ("annotation", optionalTypeToJson type),
      ("short_circuit", optionalJson (shortCircuit.map ShortCircuit.toJson)),
      ("value", value.toJson),
      ("span", span.toJson)]

/-- The terms of a block as JSON. -/
def termsToJson : List Term → List Json
  | [] => []
  | t :: ts => t.toJson :: termsToJson ts

/-- An `if` as JSON. -/
def Conditional.toJson : Conditional → Json
  | ⟨condition, thenBlock, elseIfs, elseBlock, span⟩ =>
    .obj [
      ("condition", condition.toJson),
      ("then_block", .arr (termsToJson thenBlock)),
      ("else_ifs", .arr (elseIfsToJson elseIfs)),
      ("else_block", .arr (termsToJson elseBlock)),
      ("span", span.toJson)]

/-- An `else if` branch as JSON. -/
def ElseIf.toJson : ElseIf → Json
  | ⟨condition, thenBlock, span⟩ =>
    .obj [
      ("condition", condition.toJson),
      ("then_block", .arr (termsToJson thenBlock)),
      ("span", span.toJson)]

/-- `else if` branches as JSON. -/
def elseIfsToJson : List ElseIf → List Json
  | [] => []
  | branch :: branches => branch.toJson :: elseIfsToJson branches

/-- A `when` as JSON. -/
def When.toJson : When → Json
  | ⟨subject, arms, other, span⟩ =>
    .obj [
      ("over", subject.toJson),
      ("is", .arr (armsToJson arms)),
      ("other", match other with
        | none => .null
        | some other => other.toJson),
      ("span", span.toJson)]

/-- An arm of a `when` as JSON. -/
def Arm.toJson : Arm → Json
  | ⟨name, type, body, span, origin⟩ =>
    .obj [
      ("name", optionalJson (name.map Name.toJson)),
      ("annotation", type.toJson),
      ("then_block", .arr (termsToJson body)),
      ("span", span.toJson),
      ("origin", origin.toJson)]

/-- The arms of a `when` as JSON. -/
def armsToJson : List Arm → List Json
  | [] => []
  | arm :: arms => arm.toJson :: armsToJson arms

/-- The last arm of a `when` as JSON. -/
def Otherwise.toJson : Otherwise → Json
  | ⟨name, body, span, origin⟩ =>
    .obj [
      ("name", optionalJson (name.map Name.toJson)),
      ("then_block", .arr (termsToJson body)),
      ("span", span.toJson),
      ("origin", origin.toJson)]

end

def Package.toJson (p : Package) : Json :=
  .obj [("path", namesToJson p.path), ("span", p.span.toJson)]

def Import.toJson (i : Import) : Json :=
  .obj [
    ("path", namesToJson i.path),
    ("alias", optionalJson (i.renamed.map Name.toJson)),
    ("span", i.span.toJson)]

def recordFieldToJson (f : Name × TypeExpr) : Json :=
  .obj [("name", f.1.toJson), ("annotation", f.2.toJson)]

def Record.toJson (r : Record) : Json :=
  .obj [
    ("name", r.name.toJson),
    ("generics", namesToJson r.generics),
    ("fields", .arr (r.fields.map recordFieldToJson)),
    ("span", r.span.toJson)]

def TypeAlias.toJson (a : TypeAlias) : Json :=
  .obj [
    ("name", a.name.toJson),
    ("generics", namesToJson a.generics),
    ("annotation", a.type.toJson),
    ("span", a.span.toJson)]

def TopLevel.toJson : TopLevel → Json
  | .declaration d => .obj [("Declaration", d.toJson)]
  | .struct r => .obj [("Struct", r.toJson)]
  | .interface r => .obj [("Interface", r.toJson)]
  | .typeAlias a => .obj [("TypeAlias", a.toJson)]

/-- The tree of a file as JSON. -/
def File.toJson (f : File) : Json :=
  .obj [
    ("package", f.package.toJson),
    ("imports", .arr (f.imports.map Import.toJson)),
    ("declarations", .arr (f.declarations.map TopLevel.toJson))]

end UnionChecker.Syntax
