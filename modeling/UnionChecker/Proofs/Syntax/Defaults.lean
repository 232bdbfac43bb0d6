import UnionChecker.Proofs.Json.Readers
import UnionChecker.Syntax.Decode
import UnionChecker.Syntax.Json
/-!
# Defaults of syntax trees

The layout of the JSON form of syntax trees: which fields each kind of node has, and what stands for
those that are missing. Reading a file gives the same tree after filling in the defaults.
-/

namespace UnionChecker.Syntax

open Json (Keeps Shape Slot Layout Fields)

/-! ## The layout -/

/-- The kinds of nodes. Spans, literals and origins have no optional fields. -/
inductive Kind where
  | name
  | typeExpr | alternative | namedType | functionType | typeParam
  | term | link | member | arguments | argument
  | expr | literal | reference | lambda | parameter | list
  | declaration | shortCircuit
  | conditional | elseIf
  | when | arm | otherwise
  | package | import | record | field | typeAlias | topLevel | file

/-- A span that may be missing. -/
def spanSlot : Slot Kind := .value "span" Span.zero.toJson

/-- An origin that may be missing. -/
def originSlot : Slot Kind := .value "origin" Origin.source.toJson

/-- How each kind of node is written. -/
def layout : Kind → Layout Kind
  | .name => .record [.required "text" .plain, spanSlot]
  | .typeExpr => .record [.list "or_types" .alternative, spanSlot]
  | .alternative => .choice [
      ("Underscore", .plain), ("SingleName", .node .namedType), ("Function", .node .functionType)]
  | .namedType => .record [.one "name" .name, .many "generics" .typeExpr]
  | .functionType => .record [
      .many "generics" .name, .list "arguments" .typeParam, .one "return_type" .typeExpr, spanSlot]
  | .typeParam => .record [.maybe "name" .name, .one "annotation" .typeExpr]
  | .term => .record [.one "expression" .expr, .many "chain" .link, spanSlot]
  | .link => .record [.maybe "access" .member, .maybe "arguments" .arguments, spanSlot]
  | .member => .record [.one "name" .name, .value "arrow" (.bool false)]
  | .arguments => .record [.many "generics" .typeExpr, .list "arguments" .argument, spanSlot]
  | .argument => .record [.maybe "name" .name, .one "argument" .term, spanSlot]
  | .expr => .choice [
      ("Literal", .node .literal), ("ReferenceOrInvocation", .node .reference),
      ("Lambda", .node .lambda), ("Declaration", .node .declaration), ("If", .node .conditional),
      ("List", .node .list), ("When", .node .when)]
  | .literal => .record [.required "literal" .plain, spanSlot]
  | .reference => .record [.one "var" .name, .maybe "arguments" .arguments, spanSlot]
  | .lambda => .record [
      .many "generics" .name, .list "parameters" .parameter, .maybe "return_type" .typeExpr,
      .list "block" .term, spanSlot]
  | .parameter => .record [.one "name" .name, .maybe "annotation" .typeExpr]
  | .list => .record [.many "generics" .typeExpr, .list "expressions" .term, spanSlot]
  | .declaration => .record [
      .one "name" .name, .maybe "annotation" .typeExpr, .maybe "short_circuit" .shortCircuit,
      .one "value" .term, spanSlot]
  | .shortCircuit => .record [.maybe "annotation" .typeExpr, spanSlot]
  | .conditional => .record [
      .one "condition" .term, .list "then_block" .term, .many "else_ifs" .elseIf,
      .many "else_block" .term, spanSlot]
  | .elseIf => .record [.one "condition" .term, .list "then_block" .term, spanSlot]
  | .when => .record [.one "over" .term, .many "is" .arm, .maybe "other" .otherwise, spanSlot]
  | .arm => .record [
      .maybe "name" .name, .one "annotation" .typeExpr, .list "then_block" .term, spanSlot,
      originSlot]
  | .otherwise => .record [.maybe "name" .name, .list "then_block" .term, spanSlot, originSlot]
  | .package => .record [.list "path" .name, spanSlot]
  | .import => .record [.list "path" .name, .maybe "alias" .name, spanSlot]
  | .record => .record [.one "name" .name, .many "generics" .name, .many "fields" .field, spanSlot]
  | .field => .record [.one "name" .name, .one "annotation" .typeExpr]
  | .typeAlias => .record [
      .one "name" .name, .many "generics" .name, .one "annotation" .typeExpr, spanSlot]
  | .topLevel => .choice [
      ("Declaration", .node .declaration), ("Struct", .node .record), ("Interface", .node .record),
      ("TypeAlias", .node .typeAlias)]
  | .file => .record [
      .one "package" .package, .many "imports" .import, .many "declarations" .topLevel]

/-! ## Names and written types -/

theorem keeps_span (n : Nat) : spanSlot.Keeps layout n spanField spanField := .value n rfl

theorem keeps_origin (n : Nat) : originSlot.Keeps layout n originField originField := .value n rfl

theorem keeps_name (n : Nat) : Keeps layout (.node .name) n Name.ofJson? Name.ofJson? :=
  .record_flat rfl (Fields.Keeps.of n Name.mk
    |>.field (.required (.plain n Json.str?))
    |>.field (keeps_span n))

theorem keeps_typeParam {n : Nat} {read read' : Json → Option TypeExpr}
    (h : Keeps layout (.node .typeExpr) n read read') :
    Keeps layout (.node .typeParam) n (typeParam? read) (typeParam? read') :=
  .record_flat rfl (Fields.Keeps.of n Prod.mk
    |>.field (.optional (keeps_name n))
    |>.field (.required h))

/-- Types, for a bound on the depth and whatever bound is needed after filling. -/
structure KeepsTypes (d : Nat) : Prop where
  typeExpr : ∀ n, Keeps layout (.node .typeExpr) n (TypeExpr.ofJsonWithin d)
    (TypeExpr.ofJsonWithin n)
  alternative : ∀ n, Keeps layout (.node .alternative) n (Alternative.ofJsonWithin d)
    (Alternative.ofJsonWithin n)

theorem keepsTypes : ∀ d, KeepsTypes d
  | 0 => ⟨fun _ => .none, fun _ => .none⟩
  | d + 1 => by
    have ih := keepsTypes d
    constructor
    · exact .of_succ fun n => .record rfl (Fields.Keeps.of n TypeExpr.mk
        |>.field (.required (ih.alternative n).listOf)
        |>.field (keeps_span n))
    · exact .of_succ fun n => .choice rfl <|
        .cons (Keeps.plain n _).payload <|
        .cons (Keeps.record_flat rfl (Fields.Keeps.of n Alternative.named
          |>.field (.required (keeps_name n))
          |>.field (.many (ih.typeExpr n)))).payload <|
        .cons (Keeps.record_flat rfl (Fields.Keeps.of n Alternative.fn
          |>.field (.many (keeps_name n))
          |>.field (.required (keeps_typeParam (ih.typeExpr n)).listOf)
          |>.field (.required (ih.typeExpr n))
          |>.field (keeps_span n))).payload .nil

theorem keeps_typeExpr (n : Nat) :
    Keeps layout (.node .typeExpr) n TypeExpr.ofJson? TypeExpr.ofJson? := fun j t hread _ =>
  (keepsTypes j.depth).typeExpr _ j t hread (Nat.le_refl _)

/-! ## Terms -/

theorem keeps_member (n : Nat) : Keeps layout (.node .member) n Member.ofJson? Member.ofJson? :=
  .record_flat rfl (Fields.Keeps.of n Member.mk
    |>.field (.required (keeps_name n))
    |>.field (.value n rfl))

theorem keeps_parameter (n : Nat) :
    Keeps layout (.node .parameter) n Parameter.ofJson? Parameter.ofJson? :=
  .record_flat rfl (Fields.Keeps.of n Parameter.mk
    |>.field (.required (keeps_name n))
    |>.field (.optional (keeps_typeExpr n)))

theorem keeps_shortCircuit (n : Nat) :
    Keeps layout (.node .shortCircuit) n ShortCircuit.ofJson? ShortCircuit.ofJson? :=
  .record_flat rfl (Fields.Keeps.of n ShortCircuit.mk
    |>.field (.optional (keeps_typeExpr n))
    |>.field (keeps_span n))

/-- Terms and what they are made of, for a bound on the depth and whatever bound is needed after
filling. -/
structure KeepsTerms (d : Nat) : Prop where
  term : ∀ n, Keeps layout (.node .term) n (Term.ofJsonWithin d) (Term.ofJsonWithin n)
  link : ∀ n, Keeps layout (.node .link) n (Link.ofJsonWithin d) (Link.ofJsonWithin n)
  arguments : ∀ n, Keeps layout (.node .arguments) n (Arguments.ofJsonWithin d)
    (Arguments.ofJsonWithin n)
  argument : ∀ n, Keeps layout (.node .argument) n (Argument.ofJsonWithin d)
    (Argument.ofJsonWithin n)
  expr : ∀ n, Keeps layout (.node .expr) n (Expr.ofJsonWithin d) (Expr.ofJsonWithin n)
  lambda : ∀ n, Keeps layout (.node .lambda) n (Lambda.ofJsonWithin d) (Lambda.ofJsonWithin n)
  declaration : ∀ n, Keeps layout (.node .declaration) n (Declaration.ofJsonWithin d)
    (Declaration.ofJsonWithin n)
  conditional : ∀ n, Keeps layout (.node .conditional) n (Conditional.ofJsonWithin d)
    (Conditional.ofJsonWithin n)
  elseIf : ∀ n, Keeps layout (.node .elseIf) n (ElseIf.ofJsonWithin d) (ElseIf.ofJsonWithin n)
  when : ∀ n, Keeps layout (.node .when) n (When.ofJsonWithin d) (When.ofJsonWithin n)
  arm : ∀ n, Keeps layout (.node .arm) n (Arm.ofJsonWithin d) (Arm.ofJsonWithin n)
  otherwise : ∀ n, Keeps layout (.node .otherwise) n (Otherwise.ofJsonWithin d)
    (Otherwise.ofJsonWithin n)

theorem keepsTerms : ∀ d, KeepsTerms d
  | 0 => by constructor <;> exact fun _ => .none
  | d + 1 => by
    have ih := keepsTerms d
    constructor
    case term => exact .of_succ fun n => .record rfl (Fields.Keeps.of n Term.mk
      |>.field (.required (ih.expr n))
      |>.field (.many (ih.link n))
      |>.field (keeps_span n))
    case link => exact .of_succ fun n => .record rfl (Fields.Keeps.of n Link.mk
      |>.field (.optional (keeps_member n))
      |>.field (.optional (ih.arguments n))
      |>.field (keeps_span n))
    case arguments => exact .of_succ fun n => .record rfl (Fields.Keeps.of n Arguments.mk
      |>.field (.many (keeps_typeExpr n))
      |>.field (.required (ih.argument n).listOf)
      |>.field (keeps_span n))
    case argument => exact .of_succ fun n => .record rfl (Fields.Keeps.of n Argument.mk
      |>.field (.optional (keeps_name n))
      |>.field (.required (ih.term n))
      |>.field (keeps_span n))
    case expr =>
      exact .of_succ fun n => .choice rfl <|
        .cons (Keeps.record_flat rfl (Fields.Keeps.of n Expr.literal
          |>.field (.required (.plain n Literal.ofJson?))
          |>.field (keeps_span n))).payload <|
        .cons (Keeps.record_flat rfl (Fields.Keeps.of n Expr.reference
          |>.field (.required (keeps_name n))
          |>.field (.optional (ih.arguments n))
          |>.field (keeps_span n))).payload <|
        .cons ((ih.lambda n).map Expr.lambda).payload <|
        .cons ((ih.declaration n).map Expr.declaration).payload <|
        .cons ((ih.conditional n).map Expr.conditional).payload <|
        .cons (Keeps.record_flat rfl (Fields.Keeps.of n Expr.list
          |>.field (.many (keeps_typeExpr n))
          |>.field (.required (ih.term n).listOf)
          |>.field (keeps_span n))).payload <|
        .cons ((ih.when n).map Expr.when).payload .nil
    case lambda => exact .of_succ fun n => .record rfl (Fields.Keeps.of n Lambda.mk
      |>.field (.many (keeps_name n))
      |>.field (.required (keeps_parameter n).listOf)
      |>.field (.optional (keeps_typeExpr n))
      |>.field (.required (ih.term n).listOf)
      |>.field (keeps_span n))
    case declaration => exact .of_succ fun n => .record rfl (Fields.Keeps.of n Declaration.mk
      |>.field (.required (keeps_name n))
      |>.field (.optional (keeps_typeExpr n))
      |>.field (.optional (keeps_shortCircuit n))
      |>.field (.required (ih.term n))
      |>.field (keeps_span n))
    case conditional => exact .of_succ fun n => .record rfl (Fields.Keeps.of n Conditional.mk
      |>.field (.required (ih.term n))
      |>.field (.required (ih.term n).listOf)
      |>.field (.many (ih.elseIf n))
      |>.field (.many (ih.term n))
      |>.field (keeps_span n))
    case elseIf => exact .of_succ fun n => .record rfl (Fields.Keeps.of n ElseIf.mk
      |>.field (.required (ih.term n))
      |>.field (.required (ih.term n).listOf)
      |>.field (keeps_span n))
    case when => exact .of_succ fun n => .record rfl (Fields.Keeps.of n When.mk
      |>.field (.required (ih.term n))
      |>.field (.many (ih.arm n))
      |>.field (.optional (ih.otherwise n))
      |>.field (keeps_span n))
    case arm => exact .of_succ fun n => .record rfl (Fields.Keeps.of n Arm.mk
      |>.field (.optional (keeps_name n))
      |>.field (.required (keeps_typeExpr n))
      |>.field (.required (ih.term n).listOf)
      |>.field (keeps_span n)
      |>.field (keeps_origin n))
    case otherwise => exact .of_succ fun n => .record rfl (Fields.Keeps.of n Otherwise.mk
      |>.field (.optional (keeps_name n))
      |>.field (.required (ih.term n).listOf)
      |>.field (keeps_span n)
      |>.field (keeps_origin n))

theorem keeps_declaration (n : Nat) :
    Keeps layout (.node .declaration) n Declaration.ofJson? Declaration.ofJson? :=
  fun j d hread _ => (keepsTerms j.depth).declaration _ j d hread (Nat.le_refl _)

/-! ## Files -/

theorem keeps_package (n : Nat) : Keeps layout (.node .package) n Package.ofJson? Package.ofJson? :=
  .record_flat rfl (Fields.Keeps.of n Package.mk
    |>.field (.required (keeps_name n).listOf)
    |>.field (keeps_span n))

theorem keeps_import (n : Nat) : Keeps layout (.node .import) n Import.ofJson? Import.ofJson? :=
  .record_flat rfl (Fields.Keeps.of n Import.mk
    |>.field (.required (keeps_name n).listOf)
    |>.field (.optional (keeps_name n))
    |>.field (keeps_span n))

theorem keeps_field (n : Nat) : Keeps layout (.node .field) n recordField? recordField? :=
  .record_flat rfl (Fields.Keeps.of n Prod.mk
    |>.field (.required (keeps_name n))
    |>.field (.required (keeps_typeExpr n)))

theorem keeps_record (n : Nat) : Keeps layout (.node .record) n Record.ofJson? Record.ofJson? :=
  .record_flat rfl (Fields.Keeps.of n Record.mk
    |>.field (.required (keeps_name n))
    |>.field (.many (keeps_name n))
    |>.field (.many (keeps_field n))
    |>.field (keeps_span n))

theorem keeps_typeAlias (n : Nat) :
    Keeps layout (.node .typeAlias) n TypeAlias.ofJson? TypeAlias.ofJson? :=
  .record_flat rfl (Fields.Keeps.of n TypeAlias.mk
    |>.field (.required (keeps_name n))
    |>.field (.many (keeps_name n))
    |>.field (.required (keeps_typeExpr n))
    |>.field (keeps_span n))

theorem keeps_topLevel (n : Nat) :
    Keeps layout (.node .topLevel) n TopLevel.ofJson? TopLevel.ofJson? :=
  (Keeps.choice rfl <|
    .cons ((keeps_declaration n).map TopLevel.declaration).payload <|
    .cons ((keeps_record n).map TopLevel.struct).payload <|
    .cons ((keeps_record n).map TopLevel.interface).payload <|
    .cons ((keeps_typeAlias n).map TopLevel.typeAlias).payload .nil).mono (Nat.le_succ n)

/-- **Filling in the defaults does not change what a file is read as.** -/
theorem keeps_file (n : Nat) : Keeps layout (.node .file) n File.ofJson? File.ofJson? :=
  .record_flat rfl (Fields.Keeps.of n File.mk
    |>.field (.required (keeps_package n))
    |>.field (.many (keeps_import n))
    |>.field (.many (keeps_topLevel n)))

end UnionChecker.Syntax
