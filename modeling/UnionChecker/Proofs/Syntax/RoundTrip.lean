import UnionChecker.Proofs.Syntax.Defaults
/-!
# Syntax trees survive their JSON form

A tree whose spans and integers are in range is read back from its JSON form, and filling in the
defaults of a JSON value does not change the tree it is read as.
-/

namespace UnionChecker.Syntax

open Json (Reads FieldReads Fields)

/-! ## Ranges -/

/-- The offsets fit 64 bits, the line and the column 32. -/
structure Span.InRange (s : Span) : Prop where
  start : s.start < limit64
  stop : s.stop < limit64
  line : s.line < limit32
  column : s.column < limit32

def Name.InRange (n : Name) : Prop := n.span.InRange

mutual

/-- All spans of a written type are in range. -/
inductive TypeExpr.InRange : TypeExpr → Prop
  | mk {alternatives : List Alternative} {span : Span}
      (halternatives : ∀ a ∈ alternatives, Alternative.InRange a) (hspan : span.InRange) :
      TypeExpr.InRange ⟨alternatives, span⟩

/-- All spans of an alternative are in range. -/
inductive Alternative.InRange : Alternative → Prop
  | hole {span : Span} (hspan : span.InRange) : Alternative.InRange (.hole span)
  | named {name : Name} {args : List TypeExpr} (hname : name.InRange)
      (hargs : ∀ t ∈ args, TypeExpr.InRange t) : Alternative.InRange (.named name args)
  | fn {generics : List Name} {params : List (Option Name × TypeExpr)} {result : TypeExpr}
      {span : Span} (hgenerics : ∀ g ∈ generics, g.InRange)
      (hnames : ∀ p ∈ params, ∀ name ∈ p.1, Name.InRange name)
      (hparams : ∀ p ∈ params, TypeExpr.InRange p.2) (hresult : TypeExpr.InRange result)
      (hspan : span.InRange) : Alternative.InRange (.fn generics params result span)

end

/-- An integer fits 64 bits. -/
def Literal.InRange : Literal → Prop
  | .int n => fitsInt64 n = true
  | _ => True

structure Parameter.InRange (p : Parameter) : Prop where
  name : p.name.InRange
  type : ∀ t ∈ p.type, TypeExpr.InRange t

structure ShortCircuit.InRange (s : ShortCircuit) : Prop where
  residual : ∀ t ∈ s.residual, TypeExpr.InRange t
  span : s.span.InRange

mutual

/-- All spans and integers of a term are in range. -/
inductive Term.InRange : Term → Prop
  | mk {head : Expr} {chain : List Link} {span : Span} (hhead : Expr.InRange head)
      (hchain : ∀ link ∈ chain, Link.InRange link) (hspan : span.InRange) :
      Term.InRange ⟨head, chain, span⟩

inductive Link.InRange : Link → Prop
  | mk {access : Option Member} {args : Option Arguments} {span : Span}
      (haccess : ∀ m ∈ access, Name.InRange m.name) (hargs : ∀ a ∈ args, Arguments.InRange a)
      (hspan : span.InRange) : Link.InRange ⟨access, args, span⟩

inductive Arguments.InRange : Arguments → Prop
  | mk {generics : List TypeExpr} {items : List Argument} {span : Span}
      (hgenerics : ∀ t ∈ generics, t.InRange) (hitems : ∀ a ∈ items, Argument.InRange a)
      (hspan : span.InRange) : Arguments.InRange ⟨generics, items, span⟩

inductive Argument.InRange : Argument → Prop
  | mk {label : Option Name} {value : Term} {span : Span} (hlabel : ∀ x ∈ label, Name.InRange x)
      (hvalue : Term.InRange value) (hspan : span.InRange) : Argument.InRange ⟨label, value, span⟩

inductive Expr.InRange : Expr → Prop
  | literal {value : Literal} {span : Span} (hvalue : value.InRange) (hspan : span.InRange) :
      Expr.InRange (.literal value span)
  | reference {name : Name} {args : Option Arguments} {span : Span} (hname : name.InRange)
      (hargs : ∀ a ∈ args, Arguments.InRange a) (hspan : span.InRange) :
      Expr.InRange (.reference name args span)
  | lambda {l : Lambda} (h : Lambda.InRange l) : Expr.InRange (.lambda l)
  | declaration {d : Declaration} (h : Declaration.InRange d) : Expr.InRange (.declaration d)
  | conditional {c : Conditional} (h : Conditional.InRange c) : Expr.InRange (.conditional c)
  | list {generics : List TypeExpr} {items : List Term} {span : Span}
      (hgenerics : ∀ t ∈ generics, t.InRange) (hitems : ∀ t ∈ items, Term.InRange t)
      (hspan : span.InRange) : Expr.InRange (.list generics items span)
  | when {w : When} (h : When.InRange w) : Expr.InRange (.when w)

inductive Lambda.InRange : Lambda → Prop
  | mk {generics : List Name} {params : List Parameter} {result : Option TypeExpr}
      {body : List Term} {span : Span} (hgenerics : ∀ g ∈ generics, g.InRange)
      (hparams : ∀ p ∈ params, p.InRange) (hresult : ∀ t ∈ result, TypeExpr.InRange t)
      (hbody : ∀ t ∈ body, Term.InRange t) (hspan : span.InRange) :
      Lambda.InRange ⟨generics, params, result, body, span⟩

inductive Declaration.InRange : Declaration → Prop
  | mk {name : Name} {type : Option TypeExpr} {shortCircuit : Option ShortCircuit} {value : Term}
      {span : Span} (hname : name.InRange) (htype : ∀ t ∈ type, TypeExpr.InRange t)
      (hshortCircuit : ∀ s ∈ shortCircuit, ShortCircuit.InRange s) (hvalue : Term.InRange value)
      (hspan : span.InRange) : Declaration.InRange ⟨name, type, shortCircuit, value, span⟩

inductive Conditional.InRange : Conditional → Prop
  | mk {condition : Term} {thenBlock elseBlock : List Term} {elseIfs : List ElseIf} {span : Span}
      (hcondition : Term.InRange condition) (hthen : ∀ t ∈ thenBlock, Term.InRange t)
      (helseIfs : ∀ b ∈ elseIfs, ElseIf.InRange b) (helse : ∀ t ∈ elseBlock, Term.InRange t)
      (hspan : span.InRange) :
      Conditional.InRange ⟨condition, thenBlock, elseIfs, elseBlock, span⟩

inductive ElseIf.InRange : ElseIf → Prop
  | mk {condition : Term} {thenBlock : List Term} {span : Span}
      (hcondition : Term.InRange condition) (hthen : ∀ t ∈ thenBlock, Term.InRange t)
      (hspan : span.InRange) : ElseIf.InRange ⟨condition, thenBlock, span⟩

inductive When.InRange : When → Prop
  | mk {subject : Term} {arms : List Arm} {other : Option Otherwise} {span : Span}
      (hsubject : Term.InRange subject) (harms : ∀ a ∈ arms, Arm.InRange a)
      (hother : ∀ o ∈ other, Otherwise.InRange o) (hspan : span.InRange) :
      When.InRange ⟨subject, arms, other, span⟩

inductive Arm.InRange : Arm → Prop
  | mk {name : Option Name} {type : TypeExpr} {body : List Term} {span : Span} {origin : Origin}
      (hname : ∀ x ∈ name, Name.InRange x) (htype : type.InRange)
      (hbody : ∀ t ∈ body, Term.InRange t) (hspan : span.InRange) :
      Arm.InRange ⟨name, type, body, span, origin⟩

inductive Otherwise.InRange : Otherwise → Prop
  | mk {name : Option Name} {body : List Term} {span : Span} {origin : Origin}
      (hname : ∀ x ∈ name, Name.InRange x) (hbody : ∀ t ∈ body, Term.InRange t)
      (hspan : span.InRange) : Otherwise.InRange ⟨name, body, span, origin⟩

end

structure Package.InRange (p : Package) : Prop where
  path : ∀ x ∈ p.path, x.InRange
  span : p.span.InRange

structure Import.InRange (i : Import) : Prop where
  path : ∀ x ∈ i.path, x.InRange
  renamed : ∀ x ∈ i.renamed, Name.InRange x
  span : i.span.InRange

structure Record.InRange (r : Record) : Prop where
  name : r.name.InRange
  generics : ∀ g ∈ r.generics, g.InRange
  names : ∀ f ∈ r.fields, f.1.InRange
  types : ∀ f ∈ r.fields, f.2.InRange
  span : r.span.InRange

structure TypeAlias.InRange (a : TypeAlias) : Prop where
  name : a.name.InRange
  generics : ∀ g ∈ a.generics, g.InRange
  type : a.type.InRange
  span : a.span.InRange

def TopLevel.InRange : TopLevel → Prop
  | .declaration d => d.InRange
  | .struct r | .interface r => r.InRange
  | .typeAlias a => a.InRange

/-- All spans and integers of a file are in range. -/
structure File.InRange (f : File) : Prop where
  package : f.package.InRange
  imports : ∀ i ∈ f.imports, i.InRange
  declarations : ∀ d ∈ f.declarations, d.InRange

/-! ## Lists and options as JSON -/

theorem alternativesToJson_eq_map : ∀ as : List Alternative,
    alternativesToJson as = as.map Alternative.toJson
  | [] => rfl
  | a :: as => by simp [alternativesToJson, alternativesToJson_eq_map as]

theorem typeExprsToJson_eq_map : ∀ ts : List TypeExpr, typeExprsToJson ts = ts.map TypeExpr.toJson
  | [] => rfl
  | t :: ts => by simp [typeExprsToJson, typeExprsToJson_eq_map ts]

theorem typeParamsToJson_eq_map : ∀ ps : List (Option Name × TypeExpr),
    typeParamsToJson ps = ps.map typeParamToJson
  | [] => rfl
  | p :: ps => by simp [typeParamsToJson, typeParamsToJson_eq_map ps]

theorem linksToJson_eq_map : ∀ links : List Link, linksToJson links = links.map Link.toJson
  | [] => rfl
  | link :: links => by simp [linksToJson, linksToJson_eq_map links]

theorem argumentsToJson_eq_map : ∀ items : List Argument,
    argumentsToJson items = items.map Argument.toJson
  | [] => rfl
  | item :: items => by simp [argumentsToJson, argumentsToJson_eq_map items]

theorem termsToJson_eq_map : ∀ ts : List Term, termsToJson ts = ts.map Term.toJson
  | [] => rfl
  | t :: ts => by simp [termsToJson, termsToJson_eq_map ts]

theorem elseIfsToJson_eq_map : ∀ branches : List ElseIf,
    elseIfsToJson branches = branches.map ElseIf.toJson
  | [] => rfl
  | branch :: branches => by simp [elseIfsToJson, elseIfsToJson_eq_map branches]

theorem armsToJson_eq_map : ∀ arms : List Arm, armsToJson arms = arms.map Arm.toJson
  | [] => rfl
  | arm :: arms => by simp [armsToJson, armsToJson_eq_map arms]

theorem Link.toJson_mk (access : Option Member) (args : Option Arguments) (span : Span) :
    (Link.mk access args span).toJson = .obj [
      ("access", optionalJson (access.map Member.toJson)),
      ("arguments", optionalJson (args.map Arguments.toJson)),
      ("span", span.toJson)] := by
  cases args <;> simp [Link.toJson, optionalJson]

theorem Expr.toJson_reference (name : Name) (args : Option Arguments) (span : Span) :
    (Expr.reference name args span).toJson = .obj [("ReferenceOrInvocation", .obj [
      ("var", name.toJson),
      ("arguments", optionalJson (args.map Arguments.toJson)),
      ("span", span.toJson)])] := by
  cases args <;> simp [Expr.toJson, optionalJson]

theorem When.toJson_mk (subject : Term) (arms : List Arm) (other : Option Otherwise) (span : Span) :
    (When.mk subject arms other span).toJson = .obj [
      ("over", subject.toJson),
      ("is", .arr (armsToJson arms)),
      ("other", optionalJson (other.map Otherwise.toJson)),
      ("span", span.toJson)] := by
  cases other <;> simp [When.toJson, optionalJson]

/-! ## Names and written types -/

theorem reads_nat {n limit k : Nat} (h : k < limit) : Reads n (Json.nat? limit) (.int k) k := by
  intro _
  show (if k < limit then some k else none) = some k
  rw [if_pos h]

theorem reads_span {s : Span} (h : s.InRange) (n : Nat) : Reads n Span.ofJson? s.toJson s :=
  .record_flat (by simp) (Fields.Reads.of n Span.mk
    |>.field rfl (reads_nat h.start).required
    |>.field rfl (reads_nat h.stop).required
    |>.field rfl (reads_nat h.line).required
    |>.field rfl (reads_nat h.column).required)

theorem reads_spanField {s : Span} (h : s.InRange) (n : Nat) : FieldReads n spanField s.toJson s :=
  (reads_span h n).fieldOr .zero

theorem reads_name {name : Name} (h : name.InRange) (n : Nat) :
    Reads n Name.ofJson? name.toJson name :=
  .record_flat (by simp) (Fields.Reads.of n Name.mk
    |>.field rfl (Reads.required fun _ => rfl)
    |>.field rfl (reads_spanField h n))

theorem reads_typeParam {n : Nat} {read : Json → Option TypeExpr} {p : Option Name × TypeExpr}
    (hname : ∀ name ∈ p.1, Name.InRange name) (h : Reads n read p.2.toJson p.2) :
    Reads n (typeParam? read) (typeParamToJson p) p := by
  rw [typeParamToJson]
  exact .record_flat (by simp) (Fields.Reads.of n Prod.mk
    |>.field rfl (.optional rfl fun name hn => reads_name (hname name hn) n)
    |>.field rfl h.required)

/-- Types that are at most as deep as the bound. -/
structure ReadsTypes (n : Nat) : Prop where
  typeExpr : ∀ t : TypeExpr, t.InRange → Reads n (TypeExpr.ofJsonWithin n) t.toJson t
  alternative : ∀ a : Alternative, a.InRange → Reads n (Alternative.ofJsonWithin n) a.toJson a

theorem readsTypes : ∀ n, ReadsTypes n
  | 0 => ⟨fun _ _ => .zero, fun _ _ => .zero⟩
  | n + 1 => by
    have ih := readsTypes n
    constructor
    · rintro _ ⟨halternatives, hspan⟩
      rw [TypeExpr.toJson, alternativesToJson_eq_map]
      exact .record (by simp) (Fields.Reads.of n TypeExpr.mk
        |>.field rfl (Reads.listOf fun a ha => ih.alternative a (halternatives a ha)).required
        |>.field rfl (reads_spanField hspan n))
    · intro a ha
      cases ha with
      | hole hspan =>
        rw [Alternative.toJson]
        exact .tagged rfl ((reads_span hspan n).map Alternative.hole).required
      | named hname hargs =>
        rw [Alternative.toJson, typeExprsToJson_eq_map]
        exact .tagged rfl (Reads.record_flat (by simp) (Fields.Reads.of n Alternative.named
          |>.field rfl (reads_name hname n).required
          |>.field rfl (.many fun t ht => ih.typeExpr t (hargs t ht)))).required
      | fn hgenerics hnames hparams hresult hspan =>
        rw [Alternative.toJson, typeParamsToJson_eq_map]
        exact .tagged rfl (Reads.record_flat (by simp) (Fields.Reads.of n Alternative.fn
          |>.field rfl (.many fun g hg => reads_name (hgenerics g hg) n)
          |>.field rfl (Reads.listOf fun p hp =>
            reads_typeParam (hnames p hp) (ih.typeExpr p.2 (hparams p hp))).required
          |>.field rfl (ih.typeExpr _ hresult).required
          |>.field rfl (reads_spanField hspan n))).required

theorem reads_typeExpr {t : TypeExpr} (h : t.InRange) (n : Nat) :
    Reads n TypeExpr.ofJson? t.toJson t := fun _ =>
  (readsTypes t.toJson.depth).typeExpr t h (Nat.le_refl _)

/-! ## Terms -/

theorem reads_literal {value : Literal} (h : value.InRange) (n : Nat) :
    Reads n Literal.ofJson? value.toJson value := by
  intro _
  cases value with
  | int i =>
    have hi : Json.int64? (.int i) = some i := if_pos h
    show (Json.int64? (.int i)).map Literal.int = some (.int i)
    rw [hi]
    rfl
  | float | string | bool | null => rfl

theorem reads_origin (origin : Origin) (n : Nat) :
    FieldReads n originField origin.toJson origin := fun _ => by
  cases origin <;> rfl

theorem reads_member {m : Member} (h : m.name.InRange) (n : Nat) :
    Reads n Member.ofJson? m.toJson m := by
  have harrow : Reads n Json.bool? (.bool m.arrow) m.arrow := fun _ => rfl
  exact .record_flat (by simp) (Fields.Reads.of n Member.mk
    |>.field rfl (reads_name h n).required
    |>.field rfl (harrow.fieldOr false))

theorem reads_parameter {p : Parameter} (h : p.InRange) (n : Nat) :
    Reads n Parameter.ofJson? p.toJson p :=
  .record_flat (by simp) (Fields.Reads.of n Parameter.mk
    |>.field rfl (reads_name h.name n).required
    |>.field rfl (.optional rfl fun t ht => reads_typeExpr (h.type t ht) n))

theorem reads_shortCircuit {s : ShortCircuit} (h : s.InRange) (n : Nat) :
    Reads n ShortCircuit.ofJson? s.toJson s :=
  .record_flat (by simp) (Fields.Reads.of n ShortCircuit.mk
    |>.field rfl (.optional rfl fun t ht => reads_typeExpr (h.residual t ht) n)
    |>.field rfl (reads_spanField h.span n))

/-- Terms, and what they are made of, that are at most as deep as the bound. -/
structure ReadsTerms (n : Nat) : Prop where
  term : ∀ t : Term, t.InRange → Reads n (Term.ofJsonWithin n) t.toJson t
  link : ∀ l : Link, l.InRange → Reads n (Link.ofJsonWithin n) l.toJson l
  arguments : ∀ a : Arguments, a.InRange → Reads n (Arguments.ofJsonWithin n) a.toJson a
  argument : ∀ a : Argument, a.InRange → Reads n (Argument.ofJsonWithin n) a.toJson a
  expr : ∀ e : Expr, e.InRange → Reads n (Expr.ofJsonWithin n) e.toJson e
  lambda : ∀ l : Lambda, l.InRange → Reads n (Lambda.ofJsonWithin n) l.toJson l
  declaration : ∀ d : Declaration, d.InRange → Reads n (Declaration.ofJsonWithin n) d.toJson d
  conditional : ∀ c : Conditional, c.InRange → Reads n (Conditional.ofJsonWithin n) c.toJson c
  elseIf : ∀ b : ElseIf, b.InRange → Reads n (ElseIf.ofJsonWithin n) b.toJson b
  when : ∀ w : When, w.InRange → Reads n (When.ofJsonWithin n) w.toJson w
  arm : ∀ a : Arm, a.InRange → Reads n (Arm.ofJsonWithin n) a.toJson a
  otherwise : ∀ o : Otherwise, o.InRange → Reads n (Otherwise.ofJsonWithin n) o.toJson o

namespace ReadsTerms

variable {n : Nat} (ih : ReadsTerms n)
include ih

omit ih in
theorem arguments_null : Arguments.ofJsonWithin n .null = none := by
  cases n <;> rfl

omit ih in
theorem otherwise_null : Otherwise.ofJsonWithin n .null = none := by
  cases n <;> rfl

theorem block {body : List Term} (h : ∀ t ∈ body, Term.InRange t) :
    FieldReads n (Json.required (Json.listOf (Term.ofJsonWithin n))) (.arr (body.map Term.toJson))
      body :=
  (Reads.listOf fun t ht => ih.term t (h t ht)).required

theorem step_expr {e : Expr} (h : e.InRange) :
    Reads (n + 1) (Expr.ofJsonWithin (n + 1)) e.toJson e := by
  cases h with
  | literal hvalue hspan =>
    rw [Expr.toJson]
    exact .tagged rfl (Reads.record_flat (by simp) (Fields.Reads.of n Expr.literal
      |>.field rfl (reads_literal hvalue n).required
      |>.field rfl (reads_spanField hspan n))).required
  | reference hname hargs hspan =>
    rw [Expr.toJson_reference]
    exact .tagged rfl (Reads.record_flat (by simp) (Fields.Reads.of n Expr.reference
      |>.field rfl (reads_name hname n).required
      |>.field rfl (.optional arguments_null fun a ha => ih.arguments a (hargs a ha))
      |>.field rfl (reads_spanField hspan n))).required
  | lambda h => rw [Expr.toJson]; exact .tagged rfl ((ih.lambda _ h).map Expr.lambda).required
  | declaration h =>
    rw [Expr.toJson]
    exact .tagged rfl ((ih.declaration _ h).map Expr.declaration).required
  | conditional h =>
    rw [Expr.toJson]
    exact .tagged rfl ((ih.conditional _ h).map Expr.conditional).required
  | list hgenerics hitems hspan =>
    rw [Expr.toJson, typeExprsToJson_eq_map, termsToJson_eq_map]
    exact .tagged rfl (Reads.record_flat (by simp) (Fields.Reads.of n Expr.list
      |>.field rfl (.many fun t ht => reads_typeExpr (hgenerics t ht) n)
      |>.field rfl (ih.block hitems)
      |>.field rfl (reads_spanField hspan n))).required
  | when h => rw [Expr.toJson]; exact .tagged rfl ((ih.when _ h).map Expr.when).required

end ReadsTerms

theorem readsTerms : ∀ n, ReadsTerms n
  | 0 => by constructor <;> exact fun _ _ => .zero
  | n + 1 => by
    have ih := readsTerms n
    constructor
    case expr => exact fun _ => ih.step_expr
    case term =>
      rintro _ ⟨hhead, hchain, hspan⟩
      rw [Term.toJson, linksToJson_eq_map]
      exact .record (by simp) (Fields.Reads.of n Term.mk
        |>.field rfl (ih.expr _ hhead).required
        |>.field rfl (.many fun l hl => ih.link l (hchain l hl))
        |>.field rfl (reads_spanField hspan n))
    case link =>
      rintro _ ⟨haccess, hargs, hspan⟩
      rw [Link.toJson_mk]
      exact .record (by simp) (Fields.Reads.of n Link.mk
        |>.field rfl (.optional rfl fun m hm => reads_member (haccess m hm) n)
        |>.field rfl (.optional ReadsTerms.arguments_null fun a ha => ih.arguments a (hargs a ha))
        |>.field rfl (reads_spanField hspan n))
    case arguments =>
      rintro _ ⟨hgenerics, hitems, hspan⟩
      rw [Arguments.toJson, typeExprsToJson_eq_map, argumentsToJson_eq_map]
      exact .record (by simp) (Fields.Reads.of n Arguments.mk
        |>.field rfl (.many fun t ht => reads_typeExpr (hgenerics t ht) n)
        |>.field rfl (Reads.listOf fun a ha => ih.argument a (hitems a ha)).required
        |>.field rfl (reads_spanField hspan n))
    case argument =>
      rintro _ ⟨hlabel, hvalue, hspan⟩
      rw [Argument.toJson]
      exact .record (by simp) (Fields.Reads.of n Argument.mk
        |>.field rfl (.optional rfl fun x hx => reads_name (hlabel x hx) n)
        |>.field rfl (ih.term _ hvalue).required
        |>.field rfl (reads_spanField hspan n))
    case lambda =>
      rintro _ ⟨hgenerics, hparams, hresult, hbody, hspan⟩
      rw [Lambda.toJson, termsToJson_eq_map]
      exact .record (by simp) (Fields.Reads.of n Lambda.mk
        |>.field rfl (.many fun g hg => reads_name (hgenerics g hg) n)
        |>.field rfl (Reads.listOf fun p hp => reads_parameter (hparams p hp) n).required
        |>.field rfl (.optional rfl fun t ht => reads_typeExpr (hresult t ht) n)
        |>.field rfl (ih.block hbody)
        |>.field rfl (reads_spanField hspan n))
    case declaration =>
      rintro _ ⟨hname, htype, hshortCircuit, hvalue, hspan⟩
      rw [Declaration.toJson]
      exact .record (by simp) (Fields.Reads.of n Declaration.mk
        |>.field rfl (reads_name hname n).required
        |>.field rfl (.optional rfl fun t ht => reads_typeExpr (htype t ht) n)
        |>.field rfl (.optional rfl fun s hs => reads_shortCircuit (hshortCircuit s hs) n)
        |>.field rfl (ih.term _ hvalue).required
        |>.field rfl (reads_spanField hspan n))
    case conditional =>
      rintro _ ⟨hcondition, hthen, helseIfs, helse, hspan⟩
      rw [Conditional.toJson, termsToJson_eq_map, termsToJson_eq_map, elseIfsToJson_eq_map]
      exact .record (by simp) (Fields.Reads.of n Conditional.mk
        |>.field rfl (ih.term _ hcondition).required
        |>.field rfl (ih.block hthen)
        |>.field rfl (.many fun b hb => ih.elseIf b (helseIfs b hb))
        |>.field rfl (.many fun t ht => ih.term t (helse t ht))
        |>.field rfl (reads_spanField hspan n))
    case elseIf =>
      rintro _ ⟨hcondition, hthen, hspan⟩
      rw [ElseIf.toJson, termsToJson_eq_map]
      exact .record (by simp) (Fields.Reads.of n ElseIf.mk
        |>.field rfl (ih.term _ hcondition).required
        |>.field rfl (ih.block hthen)
        |>.field rfl (reads_spanField hspan n))
    case when =>
      rintro _ ⟨hsubject, harms, hother, hspan⟩
      rw [When.toJson_mk, armsToJson_eq_map]
      exact .record (by simp) (Fields.Reads.of n When.mk
        |>.field rfl (ih.term _ hsubject).required
        |>.field rfl (.many fun a ha => ih.arm a (harms a ha))
        |>.field rfl (.optional ReadsTerms.otherwise_null fun o ho => ih.otherwise o (hother o ho))
        |>.field rfl (reads_spanField hspan n))
    case arm =>
      rintro _ ⟨hname, htype, hbody, hspan⟩
      rw [Arm.toJson, termsToJson_eq_map]
      exact .record (by simp) (Fields.Reads.of n Arm.mk
        |>.field rfl (.optional rfl fun x hx => reads_name (hname x hx) n)
        |>.field rfl (reads_typeExpr htype n).required
        |>.field rfl (ih.block hbody)
        |>.field rfl (reads_spanField hspan n)
        |>.field rfl (reads_origin _ n))
    case otherwise =>
      rintro _ ⟨hname, hbody, hspan⟩
      rw [Otherwise.toJson, termsToJson_eq_map]
      exact .record (by simp) (Fields.Reads.of n Otherwise.mk
        |>.field rfl (.optional rfl fun x hx => reads_name (hname x hx) n)
        |>.field rfl (ih.block hbody)
        |>.field rfl (reads_spanField hspan n)
        |>.field rfl (reads_origin _ n))

theorem reads_declaration {d : Declaration} (h : d.InRange) (n : Nat) :
    Reads n Declaration.ofJson? d.toJson d := fun _ =>
  (readsTerms d.toJson.depth).declaration d h (Nat.le_refl _)

/-! ## Files -/

theorem reads_package {p : Package} (h : p.InRange) (n : Nat) :
    Reads n Package.ofJson? p.toJson p :=
  .record_flat (by simp) (Fields.Reads.of n Package.mk
    |>.field rfl (Reads.listOf fun x hx => reads_name (h.path x hx) n).required
    |>.field rfl (reads_spanField h.span n))

theorem reads_import {i : Import} (h : i.InRange) (n : Nat) : Reads n Import.ofJson? i.toJson i :=
  .record_flat (by simp) (Fields.Reads.of n Import.mk
    |>.field rfl (Reads.listOf fun x hx => reads_name (h.path x hx) n).required
    |>.field rfl (.optional rfl fun x hx => reads_name (h.renamed x hx) n)
    |>.field rfl (reads_spanField h.span n))

theorem reads_recordField {f : Name × TypeExpr} (hname : f.1.InRange) (htype : f.2.InRange)
    (n : Nat) : Reads n recordField? (recordFieldToJson f) f :=
  .record_flat (by simp) (Fields.Reads.of n Prod.mk
    |>.field rfl (reads_name hname n).required
    |>.field rfl (reads_typeExpr htype n).required)

theorem reads_record {r : Record} (h : r.InRange) (n : Nat) : Reads n Record.ofJson? r.toJson r :=
  .record_flat (by simp) (Fields.Reads.of n Record.mk
    |>.field rfl (reads_name h.name n).required
    |>.field rfl (.many fun g hg => reads_name (h.generics g hg) n)
    |>.field rfl (.many fun f hf => reads_recordField (h.names f hf) (h.types f hf) n)
    |>.field rfl (reads_spanField h.span n))

theorem reads_typeAlias {a : TypeAlias} (h : a.InRange) (n : Nat) :
    Reads n TypeAlias.ofJson? a.toJson a :=
  .record_flat (by simp) (Fields.Reads.of n TypeAlias.mk
    |>.field rfl (reads_name h.name n).required
    |>.field rfl (.many fun g hg => reads_name (h.generics g hg) n)
    |>.field rfl (reads_typeExpr h.type n).required
    |>.field rfl (reads_spanField h.span n))

theorem reads_topLevel {d : TopLevel} (h : d.InRange) (n : Nat) :
    Reads n TopLevel.ofJson? d.toJson d := by
  intro hdepth
  have hdepth := Nat.le_succ_of_le hdepth
  cases d with
  | declaration d => exact Reads.tagged rfl ((reads_declaration h n).map _).required hdepth
  | struct r => exact Reads.tagged rfl ((reads_record h n).map TopLevel.struct).required hdepth
  | interface r =>
    exact Reads.tagged rfl ((reads_record h n).map TopLevel.interface).required hdepth
  | typeAlias a => exact Reads.tagged rfl ((reads_typeAlias h n).map _).required hdepth

theorem reads_file {f : File} (h : f.InRange) (n : Nat) : Reads n File.ofJson? f.toJson f :=
  .record_flat (by simp) (Fields.Reads.of n File.mk
    |>.field rfl (reads_package h.package n).required
    |>.field rfl (.many fun i hi => reads_import (h.imports i hi) n)
    |>.field rfl (.many fun d hd => reads_topLevel (h.declarations d hd) n))

/-- **A syntax tree survives its JSON form.** A file is read back from what is written for it. A
value that is read as a file is read as the same file after filling in the defaults, and then no
optional field is missing in it, at any depth. -/
theorem file_survives_json :
    (∀ f : File, f.InRange → File.ofJson? f.toJson = some f) ∧
    ∀ (j : Json) (f : File), File.ofJson? j = some f →
      File.ofJson? (Json.fill layout (.node .file) j) = some f ∧
        ¬ Json.Lacks layout (.node .file) (Json.fill layout (.node .file) j) :=
  ⟨fun _ h => reads_file h _ (Nat.le_refl _), fun j f h =>
    ⟨keeps_file _ j f h (Nat.le_refl _), Json.not_lacks_fill _ j⟩⟩

/-- The least integer at the last position, and a text with nothing but what is required, partly as
arrays. -/
theorem file_survives_json_terse :
    let last : Span := ⟨18446744073709551615, 18446744073709551615, 4294967295, 4294967295⟩
    let file (span : Span) : File := ⟨⟨[⟨"main", .zero⟩], .zero⟩, [],
      [.declaration ⟨⟨"x", .zero⟩, none, none,
        ⟨.literal (.int (-9223372036854775808)) span, [], .zero⟩, .zero⟩]⟩
    let terse : Json := .obj [
      ("package", .obj [("path", .arr [.arr [.str "main"]])]),
      ("declarations", .arr [.obj [("Declaration", .obj [
        ("name", .obj [("text", .str "x")]),
        ("value", .arr [.obj [("Literal", .obj [
          ("literal", .obj [("Int", .int (-9223372036854775808))])])]])])]])]
    File.ofJson? (file last).toJson = some (file last) ∧
      File.ofJson? (Json.fill layout (.node .file) terse) = some (file .zero) ∧
      (Json.fill layout (.node .file) terse).get? "imports" = some (.arr []) := by
  intro last file terse
  have hzero : Span.zero.InRange := ⟨by decide, by decide, by decide, by decide⟩
  have hlast : last.InRange := ⟨by decide, by decide, by decide, by decide⟩
  have hname : ∀ text, Name.InRange ⟨text, .zero⟩ := fun _ => hzero
  have hterm : Term.InRange ⟨.literal (.int (-9223372036854775808)) last, [], .zero⟩ :=
    .mk (.literal rfl hlast) (by simp) hzero
  have hfile : (file last).InRange := by
    refine ⟨⟨by simp [file, hname], hzero⟩, by simp [file], ?_⟩
    exact List.forall_mem_singleton.2
      (Declaration.InRange.mk (hname "x") (by simp) (by simp) hterm hzero)
  exact ⟨file_survives_json.1 _ hfile, (file_survives_json.2 terse (file .zero) rfl).1, rfl⟩

end UnionChecker.Syntax
