import UnionChecker.Check.Expr
import UnionChecker.Proofs.Coverage
import UnionChecker.Proofs.Ty.Substitution
/-!
# What two checks may differ in

A `Likeness` says how the data of two checks correspond: their types, the names of generics, written
types and what is made of all these. Terms are alike that differ in these parts only (`TermLike`).

What the checker asks about types has the same answer for types that are alike, and what it makes of
them is alike again (`Likeness.Lawful`). In an `exact` likeness everything is equal, except perhaps
where the arms of a `when` come from.
-/

namespace UnionChecker.Check

open Syntax

/-- What corresponds to what in two checks. -/
structure Likeness where
  type : Ty → Ty → Prop
  /-- Names of generics. -/
  name : String → String → Prop
  expr : TypedExpr → TypedExpr → Prop
  test : Discriminator → Discriminator → Prop
  cause : Cause → Cause → Prop
  written : TypeExpr → TypeExpr → Prop
  /-- Generics where they are bound. -/
  binder : Name → Name → Prop
  origin : Origin → Origin → Prop

namespace Likeness

variable (L : Likeness)

/-! ## Parts of types and trees -/

/-- Parameters, whose names stay. -/
def ParamLike (p p' : String × Ty) : Prop := p.1 = p'.1 ∧ L.type p.2 p'.2

/-- Entries of a substitution. -/
abbrev EntryLike : String × Ty → String × Ty → Prop := Substitution.RelEntry L.name L.type

structure SignatureLike (F F' : Signature) : Prop where
  generics : List.Forall₂ L.name F.generics F'.generics
  params : List.Forall₂ L.ParamLike F.params F'.params
  result : L.type F.result F'.result

structure ShapeLike (s s' : Shape) : Prop where
  params : List.Forall₂ L.type s.params s'.params
  result : Option.Rel L.type s.result s'.result

structure FunctionLike (f f' : TypedFunction) : Prop where
  signature : L.SignatureLike f.signature f'.signature
  params : f.params = f'.params
  block : List.Forall₂ L.expr f.block f'.block

structure CaseLike (c c' : TypedCase) : Prop where
  name : c.name = c'.name
  type : L.type c.type c'.type
  test : L.test c.test c'.test
  block : List.Forall₂ L.expr c.block c'.block

structure CoverageLike (c c' : Coverage) : Prop where
  subject : L.type c.subject c'.subject
  remaining : List.Forall₂ L.type c.remaining c'.remaining
  consumed : List.Forall₂ L.type c.consumed c'.consumed

/-- Types of one form. -/
inductive FormLike : Ty → Ty → Prop
  | var {x x' : String} : FormLike (.var x) (.var x')
  | named {decl : Nominal} {args args' : List Ty} (hargs : List.Forall₂ L.type args args') :
      FormLike (.named decl args) (.named decl args')
  | fn {gs gs' : List String} {ps ps' : List (String × Ty)} {r r' : Ty}
      (h : L.SignatureLike ⟨gs, ps, r⟩ ⟨gs', ps', r'⟩) : FormLike (.fn gs ps r) (.fn gs' ps' r')
  | union {ms ms' : List Ty} (hms : List.Forall₂ L.type ms ms') :
      FormLike (.union ms) (.union ms')

/-- Nodes of one kind, with parts that are alike. -/
inductive NodeLike : TypedExpr → TypedExpr → Prop
  | literal {value : Literal} {t t' : Ty} (ht : L.type t t') :
      NodeLike (.literal value t) (.literal value t')
  | access {t t' : Ty} {e e' : TypedExpr} {field : String} (ht : L.type t t') (he : L.expr e e') :
      NodeLike (.access t e field) (.access t' e' field)
  | invocation {t t' : Ty} {e e' : TypedExpr} {ts ts' : List Ty} {args args' : List TypedExpr}
      (ht : L.type t t') (he : L.expr e e') (hts : List.Forall₂ L.type ts ts')
      (hargs : List.Forall₂ L.expr args args') :
      NodeLike (.invocation t e ts args) (.invocation t' e' ts' args')
  | function {f f' : TypedFunction} (h : L.FunctionLike f f') : NodeLike (.function f) (.function f')
  | declaration {x : String} {e e' : TypedExpr} (he : L.expr e e') :
      NodeLike (.declaration x e) (.declaration x e')
  | conditional {t t' : Ty} {e e' : TypedExpr} {ts ts' es es' : List TypedExpr} (ht : L.type t t')
      (he : L.expr e e') (hts : List.Forall₂ L.expr ts ts') (hes : List.Forall₂ L.expr es es') :
      NodeLike (.conditional t e ts es) (.conditional t' e' ts' es')
  | list {t t' : Ty} {es es' : List TypedExpr} (ht : L.type t t')
      (hes : List.Forall₂ L.expr es es') : NodeLike (.list t es) (.list t' es')
  | choice {t t' : Ty} {e e' : TypedExpr} {cases cases' : List TypedCase}
      {other other' : Option (List TypedExpr)} {x : Option String} (ht : L.type t t')
      (he : L.expr e e') (hcases : List.Forall₂ L.CaseLike cases cases')
      (hother : Option.Rel (List.Forall₂ L.expr) other other') :
      NodeLike (.choice t e cases other x) (.choice t' e' cases' other' x)

/-- Causes of one kind, with types that are alike. -/
inductive CauseLike : Cause → Cause → Prop
  | same (c : Cause) : CauseLike c c
  | mismatch {t t' u u' : Ty} (ht : L.type t t') (hu : L.type u u') :
      CauseLike (.mismatch t u) (.mismatch t' u')
  | lambdaMismatch {t t' : Ty} (ht : L.type t t') :
      CauseLike (.lambdaMismatch t) (.lambdaMismatch t')
  | paramMismatch {index : Nat} {t t' u u' : Ty} (ht : L.type t t') (hu : L.type u u') :
      CauseLike (.paramMismatch index t u) (.paramMismatch index t' u')
  | resultMismatch {t t' u u' : Ty} (ht : L.type t t') (hu : L.type u u') :
      CauseLike (.resultMismatch t u) (.resultMismatch t' u')
  | accessOver {t t' : Ty} (ht : L.type t t') : CauseLike (.accessOver t) (.accessOver t')
  | notInvocable {t t' : Ty} (ht : L.type t t') : CauseLike (.notInvocable t) (.notInvocable t')
  | noField {field : String} {t t' : Ty} (ht : L.type t t') :
      CauseLike (.noField field t) (.noField field t')
  | conflict {x x' : String} {t t' u u' : Ty} (hx : L.name x x') (ht : L.type t t')
      (hu : L.type u u') :
      CauseLike (.algebra (.inferenceConflict x t u)) (.algebra (.inferenceConflict x' t' u'))
  | duplicate {t t' : Ty} (ht : L.type t t') :
      CauseLike (.coverage (.duplicate t)) (.coverage (.duplicate t'))
  | noMatching {t t' u u' : Ty} (ht : L.type t t') (hu : L.type u u') :
      CauseLike (.coverage (.noMatching t u)) (.coverage (.noMatching t' u'))

/-- Failures of the type algebra that are reported alike. -/
def ErrorLike (e e' : TyError) : Prop := L.cause (.algebra e) (.algebra e')

/-- Refusals of arms that are reported alike. -/
def RefusalLike (e e' : CoverageError) : Prop := L.cause (.coverage e) (.coverage e')

/-! ## Terms -/

/-- Parameters of lambdas. -/
structure ParameterLike (p p' : Parameter) : Prop where
  name : p.name = p'.name
  type : Option.Rel L.written p.type p'.type

mutual

/-- Terms that differ in written types, in the generics of lambdas and in the origins of arms. -/
inductive TermLike : Term → Term → Prop
  | mk {head head' : Expr} {chain chain' : List Link} {span : Span} (hhead : ExprLike head head')
      (hchain : List.Forall₂ LinkLike chain chain') :
      TermLike ⟨head, chain, span⟩ ⟨head', chain', span⟩

inductive LinkLike : Link → Link → Prop
  | mk {access : Option Member} {args args' : Option Arguments} {span : Span}
      (hargs : Option.Rel ArgumentsLike args args') :
      LinkLike ⟨access, args, span⟩ ⟨access, args', span⟩

inductive ArgumentsLike : Arguments → Arguments → Prop
  | mk {generics generics' : List TypeExpr} {items items' : List Argument} {span : Span}
      (hgenerics : List.Forall₂ L.written generics generics')
      (hitems : List.Forall₂ ArgumentLike items items') :
      ArgumentsLike ⟨generics, items, span⟩ ⟨generics', items', span⟩

inductive ArgumentLike : Argument → Argument → Prop
  | mk {label : Option Name} {value value' : Term} {span : Span} (hvalue : TermLike value value') :
      ArgumentLike ⟨label, value, span⟩ ⟨label, value', span⟩

inductive ExprLike : Expr → Expr → Prop
  | literal (value : Literal) (span : Span) : ExprLike (.literal value span) (.literal value span)
  | reference {name : Name} {args args' : Option Arguments} {span : Span}
      (hargs : Option.Rel ArgumentsLike args args') :
      ExprLike (.reference name args span) (.reference name args' span)
  | lambda {lambda lambda' : Lambda} (h : LambdaLike lambda lambda') :
      ExprLike (.lambda lambda) (.lambda lambda')
  | declaration {name : Name} {type type' : Option TypeExpr} {exit exit' : Option ShortCircuit}
      {value value' : Term} {span : Span} (htype : Option.Rel L.written type type')
      (hvalue : TermLike value value') :
      ExprLike (.declaration ⟨name, type, exit, value, span⟩)
        (.declaration ⟨name, type', exit', value', span⟩)
  | conditional {condition condition' : Term} {thenBlock thenBlock' elseBlock elseBlock' : List Term}
      {elseIfs elseIfs' : List ElseIf} {span : Span} (hcondition : TermLike condition condition')
      (hthen : List.Forall₂ TermLike thenBlock thenBlock')
      (helseIfs : List.Forall₂ ElseIfLike elseIfs elseIfs')
      (helse : List.Forall₂ TermLike elseBlock elseBlock') :
      ExprLike (.conditional ⟨condition, thenBlock, elseIfs, elseBlock, span⟩)
        (.conditional ⟨condition', thenBlock', elseIfs', elseBlock', span⟩)
  | list {generics generics' : List TypeExpr} {items items' : List Term} {span : Span}
      (hgenerics : List.Forall₂ L.written generics generics')
      (hitems : List.Forall₂ TermLike items items') :
      ExprLike (.list generics items span) (.list generics' items' span)
  | when {subject subject' : Term} {arms arms' : List Arm} {other other' : Option Otherwise}
      {span : Span} (hsubject : TermLike subject subject') (harms : List.Forall₂ ArmLike arms arms')
      (hother : Option.Rel OtherwiseLike other other') :
      ExprLike (.when ⟨subject, arms, other, span⟩) (.when ⟨subject', arms', other', span⟩)

inductive LambdaLike : Lambda → Lambda → Prop
  | mk {generics generics' : List Name} {params params' : List Parameter}
      {result result' : Option TypeExpr} {body body' : List Term} {span : Span}
      (hgenerics : List.Forall₂ L.binder generics generics')
      (hparams : List.Forall₂ L.ParameterLike params params')
      (hresult : Option.Rel L.written result result') (hbody : List.Forall₂ TermLike body body') :
      LambdaLike ⟨generics, params, result, body, span⟩ ⟨generics', params', result', body', span⟩

inductive ElseIfLike : ElseIf → ElseIf → Prop
  | mk {condition condition' : Term} {thenBlock thenBlock' : List Term} {span : Span}
      (hcondition : TermLike condition condition')
      (hthen : List.Forall₂ TermLike thenBlock thenBlock') :
      ElseIfLike ⟨condition, thenBlock, span⟩ ⟨condition', thenBlock', span⟩

inductive ArmLike : Arm → Arm → Prop
  | mk {name : Option Name} {type type' : TypeExpr} {body body' : List Term} {span : Span}
      {origin origin' : Origin} (htype : L.written type type')
      (hbody : List.Forall₂ TermLike body body') (horigin : L.origin origin origin') :
      ArmLike ⟨name, type, body, span, origin⟩ ⟨name, type', body', span, origin'⟩

inductive OtherwiseLike : Otherwise → Otherwise → Prop
  | mk {name : Option Name} {body body' : List Term} {span : Span} {origin origin' : Origin}
      (hbody : List.Forall₂ TermLike body body') (horigin : L.origin origin origin') :
      OtherwiseLike ⟨name, body, span, origin⟩ ⟨name, body', span, origin'⟩

end

/-- Declarations, whose early exits need not be alike. -/
structure DeclarationLike (d d' : Declaration) : Prop where
  name : d.name = d'.name
  type : Option.Rel L.written d.type d'.type
  value : L.TermLike d.value d'.value

/-! ## Laws -/

/-- What is alike is taken alike by everything that the checker does with types. -/
structure Lawful : Prop where
  beq {x x' y y' : String} : L.name x x' → L.name y y' → (x' == y') = (x == y)
  binder {x x' : Name} : L.binder x x' → L.name x.text x'.text
  hole {w w' : TypeExpr} : L.written w w' → isHole w' = isHole w
  span {w w' : TypeExpr} : L.written w w' → w'.span = w.span
  form {t t' : Ty} : L.type t t' → L.FormLike t t'
  var {x x' : String} : L.name x x' → L.type (.var x) (.var x')
  fn {F F' : Signature} : L.SignatureLike F F' → L.type F.toTy F'.toTy
  literal (value : Literal) : L.type (literalType value) (literalType value)
  list {t t' : Ty} : L.type t t' → L.type (.list t) (.list t')
  join {ts ts' : List Ty} : List.Forall₂ L.type ts ts' → L.type (.join ts) (.join ts')
  resolve {t t' : Ty} {σ σ' : Substitution} : L.type t t' → List.Forall₂ L.EntryLike σ σ' →
    L.type (t.resolve σ) (t'.resolve σ')
  assignable {t t' u u' : Ty} : L.type t t' → L.type u u' → t'.isAssignable u' = t.isAssignable u
  equal {t t' u u' : Ty} : L.type t t' → L.type u u' → t'.equal u' = t.equal u
  contained {t t' u u' : Ty} : L.type t t' → L.type u u' → t'.containedIn u' = t.containedIn u
  le {t t' u u' : Ty} : L.type t t' → L.type u u' → t'.le u' = t.le u
  mentions {t t' : Ty} {gs gs' : List String} : L.type t t' → List.Forall₂ L.name gs gs' →
    t'.mentionsAny gs' = t.mentionsAny gs
  infer {x x' : String} {t t' u u' : Ty} : L.name x x' → L.type t t' → L.type u u' →
    Alike L.ErrorLike (Option.Rel L.type) (t.infer x u) (t'.infer x' u')
  missing {c c' : Coverage} : L.CoverageLike c c' →
    L.cause (.missingCases c.missing) (.missingCases c'.missing)
  cause {c c' : Cause} : L.CauseLike c c' → L.cause c c'
  node {e e' : TypedExpr} : L.NodeLike e e' → L.expr e e'
  ty {e e' : TypedExpr} : L.expr e e' → L.type e.ty e'.ty

namespace Lawful

variable {L} (h : L.Lawful)
include h

theorem void : L.type .void .void := h.literal .null

theorem boolean : L.type .boolean .boolean := h.literal (.bool true)

theorem members {t t' : Ty} (ht : L.type t t') : List.Forall₂ L.type t.members t'.members := by
  cases h.form ht with
  | union hms => exact hms
  | _ => exact .cons ht .nil

theorem signature? {t t' : Ty} (ht : L.type t t') :
    Option.Rel L.SignatureLike t.signature? t'.signature? := by
  cases h.form ht with
  | fn hF => exact .some hF
  | _ => exact .none

theorem listElement? {t t' : Ty} (ht : L.type t t') :
    Option.Rel L.type t.listElement? t'.listElement? := by
  cases h.form ht with
  | named hargs =>
    simp only [Ty.listElement?]
    split
    · cases hargs with
      | nil => exact .none
      | cons harg _ => exact .some harg
    · exact .none
  | _ => exact .none

theorem functionMembers {t t' : Ty} (ht : L.type t t') :
    List.Forall₂ L.SignatureLike (functionMembers t) (functionMembers t') :=
  List.rel_filterMap (R := L.type) (fun _ _ => h.signature?) (h.members ht)

/-- The element types that a list may be wanted at. -/
theorem wantedElements {expected expected' : Option Ty} (he : Option.Rel L.type expected expected') :
    List.Forall₂ L.type (((expected.map Ty.members).getD []).filterMap Ty.listElement?)
      (((expected'.map Ty.members).getD []).filterMap Ty.listElement?) := by
  cases he with
  | none => exact .nil
  | some he => exact List.rel_filterMap (R := L.type) (fun _ _ => h.listElement?) (h.members he)

theorem blockType {es es' : List TypedExpr} (hes : List.Forall₂ L.expr es es') :
    L.type (blockType es) (blockType es') := by
  have hreverse := List.rel_reverse hes
  rw [UnionChecker.blockType, UnionChecker.blockType, List.getLast?_eq_head?_reverse,
    List.getLast?_eq_head?_reverse]
  generalize es.reverse = ds, es'.reverse = ds' at hreverse
  cases hreverse with
  | nil => exact h.void
  | cons he _ => exact h.ty he

theorem mergeInference {x x' : String} (hx : L.name x x') {found found' : Option Ty}
    (hfound : Option.Rel L.type found found') {t t' : Ty} (ht : L.type t t') :
    Alike L.ErrorLike L.type (mergeInference x found t) (mergeInference x' found' t') := by
  cases hfound with
  | none => exact .ok ht
  | some hprevious =>
    simp only [UnionChecker.mergeInference, h.contained hprevious ht]
    split
    · exact .ok ht
    · exact .error (h.cause (.conflict hx hprevious ht))

theorem openShape {opened opened' : List String} (hopened : List.Forall₂ L.name opened opened')
    {t t' : Ty} (ht : L.type t t') :
    Option.Rel L.ShapeLike (openShape opened t) (openShape opened' t') := by
  cases h.form ht with
  | fn hF =>
    simp only [Check.openShape, h.mentions hF.result hopened,
      any_eq_of_forall₂ hF.params fun _ _ _ hp => h.mentions hp.2 hopened]
    split
    · exact .none
    · refine .some ⟨forall₂_map hF.params fun _ _ _ hp => hp.2, ?_⟩
      dsimp only
      split
      · exact .none
      · exact .some hF.result
  | _ => exact .none

/-! ### Coverage -/

section

variable {c c' : Coverage} {t t' : Ty}

theorem coverage (ht : L.type t t') : L.CoverageLike (.ofTy t) (.ofTy t') := ⟨ht, h.members ht, .nil⟩

theorem checkMember (hc : L.CoverageLike c c') (ht : L.type t t') :
    Alike L.RefusalLike Eq (c.check t) (c'.check t') := by
  simp only [Coverage.check, any_eq_of_forall₂ hc.consumed fun m _ m' hm => h.equal hm ht,
    any_eq_of_forall₂ hc.remaining fun m _ m' hm => h.equal hm ht]
  split
  · exact .error (h.cause (.duplicate ht))
  split
  · exact .ok rfl
  · exact .error (h.cause (.noMatching ht hc.subject))

theorem takeMember (hc : L.CoverageLike c c') (ht : L.type t t') :
    L.CoverageLike (c.take t) (c'.take t') where
  subject := hc.subject
  remaining := forall₂_filter hc.remaining fun m m' hm => by rw [h.equal hm ht]
  consumed := List.rel_append hc.consumed (.cons ht .nil)

theorem consume (hc : L.CoverageLike c c') (ht : L.type t t') :
    Alike L.RefusalLike L.CoverageLike (c.consume t) (c'.consume t') := by
  have hchecks : ∀ {ms ms' : List Ty}, List.Forall₂ L.type ms ms' →
      Alike L.RefusalLike Eq (ms.forM c.check) (ms'.forM c'.check) := by
    intro ms ms' hms
    induction hms with
    | nil => exact .ok rfl
    | cons hm _ ih => exact (h.checkMember hc hm).bind fun _ _ _ => ih
  rw [Coverage.consume_eq, Coverage.consume_eq]
  refine (hchecks (h.members ht)).bind fun _ _ _ => .ok ?_
  exact List.rel_foldl (P := L.CoverageLike) (R := L.type) (fun _ _ hc _ _ hm => h.takeMember hc hm)
    hc (h.members ht)

theorem takeRemaining (hc : L.CoverageLike c c') :
    L.type c.takeRemaining.1 c'.takeRemaining.1 ∧
      L.CoverageLike c.takeRemaining.2 c'.takeRemaining.2 :=
  ⟨h.join hc.remaining, hc.subject, .nil, List.rel_append hc.consumed hc.remaining⟩

end

/-- The arms of a `when` in their order. -/
theorem sortedCases {cases cases' : List TypedCase} (hcases : List.Forall₂ L.CaseLike cases cases') :
    List.Forall₂ L.CaseLike (sortOrdered caseLe cases) (sortOrdered caseLe cases') :=
  forall₂_sortOrdered (fun _ _ _ _ hc hc' => h.le hc.type hc'.type) hcases

/-- The type of a `when` that is not wanted at one. -/
theorem choiceType {cases cases' : List TypedCase} (hcases : List.Forall₂ L.CaseLike cases cases')
    {other other' : Option (List TypedExpr)}
    (hother : Option.Rel (List.Forall₂ L.expr) other other') :
    L.type (.join (cases.map (fun c => UnionChecker.blockType c.block) ++
        other.toList.map UnionChecker.blockType))
      (.join (cases'.map (fun c => UnionChecker.blockType c.block) ++
        other'.toList.map UnionChecker.blockType)) := by
  refine h.join (List.rel_append (forall₂_map hcases fun _ _ _ hc => h.blockType hc.block) ?_)
  cases hother with
  | none => exact .nil
  | some hother => exact .cons (h.blockType hother) .nil

end Lawful

/-! ## Exact likenesses -/

/-- Everything is equal, but the origins of arms need not be. -/
def exact (origin : Origin → Origin → Prop) : Likeness where
  type := Eq
  name := Eq
  expr := Eq
  test := Eq
  cause := Eq
  written := Eq
  binder := Eq
  origin := origin

section

variable {origin : Origin → Origin → Prop}

theorem eq_of_paramLike {p p' : String × Ty} (h : (exact origin).ParamLike p p') : p = p' :=
  Prod.ext h.1 h.2

theorem eq_of_entryLike {e e' : String × Ty} (h : (exact origin).EntryLike e e') : e = e' :=
  Prod.ext h.1 h.2

theorem eq_of_signatureLike {F F' : Signature} (h : (exact origin).SignatureLike F F') : F = F' := by
  obtain ⟨generics, params, result⟩ := F
  obtain ⟨generics', params', result'⟩ := F'
  obtain ⟨hgenerics, hparams, rfl⟩ := h
  obtain rfl : generics = generics' := eq_of_forall₂ id hgenerics
  obtain rfl : params = params' := eq_of_forall₂ eq_of_paramLike hparams
  rfl

theorem eq_of_functionLike {f f' : TypedFunction} (h : (exact origin).FunctionLike f f') : f = f' := by
  obtain ⟨signature, params, block⟩ := f
  obtain ⟨signature', params', block'⟩ := f'
  obtain ⟨hsignature, rfl, hblock⟩ := h
  obtain rfl : signature = signature' := eq_of_signatureLike hsignature
  obtain rfl : block = block' := eq_of_forall₂ id hblock
  rfl

theorem eq_of_caseLike {c c' : TypedCase} (h : (exact origin).CaseLike c c') : c = c' := by
  obtain ⟨name, type, test, block⟩ := c
  obtain ⟨name', type', test', block'⟩ := c'
  obtain ⟨rfl, rfl, rfl, hblock⟩ := h
  obtain rfl : block = block' := eq_of_forall₂ id hblock
  rfl

theorem eq_of_coverageLike {c c' : Coverage} (h : (exact origin).CoverageLike c c') : c = c' := by
  obtain ⟨subject, remaining, consumed⟩ := c
  obtain ⟨subject', remaining', consumed'⟩ := c'
  obtain ⟨rfl, hremaining, hconsumed⟩ := h
  obtain rfl : remaining = remaining' := eq_of_forall₂ id hremaining
  obtain rfl : consumed = consumed' := eq_of_forall₂ id hconsumed
  rfl

theorem eq_of_nodeLike {e e' : TypedExpr} (h : (exact origin).NodeLike e e') : e = e' := by
  cases h with
  | literal ht => rw [show _ = _ from ht]
  | access ht he => rw [show _ = _ from ht, show _ = _ from he]
  | invocation ht he hts hargs =>
    rw [show _ = _ from ht, show _ = _ from he, eq_of_forall₂ id hts, eq_of_forall₂ id hargs]
  | function hf => rw [eq_of_functionLike hf]
  | declaration he => rw [show _ = _ from he]
  | conditional ht he hts hes =>
    rw [show _ = _ from ht, show _ = _ from he, eq_of_forall₂ id hts, eq_of_forall₂ id hes]
  | list ht hes => rw [show _ = _ from ht, eq_of_forall₂ id hes]
  | choice ht he hcases hother =>
    rw [show _ = _ from ht, show _ = _ from he, eq_of_forall₂ eq_of_caseLike hcases,
      eq_of_rel (eq_of_forall₂ id) hother]

theorem eq_of_causeLike {c c' : Cause} (h : (exact origin).CauseLike c c') : c = c' := by
  cases h <;> simp_all [exact]

theorem exact_lawful (origin : Origin → Origin → Prop) : (exact origin).Lawful where
  beq := by rintro _ _ _ _ rfl rfl; rfl
  binder h := congrArg Name.text h
  hole := by rintro _ _ rfl; rfl
  span := by rintro _ _ rfl; rfl
  form := by
    rintro t _ rfl
    cases t with
    | var => exact .var
    | named => exact .named (forall₂_refl (fun _ => rfl) _)
    | fn => exact .fn ⟨forall₂_refl (fun _ => rfl) _, forall₂_refl (fun _ => ⟨rfl, rfl⟩) _, rfl⟩
    | union => exact .union (forall₂_refl (fun _ => rfl) _)
  var h := congrArg Ty.var h
  fn h := congrArg Signature.toTy (eq_of_signatureLike h)
  literal _ := rfl
  list h := congrArg Ty.list h
  join h := congrArg Ty.join (eq_of_forall₂ id h)
  resolve := by
    rintro t _ σ σ' rfl hσ
    obtain rfl : σ = σ' := eq_of_forall₂ eq_of_entryLike hσ
    rfl
  assignable := by rintro _ _ _ _ rfl rfl; rfl
  equal := by rintro _ _ _ _ rfl rfl; rfl
  contained := by rintro _ _ _ _ rfl rfl; rfl
  le := by rintro _ _ _ _ rfl rfl; rfl
  mentions := by
    rintro t _ gs gs' rfl hgs
    obtain rfl : gs = gs' := eq_of_forall₂ id hgs
    rfl
  infer := by
    rintro _ _ _ _ _ _ rfl rfl rfl
    exact Alike.refl (E := (exact origin).ErrorLike) (fun _ => rfl) (rel_refl fun _ => rfl) _
  missing h := congrArg (fun c : Coverage => Cause.missingCases c.missing) (eq_of_coverageLike h)
  cause := eq_of_causeLike
  node := eq_of_nodeLike
  ty h := congrArg TypedExpr.ty h

end

/-! ### Terms -/

mutual

/-- A term is like itself. -/
theorem TermLike.refl : ∀ t : Term, (exact Eq).TermLike t t
  | ⟨head, chain, _⟩ => .mk (ExprLike.refl head) (linksLike_refl chain)

theorem linksLike_refl : ∀ links : List Link, List.Forall₂ (exact Eq).LinkLike links links
  | [] => .nil
  | ⟨_, none, _⟩ :: links => .cons (.mk .none) (linksLike_refl links)
  | ⟨_, some args, _⟩ :: links =>
    .cons (.mk (.some (ArgumentsLike.refl args))) (linksLike_refl links)

theorem ArgumentsLike.refl : ∀ args : Arguments, (exact Eq).ArgumentsLike args args
  | ⟨_, items, _⟩ => .mk (forall₂_refl (fun _ => rfl) _) (itemsLike_refl items)

theorem itemsLike_refl : ∀ items : List Argument, List.Forall₂ (exact Eq).ArgumentLike items items
  | [] => .nil
  | ⟨_, value, _⟩ :: items => .cons (.mk (TermLike.refl value)) (itemsLike_refl items)

theorem ExprLike.refl : ∀ head : Expr, (exact Eq).ExprLike head head
  | .literal value span => .literal value span
  | .reference _ none _ => .reference .none
  | .reference _ (some args) _ => .reference (.some (ArgumentsLike.refl args))
  | .lambda function => .lambda (LambdaLike.refl function)
  | .declaration ⟨_, _, _, value, _⟩ => .declaration (rel_refl (fun _ => rfl) _) (TermLike.refl value)
  | .conditional ⟨condition, thenBlock, elseIfs, elseBlock, _⟩ =>
    .conditional (TermLike.refl condition) (termsLike_refl thenBlock) (elseIfsLike_refl elseIfs)
      (termsLike_refl elseBlock)
  | .list _ items _ => .list (forall₂_refl (fun _ => rfl) _) (termsLike_refl items)
  | .when ⟨subject, arms, none, _⟩ => .when (TermLike.refl subject) (armsLike_refl arms) .none
  | .when ⟨subject, arms, some ⟨_, body, _, _⟩, _⟩ =>
    .when (TermLike.refl subject) (armsLike_refl arms)
      (.some (.mk (termsLike_refl body) rfl))

theorem LambdaLike.refl : ∀ function : Lambda, (exact Eq).LambdaLike function function
  | ⟨_, _, _, body, _⟩ =>
    .mk (forall₂_refl (fun _ => rfl) _) (forall₂_refl (fun _ => ⟨rfl, rel_refl (fun _ => rfl) _⟩) _)
      (rel_refl (fun _ => rfl) _) (termsLike_refl body)

theorem termsLike_refl : ∀ ts : List Term, List.Forall₂ (exact Eq).TermLike ts ts
  | [] => .nil
  | t :: ts => .cons (TermLike.refl t) (termsLike_refl ts)

theorem elseIfsLike_refl : ∀ branches : List ElseIf, List.Forall₂ (exact Eq).ElseIfLike branches branches
  | [] => .nil
  | ⟨condition, thenBlock, _⟩ :: branches =>
    .cons (.mk (TermLike.refl condition) (termsLike_refl thenBlock)) (elseIfsLike_refl branches)

theorem armsLike_refl : ∀ arms : List Arm, List.Forall₂ (exact Eq).ArmLike arms arms
  | [] => .nil
  | ⟨_, _, body, _, _⟩ :: arms =>
    .cons (.mk rfl (termsLike_refl body) rfl) (armsLike_refl arms)

end

end Likeness

end UnionChecker.Check
