import UnionChecker.Proofs.Check.Simulated
import UnionChecker.Proofs.Syntax.Blocks
import UnionChecker.Syntax.Construct
/-!
# Where an arm comes from

An arm of a `when` remembers whether it was written or stands for the early exit of a short circuit.
The checker looks at this in one place: a mismatch in an early exit is reported under a kind of its own.
So two terms that differ in the origins of arms at most are checked alike: both are accepted with the
same typed tree, or both are refused for the same reason at the same place, and only the kind of a
mismatch may differ (`checkTerm_origins`).

`Relabels` relates two checks that come to the same but for this kind. A term is compared with the same
term without origins.
-/

namespace UnionChecker

/-! ## Terms without origins -/

namespace Syntax

mutual

/-- The term with all arms as if they were written. -/
def Term.eraseOrigins : Term → Term
  | ⟨head, chain, span⟩ => ⟨Expr.eraseOrigins head, eraseLinks chain, span⟩

def eraseLinks : List Link → List Link
  | [] => []
  | ⟨access, none, span⟩ :: links => ⟨access, none, span⟩ :: eraseLinks links
  | ⟨access, some args, span⟩ :: links =>
    ⟨access, some (Arguments.eraseOrigins args), span⟩ :: eraseLinks links

def Arguments.eraseOrigins : Arguments → Arguments
  | ⟨generics, items, span⟩ => ⟨generics, eraseItems items, span⟩

def eraseItems : List Argument → List Argument
  | [] => []
  | ⟨label, value, span⟩ :: items => ⟨label, Term.eraseOrigins value, span⟩ :: eraseItems items

def Expr.eraseOrigins : Expr → Expr
  | .literal value span => .literal value span
  | .reference name none span => .reference name none span
  | .reference name (some args) span => .reference name (some (Arguments.eraseOrigins args)) span
  | .lambda function => .lambda (Lambda.eraseOrigins function)
  | .declaration ⟨name, type, shortCircuit, value, span⟩ =>
    .declaration ⟨name, type, shortCircuit, Term.eraseOrigins value, span⟩
  | .conditional ⟨condition, thenBlock, elseIfs, elseBlock, span⟩ =>
    .conditional ⟨Term.eraseOrigins condition, eraseTerms thenBlock, eraseElseIfs elseIfs,
      eraseTerms elseBlock, span⟩
  | .list generics items span => .list generics (eraseTerms items) span
  | .when ⟨subject, arms, none, span⟩ =>
    .when ⟨Term.eraseOrigins subject, eraseArms arms, none, span⟩
  | .when ⟨subject, arms, some ⟨name, body, otherSpan, _⟩, span⟩ =>
    .when ⟨Term.eraseOrigins subject, eraseArms arms,
      some ⟨name, eraseTerms body, otherSpan, .source⟩, span⟩

def Lambda.eraseOrigins : Lambda → Lambda
  | ⟨generics, params, result, body, span⟩ => ⟨generics, params, result, eraseTerms body, span⟩

def eraseTerms : List Term → List Term
  | [] => []
  | t :: ts => Term.eraseOrigins t :: eraseTerms ts

def eraseElseIfs : List ElseIf → List ElseIf
  | [] => []
  | ⟨condition, thenBlock, span⟩ :: branches =>
    ⟨Term.eraseOrigins condition, eraseTerms thenBlock, span⟩ :: eraseElseIfs branches

def eraseArms : List Arm → List Arm
  | [] => []
  | ⟨name, type, body, span, _⟩ :: arms =>
    ⟨name, type, eraseTerms body, span, .source⟩ :: eraseArms arms

end

end Syntax

/-! ## Failures under another kind -/

/-- The kind of a mismatch, wherever it comes from. Other kinds stay. -/
def ErrorKind.unlabelled : ErrorKind → ErrorKind
  | .shortCircuitOutsideReturnCompatibleFunction => .typeMismatch
  | kind => kind

/-- The same failure, except that one may be labelled as the early exit of a short circuit where the
other is labelled as a mismatch. -/
structure Failure.Relabels (f g : Failure) : Prop where
  cause : f.cause = g.cause
  file : f.file = g.file
  span : f.span = g.span
  kind : f.kind.unlabelled = g.kind.unlabelled

theorem ErrorKind.eq_or_of_unlabelled {k l : ErrorKind} (h : k.unlabelled = l.unlabelled) :
    k = l ∨ (k = .shortCircuitOutsideReturnCompatibleFunction ∧ l = .typeMismatch) ∨
      (k = .typeMismatch ∧ l = .shortCircuitOutsideReturnCompatibleFunction) := by
  cases k <;> cases l <;> simp_all [unlabelled]

namespace Failure.Relabels

variable {f g k : Failure}

theorem refl (f : Failure) : f.Relabels f := ⟨rfl, rfl, rfl, rfl⟩

theorem symm (h : f.Relabels g) : g.Relabels f :=
  ⟨h.cause.symm, h.file.symm, h.span.symm, h.kind.symm⟩

theorem trans (h : f.Relabels g) (h' : g.Relabels k) : f.Relabels k :=
  ⟨h.cause.trans h'.cause, h.file.trans h'.file, h.span.trans h'.span, h.kind.trans h'.kind⟩

/-- An early exit labels a mismatch, and nothing else. -/
theorem residualFailure (origin : Syntax.Origin) (f : Failure) :
    (Check.residualFailure origin f).Relabels f := by
  unfold Check.residualFailure
  split
  · rename_i h
    simp only [Bool.and_eq_true, beq_iff_eq] at h
    exact ⟨rfl, rfl, rfl, by simp [h.2, ErrorKind.unlabelled]⟩
  · exact .refl f

end Failure.Relabels

namespace Check

open Syntax Likeness

variable {α : Type} {Γ : Context}

/-! ## Checks of terms without origins -/

/-- Both checks come to the same result and the same frames, or fail alike. -/
def Relabels (c c' : Check α) : Prop :=
  ∀ frames, Alike Failure.Relabels Eq (c.run.run frames).1 (c'.run.run frames).1 ∧
    (c.run.run frames).2 = (c'.run.run frames).2

namespace Relabels

variable {c c' c'' : Check α}

theorem symm (h : Relabels c c') : Relabels c' c := fun frames => by
  obtain ⟨hresult, hframes⟩ := h frames
  refine ⟨?_, hframes.symm⟩
  generalize (c.run.run frames).1 = r, (c'.run.run frames).1 = r' at hresult
  cases hresult with
  | ok h => exact .ok h.symm
  | error h => exact .error h.symm

theorem trans (h : Relabels c c') (h' : Relabels c' c'') : Relabels c c'' := fun frames => by
  obtain ⟨hresult, hframes⟩ := h frames
  obtain ⟨hresult', hframes'⟩ := h' frames
  refine ⟨?_, hframes.trans hframes'⟩
  generalize (c.run.run frames).1 = r, (c'.run.run frames).1 = r', (c''.run.run frames).1 = r''
    at hresult hresult'
  cases hresult with
  | ok h => cases hresult' with | ok h' => exact .ok (h.trans h')
  | error h => cases hresult' with | error h' => exact .error (h.trans h')

end Relabels

/-- Everything is the same but for where arms come from. -/
abbrev Likeness.anyOrigin : Likeness := .exact fun _ _ => True

mutual

/-- A term is like itself without origins. -/
theorem like_eraseOrigins : ∀ t : Term, Likeness.anyOrigin.TermLike t t.eraseOrigins
  | ⟨head, chain, _⟩ => .mk (like_eraseExpr head) (like_eraseLinks chain)

theorem like_eraseLinks : ∀ links : List Link,
    List.Forall₂ Likeness.anyOrigin.LinkLike links (eraseLinks links)
  | [] => .nil
  | ⟨_, none, _⟩ :: links => .cons (.mk .none) (like_eraseLinks links)
  | ⟨_, some args, _⟩ :: links => .cons (.mk (.some (like_eraseArguments args))) (like_eraseLinks links)

theorem like_eraseArguments : ∀ args : Arguments,
    Likeness.anyOrigin.ArgumentsLike args args.eraseOrigins
  | ⟨_, items, _⟩ => .mk (forall₂_refl (fun _ => rfl) _) (like_eraseItems items)

theorem like_eraseItems : ∀ items : List Argument,
    List.Forall₂ Likeness.anyOrigin.ArgumentLike items (eraseItems items)
  | [] => .nil
  | ⟨_, value, _⟩ :: items => .cons (.mk (like_eraseOrigins value)) (like_eraseItems items)

theorem like_eraseExpr : ∀ head : Expr, Likeness.anyOrigin.ExprLike head head.eraseOrigins
  | .literal value span => .literal value span
  | .reference _ none _ => .reference .none
  | .reference _ (some args) _ => .reference (.some (like_eraseArguments args))
  | .lambda function => .lambda (like_eraseLambda function)
  | .declaration ⟨_, _, _, value, _⟩ =>
    .declaration (rel_refl (fun _ => rfl) _) (like_eraseOrigins value)
  | .conditional ⟨condition, thenBlock, elseIfs, elseBlock, _⟩ =>
    .conditional (like_eraseOrigins condition) (like_eraseTerms thenBlock)
      (like_eraseElseIfs elseIfs) (like_eraseTerms elseBlock)
  | .list _ items _ => .list (forall₂_refl (fun _ => rfl) _) (like_eraseTerms items)
  | .when ⟨subject, arms, none, _⟩ => .when (like_eraseOrigins subject) (like_eraseArms arms) .none
  | .when ⟨subject, arms, some ⟨_, body, _, _⟩, _⟩ =>
    .when (like_eraseOrigins subject) (like_eraseArms arms)
      (.some (.mk (like_eraseTerms body) trivial))

theorem like_eraseLambda : ∀ function : Lambda,
    Likeness.anyOrigin.LambdaLike function function.eraseOrigins
  | ⟨_, _, _, body, _⟩ =>
    .mk (forall₂_refl (fun _ => rfl) _) (forall₂_refl (fun _ => ⟨rfl, rel_refl (fun _ => rfl) _⟩) _)
      (rel_refl (fun _ => rfl) _) (like_eraseTerms body)

theorem like_eraseTerms : ∀ ts : List Term,
    List.Forall₂ Likeness.anyOrigin.TermLike ts (eraseTerms ts)
  | [] => .nil
  | t :: ts => .cons (like_eraseOrigins t) (like_eraseTerms ts)

theorem like_eraseElseIfs : ∀ branches : List ElseIf,
    List.Forall₂ Likeness.anyOrigin.ElseIfLike branches (eraseElseIfs branches)
  | [] => .nil
  | ⟨condition, thenBlock, _⟩ :: branches =>
    .cons (.mk (like_eraseOrigins condition) (like_eraseTerms thenBlock))
      (like_eraseElseIfs branches)

theorem like_eraseArms : ∀ arms : List Arm,
    List.Forall₂ Likeness.anyOrigin.ArmLike arms (eraseArms arms)
  | [] => .nil
  | ⟨_, _, body, _, _⟩ :: arms => .cons (.mk rfl (like_eraseTerms body) trivial) (like_eraseArms arms)

end

/-- The same result and frames, or failures that differ in their kind at most. -/
def Simulation.relabels : Simulation where
  frames := Eq
  step _ _ := True
  inner _ _ := True
  failure := Failure.Relabels
  excused _ := False

theorem reads_relabels : Simulation.relabels.Reads Likeness.anyOrigin Γ Γ where
  likeness := exact_lawful _
  refl _ := trivial
  trans _ _ := trivial
  failure := by
    rintro cause _ rfl span
    exact .inr (.refl _)
  type := by
    rintro frames _ rfl gs gs' hgs type _ rfl
    obtain rfl : gs = gs' := eq_of_forall₂ id hgs
    exact .inr (Alike.refl .refl (fun _ => rfl) _)

theorem follows_relabels : Simulation.relabels.Follows Likeness.anyOrigin Γ Γ where
  toReads := reads_relabels
  inner_refl _ := trivial
  inner_trans _ _ := trivial
  inner_of_step _ := trivial
  step_of_inner _ := trivial
  push := congrArg Frames.push
  pop := congrArg Frames.pop
  -- the one place where the origin of an arm is seen
  relabel _ f f' hf := (Failure.Relabels.residualFailure _ f).trans
    (hf.trans (Failure.Relabels.residualFailure _ f').symm)
  excuse h _ := h
  identifier _ := simulates_self rfl Failure.Relabels.refl fun _ => trivial
  define _ _ _ ht := ht ▸ simulates_sameChange reads_relabels rfl fun _ => trivial
  generic hx := hx ▸ simulates_sameChange reads_relabels rfl fun _ => trivial
  fields := rel_fieldsOf fun _ _ => rfl
  tests := alike_tests fun _ => rfl

/-- **A term is checked as the same term without origins.** -/
theorem relabels_checkTerm (t : Term) (expected : Option Ty) :
    Relabels (checkTerm Γ t expected) (checkTerm Γ t.eraseOrigins expected) := by
  intro frames
  have h := simulates_checkTerm (Γ := Γ) follows_relabels t (like_eraseOrigins t)
    (rel_refl (fun _ => rfl) expected)
  rcases h frames frames rfl with ⟨_, _, hexcused⟩ | ⟨hresult, hinner, -⟩
  · exact hexcused.elim
  · exact ⟨hresult, hinner⟩

/-- **Sugar and a written `when` are checked alike.** Two terms that differ in the origins of arms at
most are both accepted, with the same typed tree and the same scope after it, or both refused with the
same message at the same place. The kinds of the two failures are equal, or one names the early exit of
a short circuit where the other names a mismatch. -/
theorem checkTerm_origins {t t' : Term} (h : t.eraseOrigins = t'.eraseOrigins) (Γ : Context)
    (expected : Option Ty) (frames : Frames) :
    (∃ e inner, Runs (checkTerm Γ t expected) frames e inner ∧
      Runs (checkTerm Γ t' expected) frames e inner) ∨
    ∃ f f', Fails (checkTerm Γ t expected) frames f ∧ Fails (checkTerm Γ t' expected) frames f' ∧
      f.message = f'.message ∧ f.file = f'.file ∧ f.span = f'.span ∧
      (f.kind = f'.kind ∨
        (f.kind = .shortCircuitOutsideReturnCompatibleFunction ∧ f'.kind = .typeMismatch) ∨
        (f.kind = .typeMismatch ∧ f'.kind = .shortCircuitOutsideReturnCompatibleFunction)) := by
  have hboth : Relabels (checkTerm Γ t expected) (checkTerm Γ t' expected) :=
    (relabels_checkTerm t expected).trans (h ▸ (relabels_checkTerm t' expected).symm)
  obtain ⟨hresult, hframes⟩ := hboth frames
  unfold Runs Fails
  generalize (checkTerm Γ t expected).run.run frames = r,
    (checkTerm Γ t' expected).run.run frames = r' at hresult hframes
  obtain ⟨result, inner⟩ := r
  obtain ⟨result', inner'⟩ := r'
  obtain rfl : inner = inner' := hframes
  cases hresult with
  | @ok e e' he =>
    obtain rfl : e = e' := he
    exact .inl ⟨e, inner, rfl, rfl⟩
  | @error f f' hf =>
    exact .inr ⟨f, f', rfl, rfl, congrArg Cause.message hf.cause, hf.file, hf.span,
      ErrorKind.eq_or_of_unlabelled hf.kind⟩

/-- `x: Int ?= n`. -/
def integerOnly : Declaration :=
  ⟨.plain "x", some (.named "Int" []), some ⟨none, .zero⟩, .var "n", .zero⟩

/-- `when n { is x: Int => x, other x => x }`. -/
def integerArm : Term :=
  .choose (.var "n") [.plain (some "x") (.named "Int" []) [.var "x"]]
    (some (.plain (some "x") [.var "x"]))

def threeTypes : Ty := .union [.boolean, .int, .string]

def threeContext : Context := ⟨.empty "main", "main", []⟩

def threeFrames : Frames := [⟨[("n", threeTypes)], []⟩]

def exitFailure (kind : ErrorKind) : Failure :=
  ⟨kind, .mismatch .int (.union [.boolean, .string]), "main", .zero⟩

/-- Where a boolean, an integer or a text is wanted, the short circuit and the written `when` have one
typed tree. Where an integer is wanted, one is refused as a short circuit and the other as a
mismatch. -/
theorem checkTerm_origins_integerOnly :
    desugarBlock "main" [.ofExpr (.declaration integerOnly), .var "x"] =
      .ok [integerOnly.choice [.var "x"]] ∧
    (integerOnly.choice [.var "x"]).eraseOrigins = integerArm.eraseOrigins ∧
    (∃ e inner, Runs (checkTerm threeContext (integerOnly.choice [.var "x"]) (some threeTypes))
        threeFrames e inner ∧
      Runs (checkTerm threeContext integerArm (some threeTypes)) threeFrames e inner) ∧
    ∃ f f', Fails (checkTerm threeContext (integerOnly.choice [.var "x"]) (some .int)) threeFrames f ∧
      Fails (checkTerm threeContext integerArm (some .int)) threeFrames f' ∧
      f.message = f'.message ∧ f.kind = .shortCircuitOutsideReturnCompatibleFunction ∧
      f'.kind = .typeMismatch := by
  have hsame : (integerOnly.choice [.var "x"]).eraseOrigins = integerArm.eraseOrigins := by
    with_unfolding_all rfl
  refine ⟨by with_unfolding_all rfl, hsame, ?_, ?_⟩
  · have hruns : Runs (checkTerm threeContext integerArm (some threeTypes)) threeFrames
        (.choice threeTypes (.reference threeTypes none "n")
          [⟨some "x", .int, .tag ⟨"", "Int"⟩ [], [.reference .int none "x"]⟩]
          (some [.reference (.union [.boolean, .string]) none "x"]) (some "x")) threeFrames := by
      with_unfolding_all rfl
    obtain h | ⟨f, f', -, hf', -⟩ := checkTerm_origins hsame threeContext (some threeTypes) threeFrames
    · exact h
    · rw [Fails, hruns] at hf'
      cases hf'
  · have hsugar : Fails (checkTerm threeContext (integerOnly.choice [.var "x"]) (some .int))
        threeFrames (exitFailure .shortCircuitOutsideReturnCompatibleFunction) := by
      with_unfolding_all rfl
    have hwritten : Fails (checkTerm threeContext integerArm (some .int)) threeFrames
        (exitFailure .typeMismatch) := by
      with_unfolding_all rfl
    obtain ⟨e, inner, he, -⟩ | ⟨f, f', hf, hf', hmessage, -⟩ :=
      checkTerm_origins hsame threeContext (some .int) threeFrames
    · rw [Fails, he] at hsugar
      cases hsugar
    · obtain rfl := Except.error.inj (hf.symm.trans hsugar)
      obtain rfl := Except.error.inj (hf'.symm.trans hwritten)
      exact ⟨_, _, hsugar, hwritten, hmessage, rfl, rfl⟩

end Check

end UnionChecker
