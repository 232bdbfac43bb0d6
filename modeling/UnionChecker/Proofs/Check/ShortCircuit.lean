import UnionChecker.Proofs.Check.ArmOrder
import UnionChecker.Proofs.Partition
import UnionChecker.Proofs.Syntax.Blocks
/-!
# The typing rule of short circuits

A short circuit `x: T ? R = v` in front of a block is expanded into a `when` over `v` before
anything is checked. What the expanded block asks can be said about the block as it was written: the
type of `v` is divided into what goes on and what leaves the block (`Divides`), the part that leaves
is assignable to the type wanted of the block, and the rest of the block checks with `x` bound to
the part that goes on.
-/

namespace UnionChecker

/-- The union of the members of `a` that equal no member of `b`. -/
def Ty.without (a b : Ty) : Ty := .join (a.members.filter fun m => !b.members.any (m.equal ·))

namespace Check

open Syntax Coverage
open Ty (containedIn containedIn_iff)

variable {Γ : Context} {frames frames' inner : Frames} {frame : Frame} {rest : Frames} {span : Span}
  {expected : Option Ty}

/-! ## Blocks and arms -/

/-- A block checks against a type. -/
def Accepts (Γ : Context) (frames : Frames) (block : List Term) (wanted : Ty) (span : Span) :
    Prop :=
  ∃ es inner, Runs (blockOf Γ block (some wanted) span (checkStatements Γ block (some wanted)))
    frames es inner

/-- A block is refused at a type. -/
def Refuses (Γ : Context) (frames : Frames) (block : List Term) (wanted : Ty) (span : Span)
    (f : Failure) : Prop :=
  Fails (blockOf Γ block (some wanted) span (checkStatements Γ block (some wanted))) frames f

/-- A frame of its own that binds one name. -/
def binding (x : Name) (t : Ty) : Frame := ⟨[(x.text, t)], []⟩

/-- A written type stands for a type that values can be tested for. -/
def Matchable (Γ : Context) (frames : Frames) (type : TypeExpr) (t : Ty) : Prop :=
  Γ.resolveType frames [] type = .ok t ∧
    ∃ test, Discriminator.ofTy Γ.table.matchFields t = .ok test

variable {x : Name} {body : List Term} {wanted : Ty} {origin : Origin}

theorem define_fresh (hx : x.text ≠ "_") (t : Ty) :
    frames.push.defineValue x.text t = some (binding x t :: frames) := by
  simp [Frames.push, Frames.defineValue, Frames.innermost, Frames.modifyInnermost, hasKey, put,
    binding, hx]

theorem exists_runs_armBody (origin : Origin) (hx : x.text ≠ "_") {t : Ty} :
    (∃ es inner, Runs (armBody Γ (some x) t origin
      (blockOf Γ body (some wanted) span (checkStatements Γ body (some wanted)))) frames es inner) ↔
      Accepts Γ (binding x t :: frames) body wanted span := by
  simp only [runs_armBody, bindOptional, define_fresh hx, Option.some.injEq]
  constructor
  · rintro ⟨es, _, _, inner, rfl, hbody, rfl⟩
    exact ⟨es, inner, hbody⟩
  · rintro ⟨es, inner, hbody⟩
    exact ⟨es, _, _, inner, rfl, hbody, rfl⟩

theorem exists_armRun (origin : Origin) (hx : x.text ≠ "_") {type : TypeExpr} {t : Ty} :
    (∃ result, ArmRun Γ (some wanted) (frame :: rest) ⟨some x, type, body, span, origin⟩ result ∧
      result.type = t) ↔
      Matchable Γ (frame :: rest) type t ∧
        Accepts Γ (binding x t :: frame :: rest) body wanted span := by
  rw [← exists_runs_armBody origin hx]
  constructor
  · rintro ⟨⟨_, t, test, block⟩, ⟨ht, htest, hblock, -⟩, rfl⟩
    exact ⟨⟨ht, test, htest⟩, block, _, hblock⟩
  · rintro ⟨⟨ht, test, htest⟩, block, inner, hblock⟩
    obtain rfl := frames_of_armBody hblock
    exact ⟨⟨some x.text, t, test, block⟩, ⟨ht, htest, hblock, rfl⟩, rfl⟩

theorem exists_otherRun (hx : x.text ≠ "_") {coverage : Coverage} :
    (∃ block final frames', OtherRun Γ (some wanted) coverage frames
      (some ⟨some x, body, span, origin⟩) block final frames' ∧ final.missing = []) ↔
      Accepts Γ (binding x (.join coverage.remaining) :: frames) body wanted span := by
  rw [← exists_runs_armBody origin hx]
  constructor
  · rintro ⟨_, _, _, ⟨⟩ | ⟨hblock⟩, -⟩
    exact ⟨_, _, hblock⟩
  · rintro ⟨block, inner, hblock⟩
    exact ⟨_, _, _, .some hblock, missing_eq_nil_iff.2 rfl⟩

theorem accepts_singleton {t : Term} : Accepts Γ frames [t] wanted span ↔
    ∃ e inner, Runs (checkTerm Γ t (some wanted)) frames e inner := by
  simp only [Accepts, runs_blockOf, runs_checkStatements_cons, runs_checkStatements_nil]
  constructor
  · rintro ⟨es, inner, ⟨h, -⟩ | ⟨-, e, _, _, he, -⟩⟩
    · cases h
    · exact ⟨e, _, he⟩
  · rintro ⟨e, inner, he⟩
    exact ⟨_, _, .inr ⟨List.cons_ne_nil _ _, e, inner, [], he, ⟨rfl, rfl⟩, rfl⟩⟩

/-- A block of one `when`: the value, then the arms one by one, then the `other` arm. -/
theorem accepts_when {subject : Term} {arms : List Arm} {other : Option Otherwise}
    {place outer : Span} :
    Accepts Γ (frame :: rest) [⟨.when ⟨subject, arms, other, span⟩, [], place⟩] wanted outer ↔
      ∃ e inner cases coverage, Runs (checkTerm Γ subject none) (frame :: rest) e inner ∧
        List.Forall₂ (ArmRun Γ (some wanted) inner) arms cases ∧
        (cases.map (·.type)).foldlM consume (ofTy e.ty) = .ok coverage ∧
        ∃ block final frames', OtherRun Γ (some wanted) coverage inner other block final frames' ∧
          final.missing = [] := by
  simp only [accepts_singleton, runs_checkTerm_head, runs_checkExpr_when]
  constructor
  · rintro ⟨_, _, ⟨e, cases, block, coverage, final, inner, inner', he, harms, hother, hfinal, rfl⟩,
      -⟩
    obtain ⟨frame', rfl, -⟩ := local_checkTerm subject none _ _ _ _ he
    obtain ⟨hcases, hcoverage, rfl⟩ := runs_checkArms.1 harms
    exact ⟨e, _, cases, coverage, he, hcases, hcoverage, block, final, _, hother, hfinal⟩
  · rintro ⟨e, inner, cases, coverage, he, hcases, hcoverage, block, final, frames', hother, hfinal⟩
    obtain ⟨frame', rfl, -⟩ := local_checkTerm subject none _ _ _ _ he
    have harms := runs_checkArms.2 ⟨hcases, hcoverage, rfl⟩
    exact ⟨_, _, ⟨e, cases, block, coverage, final, _, _, he, harms, hother, hfinal, rfl⟩,
      fits_some.2 (Ty.isAssignable_refl wanted)⟩

/-- How a `when` fails whose first arm has a body that fails. -/
theorem refuses_when_arm {subject : Term} {type : TypeExpr} {arms : List Arm}
    {other : Option Otherwise} {place outer : Span} {e : TypedExpr} {t : Ty} {f : Failure}
    (he : Runs (checkTerm Γ subject none) frames e inner) (ht : Matchable Γ inner type t)
    (hsub : containedIn t e.ty = true)
    (hbody : Fails (armBody Γ (some x) t origin
      (blockOf Γ body (some wanted) span (checkStatements Γ body (some wanted)))) inner f) :
    Refuses Γ frames
      [⟨.when ⟨subject, ⟨some x, type, body, span, origin⟩ :: arms, other, span⟩, [], place⟩]
      wanted outer f := by
  obtain ⟨ht, test, htest⟩ := ht
  obtain ⟨c, hc⟩ := (splits_ofTy e.ty).consume_isOk_iff.2 (containedIn_iff.1 hsub)
  have harms : Fails (checkArms Γ (⟨some x, type, body, span, origin⟩ :: arms) (.ofTy e.ty)
      (some wanted)) inner f := by
    rw [checkArms]
    refine (runs_resolve.2 ⟨ht, rfl⟩).bind_fails ((runs_ofAlgebra.2 ⟨htest, rfl⟩).bind_fails ?_)
    exact (runs_ofExcept.2 ⟨mapError_eq_ok.2 hc, rfl⟩).bind_fails (hbody.bind _)
  show Fails (checkStatements Γ [_] (some wanted)) frames f
  rw [checkStatements, checkTerm, checkExpr]
  exact ((he.bind_fails (harms.bind _)).bind _).bind _

/-- How a `when` fails whose `other` arm has a body that fails. -/
theorem refuses_when_other {subject : Term} {arms : List Arm} {place outer : Span} {e : TypedExpr}
    {cases : List TypedCase} {coverage : Coverage} {f : Failure}
    (he : Runs (checkTerm Γ subject none) frames e inner)
    (harms : Runs (checkArms Γ arms (.ofTy e.ty) (some wanted)) inner (cases, coverage) inner)
    (hbody : Fails (armBody Γ (some x) (.join coverage.remaining) origin
      (blockOf Γ body (some wanted) span (checkStatements Γ body (some wanted)))) inner f) :
    Refuses Γ frames
      [⟨.when ⟨subject, arms, some ⟨some x, body, span, origin⟩, span⟩, [], place⟩]
      wanted outer f := by
  show Fails (checkStatements Γ [_] (some wanted)) frames f
  rw [checkStatements, checkTerm, checkExpr]
  exact ((he.bind_fails (harms.bind_fails ((hbody.bind _).bind _))).bind _).bind _

/-! ## The early exit -/

/-- The residual cannot be returned from the block. -/
def outsideFailure (Γ : Context) (x : Name) (wanted residual : Ty) : Failure :=
  ⟨.shortCircuitOutsideReturnCompatibleFunction, .mismatch wanted residual, Γ.file, x.span⟩

theorem runs_binding {t : Ty} {e : TypedExpr} :
    Runs (checkExpr Γ (.reference x none span) expected) (binding x t :: frames) e frames' ↔
      e = .reference t none x.text ∧ frames' = binding x t :: frames := by
  have hfound : Γ.resolveValue (binding x t :: frames) x.text = .ok ⟨t, none, x.text⟩ := by
    simp [Context.resolveValue, Frames.value?, binding]
  rw [runs_checkExpr_reference, runs_identifier]
  constructor
  · rintro ⟨found, h, rfl, rfl⟩
    rw [hfound] at h
    cases h
    exact ⟨rfl, rfl⟩
  · rintro ⟨rfl, rfl⟩
    exact ⟨_, hfound, rfl, rfl⟩

theorem accepts_exit {r : Ty} :
    Accepts Γ (binding x r :: frames) [Term.ofName x] wanted span ↔
      r.isAssignable wanted = true := by
  rw [accepts_singleton, Term.ofName, Term.ofExpr]
  simp only [runs_checkTerm_head, runs_binding]
  constructor
  · rintro ⟨_, _, ⟨rfl, -⟩, hfits⟩
    exact fits_some.1 hfits
  · intro h
    exact ⟨_, _, ⟨rfl, rfl⟩, fits_some.2 h⟩

/-- The exit fails with a mismatch, and its arm reports it under a kind of its own. -/
theorem fails_exit (hx : x.text ≠ "_") {r : Ty} (h : r.isAssignable wanted = false) :
    Fails (armBody Γ (some x) r .shortCircuitResidual (blockOf Γ [Term.ofName x] (some wanted) span
      (checkStatements Γ [Term.ofName x] (some wanted)))) frames (outsideFailure Γ x wanted r) := by
  have hexit : Fails (checkStatements Γ [Term.ofName x] (some wanted)) (binding x r :: frames)
      (Γ.failure (.mismatch wanted r) x.span) := by
    rw [checkStatements, Term.ofName, Term.ofExpr, checkTerm]
    refine Fails.bind ((runs_binding.2 ⟨rfl, rfl⟩).bind_fails (Fails.bind ?_ _)) _
    simp only [List.isEmpty_nil, if_true, requireExpected, requireAssignable, TypedExpr.ty, h]
    exact fails_fail
  have hbody : Fails (do
      define Γ x r
      checkStatements Γ [Term.ofName x] (some wanted)) frames.push
      (Γ.failure (.mismatch wanted r) x.span) :=
    Runs.bind_fails (a := ()) (runs_define.2 (define_fresh hx r)) hexit
  exact hbody.inFrame.mapFailure (residualFailure .shortCircuitResidual)

/-! ## The rule -/

/-- How the types written at a short circuit divide the type `subject` of its value into what goes
on and what leaves the block. A type that is not written is what the other one leaves. -/
inductive Divides (Γ : Context) (frames : Frames) (subject : Ty) :
    (success residual : Option TypeExpr) → Ty → Ty → Prop
  | success {type : TypeExpr} {t : Ty} (ht : Matchable Γ frames type t)
      (hsub : containedIn t subject = true) :
      Divides Γ frames subject (some type) none t (subject.without t)
  | residual {type : TypeExpr} {r : Ty} (hr : Matchable Γ frames type r)
      (hsub : containedIn r subject = true) :
      Divides Γ frames subject none (some type) (subject.without r) r
  | both {type type' : TypeExpr} {t r : Ty} (ht : Matchable Γ frames type t)
      (hr : Matchable Γ frames type' r) (htsub : containedIn t subject = true)
      (hrsub : containedIn r subject = true) (hapart : Apart r t)
      (hcover : ∀ m ∈ subject.members, ∃ n ∈ r.members ++ t.members, n.equal m = true) :
      Divides Γ frames subject (some type) (some type') t r

/-- An arm is taken when the subject contains it, and then leaves the rest of the subject. -/
theorem consume_one {subject t r : Ty} :
    (∃ c, [t].foldlM consume (ofTy subject) = .ok c ∧ .join c.remaining = r) ↔
      containedIn t subject = true ∧ subject.without t = r := by
  simp only [foldlM_consume_eq_ok (splits_ofTy subject), List.forall_mem_singleton,
    List.pairwise_singleton, containedIn_iff, true_and]
  constructor
  · rintro ⟨_, ⟨hsub, rfl⟩, rfl⟩
    exact ⟨hsub, by simp [Ty.without, ofTy]⟩
  · rintro ⟨hsub, rfl⟩
    exact ⟨_, ⟨hsub, rfl⟩, by simp [Ty.without, ofTy]⟩

/-- Two arms are taken and leave nothing when the subject contains both, they have no common member,
and each member of the subject is one of them. -/
theorem consume_two {subject r t : Ty} :
    (∃ c, [r, t].foldlM consume (ofTy subject) = .ok c ∧ c.missing = []) ↔
      containedIn r subject = true ∧ containedIn t subject = true ∧ Apart r t ∧
        ∀ m ∈ subject.members, ∃ n ∈ r.members ++ t.members, n.equal m = true := by
  have hleft : ∀ {c : Coverage}, [r, t].foldlM consume (ofTy subject) = .ok c →
      (c.missing = [] ↔ ∀ m ∈ subject.members, ∃ n ∈ r.members ++ t.members, n.equal m = true) := by
    intro c hc
    rw [missing_eq_nil_iff, List.eq_nil_iff_forall_not_mem]
    simp only [mem_remaining_arms hc, not_and, not_not]
    refine forall₂_congr fun m hm => ?_
    simp [or_and_right, exists_or]
  constructor
  · rintro ⟨c, hc, hmissing⟩
    have hsub := contained_arms hc
    obtain ⟨-, hapart, -⟩ := (foldlM_consume_eq_ok (splits_ofTy subject)).1 hc
    exact ⟨hsub r (by simp), hsub t (by simp), List.pairwise_pair.1 hapart, (hleft hc).1 hmissing⟩
  · rintro ⟨hr, ht, hapart, hcover⟩
    have hc := (foldlM_consume_eq_ok (splits_ofTy subject)).2
      ⟨by simpa using ⟨containedIn_iff.1 hr, containedIn_iff.1 ht⟩, List.pairwise_pair.2 hapart,
        rfl⟩
    exact ⟨_, hc, (hleft hc).2 hcover⟩

/-- A `when` with one arm and an `other` arm, both of which bind the value. -/
theorem accepts_arm_other (hx : x.text ≠ "_") {subject : Term} {type : TypeExpr}
    {body' : List Term} {origin' : Origin} {place outer : Span} :
    Accepts Γ (frame :: rest) [⟨.when ⟨subject, [⟨some x, type, body, span, origin⟩],
        some ⟨some x, body', span, origin'⟩, span⟩, [], place⟩] wanted outer ↔
      ∃ e inner t, Runs (checkTerm Γ subject none) (frame :: rest) e inner ∧
        Matchable Γ inner type t ∧ containedIn t e.ty = true ∧
        Accepts Γ (binding x t :: inner) body wanted span ∧
        Accepts Γ (binding x (e.ty.without t) :: inner) body' wanted span := by
  rw [accepts_when]
  constructor
  · rintro ⟨e, inner, cases, c, he, harms, hc, hother⟩
    obtain ⟨frame', rfl, -⟩ := local_checkTerm subject none _ _ _ _ he
    obtain ⟨result, _, harm, hnil, rfl⟩ := List.forall₂_cons_left_iff.1 harms
    cases hnil
    obtain ⟨ht, hbody⟩ := (exists_armRun _ hx).1 ⟨result, harm, rfl⟩
    obtain ⟨hsub, hrest⟩ := consume_one.1 ⟨c, hc, rfl⟩
    exact ⟨e, _, result.type, he, ht, hsub, hbody, hrest ▸ (exists_otherRun hx).1 hother⟩
  · rintro ⟨e, inner, t, he, ht, hsub, hbody, hbody'⟩
    obtain ⟨frame', rfl, -⟩ := local_checkTerm subject none _ _ _ _ he
    obtain ⟨result, harm, rfl⟩ := (exists_armRun origin hx).2 ⟨ht, hbody⟩
    obtain ⟨c, hc, hrest⟩ := consume_one.2 ⟨hsub, rfl⟩
    exact ⟨e, _, [result], c, he, .cons harm .nil, hc, (exists_otherRun hx).2 (hrest ▸ hbody')⟩

/-- A `when` with two arms that bind the value. -/
theorem accepts_two_arms (hx : x.text ≠ "_") {subject : Term} {type type' : TypeExpr}
    {body' : List Term} {origin' : Origin} {place outer : Span} :
    Accepts Γ (frame :: rest) [⟨.when ⟨subject, [⟨some x, type, body, span, origin⟩,
        ⟨some x, type', body', span, origin'⟩], none, span⟩, [], place⟩] wanted outer ↔
      ∃ e inner t t', Runs (checkTerm Γ subject none) (frame :: rest) e inner ∧
        Matchable Γ inner type t ∧ Matchable Γ inner type' t' ∧
        (∃ c, [t, t'].foldlM consume (ofTy e.ty) = .ok c ∧ c.missing = []) ∧
        Accepts Γ (binding x t :: inner) body wanted span ∧
        Accepts Γ (binding x t' :: inner) body' wanted span := by
  rw [accepts_when]
  constructor
  · rintro ⟨e, inner, cases, c, he, harms, hc, _, _, _, ⟨⟩, hmissing⟩
    obtain ⟨frame', rfl, -⟩ := local_checkTerm subject none _ _ _ _ he
    obtain ⟨result, _, harm, hrest, rfl⟩ := List.forall₂_cons_left_iff.1 harms
    obtain ⟨result', _, harm', hnil, rfl⟩ := List.forall₂_cons_left_iff.1 hrest
    cases hnil
    obtain ⟨ht, hbody⟩ := (exists_armRun _ hx).1 ⟨result, harm, rfl⟩
    obtain ⟨ht', hbody'⟩ := (exists_armRun _ hx).1 ⟨result', harm', rfl⟩
    exact ⟨e, _, result.type, result'.type, he, ht, ht', ⟨c, hc, hmissing⟩, hbody, hbody'⟩
  · rintro ⟨e, inner, t, t', he, ht, ht', ⟨c, hc, hmissing⟩, hbody, hbody'⟩
    obtain ⟨frame', rfl, -⟩ := local_checkTerm subject none _ _ _ _ he
    obtain ⟨result, harm, rfl⟩ := (exists_armRun origin hx).2 ⟨ht, hbody⟩
    obtain ⟨result', harm', rfl⟩ := (exists_armRun origin' hx).2 ⟨ht', hbody'⟩
    exact ⟨e, _, [result, result'], c, he, .cons harm (.cons harm' .nil), hc, _, _, _, .none,
      hmissing⟩

/-- The premises of the rule but for the exit: the value checks, the written types divide its type,
and the rest of the block checks with `x` bound to what goes on. -/
def PassesOn (Γ : Context) (frames : Frames) (x : Name) (success residual : Option TypeExpr)
    (value : Term) (rest : List Term) (wanted : Ty) (span : Span) (t r : Ty) : Prop :=
  ∃ e inner, Runs (checkTerm Γ value none) frames e inner ∧
    Divides Γ inner e.ty success residual t r ∧ Accepts Γ (binding x t :: inner) rest wanted span

variable {file : String} {success residual : Option TypeExpr} {value : Term} {block : List Term}
  {outer : Span}

theorem accepts_shortCircuitTerm (file : String) (outer : Span) (hx : x.text ≠ "_") :
    (∃ t, shortCircuitTerm file x success residual value block span = .ok t ∧
      Accepts Γ (frame :: rest) [t] wanted outer) ↔
      ∃ t r, PassesOn Γ (frame :: rest) x success residual value block wanted span t r ∧
        r.isAssignable wanted = true := by
  have hname : (x.text == "_") = false := by simpa using hx
  cases success with
  | none =>
    cases residual with
    | none =>
      refine iff_of_false ?_ ?_
      · rintro ⟨_, h, -⟩
        cases h
      · rintro ⟨_, _, ⟨_, _, _, hdivides, _⟩, _⟩
        cases hdivides
    | some type =>
      simp only [shortCircuitTerm, hname, Bool.false_eq_true, if_false, Except.ok.injEq,
        exists_eq_left', accepts_arm_other hx, accepts_exit]
      constructor
      · rintro ⟨e, inner, r, he, hr, hsub, hexit, hblock⟩
        exact ⟨_, r, ⟨e, inner, he, .residual hr hsub, hblock⟩, hexit⟩
      · rintro ⟨_, _, ⟨e, inner, he, ⟨⟩ | ⟨hr, hsub⟩, hblock⟩, hexit⟩
        exact ⟨e, inner, _, he, hr, hsub, hexit, hblock⟩
  | some type =>
    cases residual with
    | none =>
      simp only [shortCircuitTerm, hname, Bool.false_eq_true, if_false, Except.ok.injEq,
        exists_eq_left', accepts_arm_other hx, accepts_exit]
      constructor
      · rintro ⟨e, inner, t, he, ht, hsub, hblock, hexit⟩
        exact ⟨t, _, ⟨e, inner, he, .success ht hsub, hblock⟩, hexit⟩
      · rintro ⟨_, _, ⟨e, inner, he, ⟨ht, hsub⟩, hblock⟩, hexit⟩
        exact ⟨e, inner, _, he, ht, hsub, hblock, hexit⟩
    | some type' =>
      simp only [shortCircuitTerm, hname, Bool.false_eq_true, if_false, Except.ok.injEq,
        exists_eq_left', accepts_two_arms hx, accepts_exit, consume_two]
      constructor
      · rintro ⟨e, inner, r, t, he, hr, ht, ⟨hrsub, htsub, hapart, hcover⟩, hexit, hblock⟩
        exact ⟨t, r, ⟨e, inner, he, .both ht hr htsub hrsub hapart hcover, hblock⟩, hexit⟩
      · rintro ⟨t, r, ⟨e, inner, he, ⟨⟩ | ⟨⟩ | ⟨ht, hr, htsub, hrsub, hapart, hcover⟩, hblock⟩,
          hexit⟩
        exact ⟨e, inner, r, t, he, hr, ht, ⟨hrsub, htsub, hapart, hcover⟩, hexit, hblock⟩

theorem refuses_shortCircuitTerm (file : String) (hx : x.text ≠ "_") {t r : Ty}
    (hpasses : PassesOn Γ (frame :: rest) x success residual value block wanted span t r)
    (hr : r.isAssignable wanted = false) :
    ∃ b, shortCircuitTerm file x success residual value block span = .ok b ∧
      Refuses Γ (frame :: rest) [b] wanted outer (outsideFailure Γ x wanted r) := by
  have hname : (x.text == "_") = false := by simpa using hx
  obtain ⟨e, inner, he, hdivides, hblock⟩ := hpasses
  obtain ⟨frame', rfl, -⟩ := local_checkTerm value none _ _ _ _ he
  simp only [shortCircuitTerm, hname, Bool.false_eq_true, if_false]
  cases hdivides with
  | success ht hsub =>
    -- the rest of the block checks, and the exit is the `other` arm
    obtain ⟨result, harm, rfl⟩ := (exists_armRun _ hx).2 ⟨ht, hblock⟩
    obtain ⟨c, hc, hrest⟩ := consume_one.2 ⟨hsub, rfl⟩
    rw [← hrest] at hr ⊢
    exact ⟨_, rfl, refuses_when_other he (runs_checkArms.2 ⟨.cons harm .nil, hc, rfl⟩)
      (fails_exit hx hr)⟩
  | residual hmatch hsub => exact ⟨_, rfl, refuses_when_arm he hmatch hsub (fails_exit hx hr)⟩
  | both ht hmatch htsub hsub => exact ⟨_, rfl, refuses_when_arm he hmatch hsub (fails_exit hx hr)⟩

theorem desugarBlock_shortCircuit {value' : Term} {block' : List Term} {place place' : Span}
    (hvalue : desugarTerm file value = .ok value') (hblock : desugarBlock file block = .ok block') :
    desugarBlock file
      (⟨.declaration ⟨x, success, some ⟨residual, place⟩, value, span⟩, [], place'⟩ :: block) =
        (shortCircuitTerm file x success residual value' block' span).map ([·]) := by
  simp [desugarBlock_cons, desugarTerm, desugarExpr, desugarDeclaration, desugarLinks, hvalue, hblock,
    bind, Except.bind, Except.map, pure, Except.pure, prependStatement]

/-- **The typing rule of short circuits.** The expanded block checks against `wanted` exactly when
the value checks, the written types divide its type, what leaves is assignable to `wanted`, and the
rest of the block checks with `x` bound to what goes on. When only what leaves does not fit, the
failure has a kind of its own and names both types. -/
theorem accepts_shortCircuit {value' : Term} {block' : List Term} {place place' : Span}
    (hx : x.text ≠ "_") (hvalue : desugarTerm file value = .ok value')
    (hblock : desugarBlock file block = .ok block') :
    let expanded := desugarBlock file
      (⟨.declaration ⟨x, success, some ⟨residual, place⟩, value, span⟩, [], place'⟩ :: block)
    let Premises := PassesOn Γ (frame :: rest) x success residual value' block' wanted span
    ((∃ b, expanded = .ok b ∧ Accepts Γ (frame :: rest) b wanted outer) ↔
      ∃ t r, Premises t r ∧ r.isAssignable wanted = true) ∧
    ∀ t r, Premises t r → r.isAssignable wanted = false → ∃ b, expanded = .ok b ∧
      Refuses Γ (frame :: rest) b wanted outer
        ⟨.shortCircuitOutsideReturnCompatibleFunction, .mismatch wanted r, Γ.file, x.span⟩ := by
  intro expanded Premises
  have hexpanded : ∀ {b : List Term}, expanded = .ok b ↔
      ∃ t, shortCircuitTerm file x success residual value' block' span = .ok t ∧ b = [t] := by
    intro b
    simp only [expanded, desugarBlock_shortCircuit hvalue hblock, map_eq_ok]
  constructor
  · rw [← accepts_shortCircuitTerm file outer hx]
    simp [hexpanded]
  · intro t r hpremises hr
    obtain ⟨b, hb, hrefuses⟩ := refuses_shortCircuitTerm file hx hpremises hr
    exact ⟨[b], hexpanded.2 ⟨b, hb, rfl⟩, hrefuses⟩

/-- `x: Int ?= n` and then `x`, where `n` is a boolean, an integer or a text: the block can stand
where any of the three is wanted, and not where an integer is. -/
theorem accepts_shortCircuit_two_left :
    let block : List Term := [.shortCircuit "x" (some (.named "Int" [])) none (.var "n"), .var "x"]
    let Γ : Context := ⟨.empty "main", "main", []⟩
    let n := Ty.union [.boolean, .int, .string]
    let frames : Frames := [⟨[("n", n)], []⟩]
    (∃ b, desugarBlock "main" block = .ok b ∧ Accepts Γ frames b n .zero) ∧
      ∃ b, desugarBlock "main" block = .ok b ∧ Refuses Γ frames b .int .zero
        ⟨.shortCircuitOutsideReturnCompatibleFunction, .mismatch .int (.union [.boolean, .string]),
          "main", .zero⟩ := by
  intro block Γ n frames
  have hleft : n.without .int = .union [.boolean, .string] := by with_unfolding_all rfl
  have hpasses : ∀ wanted, Ty.isAssignable .int wanted = true →
      PassesOn Γ frames (.plain "x") (some (.named "Int" [])) none (.var "n") [.var "x"] wanted
        .zero .int (.union [.boolean, .string]) := fun wanted hwanted =>
    ⟨_, frames, rfl, hleft ▸ .success ⟨rfl, _, rfl⟩ (by decide),
      accepts_exit (x := .plain "x").2 hwanted⟩
  exact ⟨(accepts_shortCircuit (x := .plain "x") (by decide) rfl rfl).1.2
      ⟨_, _, hpasses n (by decide), by decide⟩,
    (accepts_shortCircuit (x := .plain "x") (by decide) rfl rfl).2 _ _ (hpasses .int (by decide))
      (by decide)⟩

end Check

end UnionChecker
