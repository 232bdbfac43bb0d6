import UnionChecker.Proofs.Check.Likeness
import UnionChecker.Proofs.Check.Runs
/-!
# Checks side by side

Two checks are run side by side, in frames that correspond, and come to results that correspond
(`Simulates`). What corresponds is up to the use: a `Likeness` says so for the data, and a `Simulation`
for frames and failures. The second check may be the first one in another context, of another term or
in another spelling. A property of single checks is the case where both are the same.

Here are the rules for the ways of building checks, and from them follow the small parts of the
checker, which only read the frames (`Simulation.Reads`): all of them are steady.
-/

namespace UnionChecker.Check

open Syntax

/-- What the runs of two checks have to do with each other, beside their results. -/
structure Simulation where
  frames : Frames → Frames → Prop
  /-- What the first check may do to its frames. -/
  step : Frames → Frames → Prop
  /-- What it may do to them within a frame of its own. -/
  inner : Frames → Frames → Prop
  failure : Failure → Failure → Prop
  /-- Failures of the first check after which nothing is asked of the second. -/
  excused : Failure → Prop

variable {α β γ δ : Type} {L : Likeness} {M : Simulation} {Γ Γ' : Context} {span : Span}
  {Q : α → β → Prop} {R : γ → δ → Prop} {expected expected' : Option Ty}

/-- Results that correspond. -/
def Simulation.Results (M : Simulation) (Q : α → β → Prop) (x : Except Failure α)
    (y : Except Failure β) : Prop :=
  (∃ f, x = .error f ∧ M.excused f) ∨ Alike M.failure Q x y

/-- Checks that come to corresponding results and frames wherever they start in corresponding
frames. -/
def Simulates (M : Simulation) (Q : α → β → Prop) (c : Check α) (c' : Check β) : Prop :=
  ∀ frames frames', M.frames frames frames' →
    (∃ f, Fails c frames f ∧ M.excused f) ∨
      Alike M.failure Q (c.run.run frames).1 (c'.run.run frames').1 ∧
        M.frames (c.run.run frames).2 (c'.run.run frames').2 ∧ M.step frames (c.run.run frames).2

namespace Simulation

/-- The simulation within a frame of its own. -/
def within (M : Simulation) : Simulation := { M with step := M.inner }

/-- What the simulation needs for checks that only read the frames. -/
structure Reads (M : Simulation) (L : Likeness) (Γ Γ' : Context) : Prop where
  likeness : L.Lawful
  refl : ∀ frames, M.step frames frames
  trans : ∀ {frames inner outer}, M.step frames inner → M.step inner outer → M.step frames outer
  failure : ∀ {cause cause'}, L.cause cause cause' → ∀ span,
    M.excused (Γ.failure cause span) ∨ M.failure (Γ.failure cause span) (Γ'.failure cause' span)
  type : ∀ {frames frames'}, M.frames frames frames' → ∀ {gs gs'}, List.Forall₂ L.name gs gs' →
    ∀ {type type'}, L.written type type' →
    M.Results L.type (Γ.resolveType frames gs type) (Γ'.resolveType frames' gs' type')

end Simulation

/-! ## Ways of building checks -/

theorem simulates_ite {p p' : Prop} [Decidable p] [Decidable p'] {c d : Check α} {c' d' : Check β}
    (hp : p' ↔ p) (hc : Simulates M Q c c') (hd : Simulates M Q d d') :
    Simulates M Q (if p then c else d) (if p' then c' else d') := by
  by_cases h : p
  · rw [if_pos h, if_pos (hp.2 h)]
    exact hc
  · rw [if_neg h, if_neg (mt hp.1 h)]
    exact hd

namespace Simulation.Reads

variable (h : M.Reads L Γ Γ') {c : Check α} {c' : Check β}
include h

theorem bind {k : α → Check γ} {k' : β → Check δ} (hc : Simulates M Q c c')
    (hk : ∀ a b, Q a b → Simulates M R (k a) (k' b)) : Simulates M R (c >>= k) (c' >>= k') := by
  intro frames frames' hframes
  rcases hc frames frames' hframes with ⟨f, hf, hexcused⟩ | ⟨hresult, hinner, hstep⟩
  · exact .inl ⟨f, hf.bind k, hexcused⟩
  · unfold Fails
    rw [run_bind, run_bind]
    generalize c.run.run frames = r, c'.run.run frames' = r' at hresult hinner hstep
    obtain ⟨result, inner⟩ := r
    obtain ⟨result', inner'⟩ := r'
    cases hresult with
    | error hf => exact .inr ⟨.error hf, hinner, hstep⟩
    | ok hab =>
      rcases hk _ _ hab inner inner' hinner with hexcused | ⟨hresult, houter, hstep'⟩
      · exact .inl hexcused
      · exact .inr ⟨hresult, houter, h.trans hstep hstep'⟩

theorem refuse {cause cause' : Cause} (hcause : L.cause cause cause') :
    Simulates M Q (fail Γ cause span) (fail Γ' cause' span) := fun frames _ hframes =>
  (h.failure hcause span).imp (fun hexcused => ⟨_, rfl, hexcused⟩)
    fun hf => ⟨.error hf, hframes, h.refl frames⟩

theorem fail {cause cause' : Cause} (hcause : L.CauseLike cause cause') :
    Simulates M Q (fail Γ cause span) (fail Γ' cause' span) :=
  h.refuse (h.likeness.cause hcause)

/-- What would come after a failure does not matter. -/
theorem fail_bind {cause cause' : Cause} (hcause : L.CauseLike cause cause') {k : α → Check γ}
    {k' : β → Check δ} :
    Simulates M R (Check.fail Γ cause span >>= k) (Check.fail Γ' cause' span >>= k') :=
  h.bind (Q := fun _ _ => False) (h.fail hcause) fun _ _ h => h.elim

theorem pure {a : α} {b : β} (hab : Q a b) : Simulates M Q (pure a) (pure b) :=
  fun frames _ hframes => .inr ⟨.ok hab, hframes, h.refl frames⟩

end Simulation.Reads

/-- A change of the frames that may fail. -/
theorem simulates_change (h : M.Reads L Γ Γ') {f g : Frames → Option Frames} {cause cause' : Cause}
    (hcause : L.cause cause cause')
    (hfg : ∀ {frames frames'}, M.frames frames frames' → Option.Rel M.frames (f frames) (g frames'))
    (hstep : ∀ {frames changed}, f frames = some changed → M.step frames changed) :
    Simulates M Eq
      (fun frames => match f frames with
        | some frames => (.ok (), frames)
        | none => (.error (Γ.failure cause span), frames))
      (fun frames => match g frames with
        | some frames => (.ok (), frames)
        | none => (.error (Γ'.failure cause' span), frames)) := by
  intro frames frames' hframes
  have hchange := hfg hframes
  simp only [Fails, ExceptT.run, StateT.run]
  generalize hf : f frames = changed, g frames' = changed' at hchange
  cases hchange with
  | none =>
    rcases h.failure hcause span with hexcused | hfailure
    · exact .inl ⟨_, rfl, hexcused⟩
    · exact .inr ⟨.error hfailure, hframes, h.refl frames⟩
  | some hchanged => exact .inr ⟨.ok rfl, hchanged, hstep hf⟩

/-- The same change of the same frames. -/
theorem simulates_sameChange (h : M.Reads L Γ Γ') (hframes : M.frames = Eq)
    {f : Frames → Option Frames} {cause : Cause}
    (hstep : ∀ {frames changed}, f frames = some changed → M.step frames changed) :
    Simulates M Eq
      (fun frames => match f frames with
        | some frames => (.ok (), frames)
        | none => (.error (Γ.failure cause span), frames))
      (fun frames => match f frames with
        | some frames => (.ok (), frames)
        | none => (.error (Γ'.failure cause span), frames)) :=
  simulates_change h (h.likeness.cause (.same cause))
    (fun hsame => by
      rw [hframes] at hsame ⊢
      exact hsame ▸ rel_refl (fun _ => rfl) _) hstep

/-- A check beside itself. -/
theorem simulates_self (hframes : M.frames = Eq) (hfailure : ∀ f, M.failure f f) {c : Check α}
    (hc : ∀ frames, M.step frames (c.run.run frames).2) : Simulates M Eq c c := by
  intro frames frames' hsame
  rw [hframes] at hsame ⊢
  obtain rfl : frames = frames' := hsame
  exact .inr ⟨Alike.refl hfailure (fun _ => rfl) _, rfl, hc frames⟩

/-! ## What only reads the frames -/

section

variable (h : M.Reads L Γ Γ')
include h

theorem simulates_mapError {ε : Type} {cause : ε → Cause} {x : Except ε α} {y : Except ε β}
    (hxy : Alike (fun e e' => L.cause (cause e) (cause e')) Q x y) :
    Simulates M Q (ofExcept (x.mapError fun e => Γ.failure (cause e) span))
      (ofExcept (y.mapError fun e => Γ'.failure (cause e) span)) := by
  cases hxy with
  | ok hab => exact h.pure hab
  | error he => exact h.refuse he

theorem simulates_ofAlgebra {x : Except TyError α} {y : Except TyError β}
    (hxy : Alike L.ErrorLike Q x y) :
    Simulates M Q (ofAlgebra Γ span x) (ofAlgebra Γ' span y) :=
  simulates_mapError h hxy

theorem simulates_resolveIn {gs gs' : List String} (hgs : List.Forall₂ L.name gs gs')
    {type type' : TypeExpr} (htype : L.written type type') :
    Simulates M L.type (fun frames => (Γ.resolveType frames gs type, frames))
      (fun frames => (Γ'.resolveType frames gs' type', frames)) := fun frames _ hframes =>
  (h.type hframes hgs htype).imp id fun hresult => ⟨hresult, hframes, h.refl frames⟩

theorem simulates_resolve {type type' : TypeExpr} (htype : L.written type type') :
    Simulates M L.type (resolve Γ type) (resolve Γ' type') :=
  simulates_resolveIn h .nil htype

theorem simulates_resolveOptional {type type' : Option TypeExpr}
    (htype : Option.Rel L.written type type') :
    Simulates M (Option.Rel L.type) (resolveOptional Γ type) (resolveOptional Γ' type') := by
  cases htype with
  | none => exact h.pure .none
  | some htype => exact h.bind (simulates_resolve h htype) fun _ _ ht => h.pure (.some ht)

theorem simulates_requireAssignable {t t' u u' : Ty} (ht : L.type t t') (hu : L.type u u') :
    Simulates M Eq (requireAssignable Γ t u span) (requireAssignable Γ' t' u' span) :=
  simulates_ite (by rw [h.likeness.assignable ht hu]) (h.pure rfl) (h.fail (.mismatch hu ht))

theorem simulates_requireExpected {t t' : Ty} (ht : L.type t t')
    (he : Option.Rel L.type expected expected') :
    Simulates M Eq (requireExpected Γ t expected span) (requireExpected Γ' t' expected' span) := by
  cases he with
  | none => exact h.pure rfl
  | some he => exact simulates_requireAssignable h ht he

/-! ### Calls -/

theorem simulates_calleeSignature {e e' : TypedExpr} (he : L.expr e e') :
    Simulates M L.SignatureLike (calleeSignature Γ e span) (calleeSignature Γ' e' span) := by
  have ht := h.likeness.ty he
  unfold calleeSignature
  generalize e.ty = t, e'.ty = t' at ht
  cases h.likeness.form ht with
  | fn hF => exact h.pure hF
  | _ => exact h.fail (.notInvocable ht)

theorem simulates_requireLabels {items items' : List Argument}
    (hitems : List.Forall₂ L.ArgumentLike items items') : ∀ {ps ps' : List (String × Ty)},
    List.Forall₂ L.ParamLike ps ps' →
    Simulates M Eq (requireLabels Γ items ps) (requireLabels Γ' items' ps') := by
  induction hitems with
  | nil => exact fun _ => h.pure rfl
  | cons hitem _ ih =>
    intro ps ps' hps
    cases hps with
    | nil => exact h.pure rfl
    | cons hp hps =>
      cases hitem with
      | @mk label =>
        rw [requireLabels, requireLabels]
        cases label with
        | none => exact ih hps
        | some label =>
          dsimp only
          rw [hp.1]
          split
          · exact ih hps
          · exact h.fail_bind (.same _)

/-- Generics that are given and generics that are open. -/
def Likeness.GenericsLike (L : Likeness) (r r' : Substitution × List String) : Prop :=
  List.Forall₂ L.EntryLike r.1 r'.1 ∧ List.Forall₂ L.name r.2 r'.2

theorem simulates_givenGenerics {gs gs' : List String} (hgs : List.Forall₂ L.name gs gs') :
    ∀ {types types' : List TypeExpr} {given given' : Substitution} {opened opened' : List String},
    List.Forall₂ L.written types types' → List.Forall₂ L.EntryLike given given' →
    List.Forall₂ L.name opened opened' →
    Simulates M L.GenericsLike (givenGenerics Γ gs types given opened)
      (givenGenerics Γ' gs' types' given' opened') := by
  induction hgs with
  | nil => exact fun _ hgiven hopened => h.pure ⟨hgiven, hopened⟩
  | cons hg _ ih =>
    intro types types' given given' opened opened' htypes hgiven hopened
    cases htypes with
    | nil => exact h.pure ⟨hgiven, hopened⟩
    | cons htype htypes =>
      rw [givenGenerics, givenGenerics]
      refine simulates_ite (by rw [h.likeness.hole htype]) ?_ ?_
      · exact ih htypes hgiven (List.rel_append hopened (.cons hg .nil))
      · exact h.bind (simulates_resolve h htype) fun t t' ht =>
          ih htypes (Substitution.rel_set h.likeness.beq hgiven hg ht) hopened

theorem simulates_explicitGenerics {gs gs' : List String} (hgs : List.Forall₂ L.name gs gs')
    {types types' : List TypeExpr} (htypes : List.Forall₂ L.written types types') :
    Simulates M L.GenericsLike (explicitGenerics Γ gs types span)
      (explicitGenerics Γ' gs' types' span) := by
  unfold explicitGenerics
  rw [isEmpty_eq_of_forall₂ htypes, ← htypes.length_eq, ← hgs.length_eq]
  refine simulates_ite .rfl (h.pure ⟨.nil, hgs⟩) (simulates_ite .rfl ?_ (h.fail (.same _)))
  exact simulates_givenGenerics h hgs htypes .nil .nil

theorem simulates_inferFrom {t t' u u' : Ty} (ht : L.type t t') (hu : L.type u u')
    {opened opened' : List String} (hopened : List.Forall₂ L.name opened opened') :
    ∀ {inferred inferred' : Substitution}, List.Forall₂ L.EntryLike inferred inferred' →
    Simulates M (List.Forall₂ L.EntryLike) (inferFrom Γ t u span opened inferred)
      (inferFrom Γ' t' u' span opened' inferred') := by
  induction hopened with
  | nil => exact fun hinferred => h.pure hinferred
  | cons hg _ ih =>
    intro inferred inferred' hinferred
    rw [inferFrom, inferFrom]
    refine h.bind (simulates_ofAlgebra h (h.likeness.infer hg ht hu)) fun found found' hfound => ?_
    cases hfound with
    | none => exact ih hinferred
    | some hfound =>
      have hlookup := rel_lookup (R := L.type) (h.likeness.beq hg) hinferred
      refine h.bind (simulates_ofAlgebra h (h.likeness.mergeInference hg hlookup hfound)) ?_
      exact fun merged merged' hmerged =>
        ih (Substitution.rel_set h.likeness.beq hinferred hg hmerged)

theorem simulates_inferFromExpected {t t' u u' : Ty} (ht : L.type t t') (hu : L.type u u')
    {opened opened' : List String} (hopened : List.Forall₂ L.name opened opened') :
    ∀ {inferred inferred' : Substitution}, List.Forall₂ L.EntryLike inferred inferred' →
    Simulates M (List.Forall₂ L.EntryLike) (inferFromExpected Γ t u span opened inferred)
      (inferFromExpected Γ' t' u' span opened' inferred') := by
  induction hopened with
  | nil => exact fun hinferred => h.pure hinferred
  | cons hg _ ih =>
    intro inferred inferred' hinferred
    rw [inferFromExpected, inferFromExpected]
    refine h.bind (simulates_ofAlgebra h (h.likeness.infer hg ht hu)) fun found found' hfound => ?_
    cases hfound with
    | none => exact ih hinferred
    | some hfound => exact ih (Substitution.rel_set h.likeness.beq hinferred hg hfound)

theorem simulates_completeInference {t t' : Ty} (ht : L.type t t')
    (he : Option.Rel L.type expected expected') {opened opened' : List String}
    (hopened : List.Forall₂ L.name opened opened') {inferred inferred' : Substitution}
    (hinferred : List.Forall₂ L.EntryLike inferred inferred') :
    Simulates M (List.Forall₂ L.EntryLike) (completeInference Γ t expected opened inferred span)
      (completeInference Γ' t' expected' opened' inferred' span) := by
  have hbinds {σ σ' : Substitution} (hσ : List.Forall₂ L.EntryLike σ σ') {g g' : String}
      (hg : L.name g g') : σ'.binds g' = σ.binds g :=
    Substitution.binds_eq_of_rel h.likeness.beq hσ hg
  have hrest : List.Forall₂ L.name (opened.filter fun g => !inferred.binds g)
      (opened'.filter fun g => !inferred'.binds g) :=
    forall₂_filter hopened fun g g' hg => by rw [hbinds hinferred hg]
  unfold completeInference
  refine h.bind (Q := List.Forall₂ L.EntryLike) ?_ fun σ σ' hσ => ?_
  · cases he with
    | none => exact h.pure hinferred
    | some he => exact simulates_inferFromExpected h ht he hrest hinferred
  · rw [all_eq_of_forall₂ hopened fun g _ g' hg => hbinds hσ hg]
    exact simulates_ite .rfl (h.pure hσ) (h.fail (.same _))

theorem simulates_requireArguments {inferred inferred' : Substitution}
    (hinferred : List.Forall₂ L.EntryLike inferred inferred') {items items' : List Argument}
    (hitems : List.Forall₂ L.ArgumentLike items items') : ∀ {ps ps' : List Ty}
    {es es' : List TypedExpr}, List.Forall₂ L.type ps ps' → List.Forall₂ L.expr es es' →
    Simulates M Eq (requireArguments Γ inferred items ps es)
      (requireArguments Γ' inferred' items' ps' es') := by
  induction hitems with
  | nil => exact fun _ _ => h.pure rfl
  | cons hitem _ ih =>
    intro ps ps' es es' hps hes
    cases hps with
    | nil => exact h.pure rfl
    | cons hp hps =>
      cases hes with
      | nil => exact h.pure rfl
      | cons he hes =>
        obtain ⟨⟨_, _⟩⟩ := hitem
        rw [requireArguments, requireArguments]
        exact h.bind (simulates_requireAssignable h (h.likeness.ty he)
          (h.likeness.resolve hp hinferred)) fun _ _ _ => ih hps hes

theorem simulates_callGenerics {σ σ' : Substitution} (hσ : List.Forall₂ L.EntryLike σ σ')
    {gs gs' : List String} (hgs : List.Forall₂ L.name gs gs') :
    Simulates M (List.Forall₂ L.type) (callGenerics Γ σ span gs) (callGenerics Γ' σ' span gs') := by
  induction hgs with
  | nil => exact h.pure .nil
  | @cons g g' _ _ hg _ ih =>
    have ht : L.type ((σ.lookup g).getD (.var g)) ((σ'.lookup g').getD (.var g')) :=
      rel_getD (rel_lookup (h.likeness.beq hg) hσ) (h.likeness.var hg)
    rw [callGenerics, callGenerics]
    generalize (σ.lookup g).getD (.var g) = t, (σ'.lookup g').getD (.var g') = t' at ht
    cases h.likeness.form ht with
    | fn => exact h.fail (.same _)
    | _ => exact h.bind ih fun _ _ hts => h.pure (.cons ht hts)

/-! ### Lambdas -/

theorem simulates_expectedShape {generics generics' : List Name}
    (hgenerics : List.Forall₂ L.binder generics generics') {t t' : Ty} (ht : L.type t t') :
    Simulates M L.ShapeLike (expectedShape Γ generics t span) (expectedShape Γ' generics' t' span) := by
  have hmembers := h.likeness.functionMembers ht
  unfold expectedShape
  generalize functionMembers t = ms, functionMembers t' = ms' at hmembers
  cases hmembers with
  | nil => exact h.fail (.lambdaMismatch ht)
  | cons hF hmembers =>
    cases hmembers with
    | cons _ _ => exact h.fail (.lambdaMismatch ht)
    | nil =>
      have hvars : List.Forall₂ L.type (generics.map fun g => .var g.text)
          (generics'.map fun g => .var g.text) :=
        forall₂_map hgenerics fun _ _ _ hx => h.likeness.var (h.likeness.binder hx)
      have hσ := Substitution.rel_ofLists h.likeness.beq hF.generics hvars
      simp only [← hF.generics.length_eq, ← hgenerics.length_eq]
      refine simulates_ite .rfl (h.pure ⟨?_, ?_⟩) (h.fail (.same _))
      · exact forall₂_map hF.params fun _ _ _ hp => h.likeness.resolve hp.2 hσ
      · exact .some (h.likeness.resolve hF.result hσ)

theorem simulates_paramType {index : Nat} {p p' : Parameter} (hp : L.ParameterLike p p')
    {wanted wanted' : Option Ty} (hwanted : Option.Rel L.type wanted wanted') :
    Simulates M L.type (paramType Γ index p wanted) (paramType Γ' index p' wanted') := by
  obtain ⟨name, type⟩ := p
  obtain ⟨name', type'⟩ := p'
  obtain ⟨rfl, htype⟩ := hp
  refine h.bind (simulates_resolveOptional h htype) fun written written' hwritten => ?_
  cases hwritten with
  | none =>
    cases hwanted with
    | none => exact h.fail (.same _)
    | some hwanted => exact h.pure hwanted
  | some hwritten =>
    cases hwanted with
    | none => exact h.pure hwritten
    | some hwanted =>
      exact simulates_ite (by rw [h.likeness.equal hwritten hwanted]) (h.pure hwritten)
        (h.fail (.paramMismatch hwanted hwritten))

theorem simulates_paramTypes {params params' : List Parameter}
    (hparams : List.Forall₂ L.ParameterLike params params') : ∀ {index : Nat}
    {wanted wanted' : List Ty}, List.Forall₂ L.type wanted wanted' →
    Simulates M (List.Forall₂ L.ParamLike) (paramTypes Γ index params wanted)
      (paramTypes Γ' index params' wanted') := by
  induction hparams with
  | nil => exact fun _ => h.pure .nil
  | cons hp _ ih =>
    intro index wanted wanted' hwanted
    have hhead : Option.Rel L.type wanted.head? wanted'.head? := by
      cases hwanted with
      | nil => exact .none
      | cons h _ => exact .some h
    have htail : List.Forall₂ L.type wanted.tail wanted'.tail := by
      cases hwanted with
      | nil => exact .nil
      | cons _ h => exact h
    exact h.bind (simulates_paramType h hp hhead) fun t t' ht =>
      h.bind (ih htail) fun ts ts' hts => h.pure (.cons ⟨congrArg Name.text hp.name, ht⟩ hts)

theorem simulates_resultType {result result' : Option TypeExpr}
    (hresult : Option.Rel L.written result result') {shape shape' : Option Shape}
    (hshape : Option.Rel L.ShapeLike shape shape') :
    Simulates M (Option.Rel L.type) (resultType Γ result shape span)
      (resultType Γ' result' shape' span) := by
  refine h.bind (simulates_resolveOptional h hresult) fun written written' hwritten => ?_
  cases hwritten with
  | none =>
    cases hshape with
    | none => exact h.fail (.same _)
    | some hshape => exact h.pure hshape.result
  | some hwritten =>
    cases hshape with
    | none => exact h.pure (.some hwritten)
    | @some shape shape' hshape =>
      obtain ⟨params, wanted⟩ := shape
      obtain ⟨params', wanted'⟩ := shape'
      cases hshape.result with
      | none => exact h.pure (.some hwritten)
      | some hwanted =>
        exact simulates_ite (by rw [h.likeness.equal hwritten hwanted]) (h.pure (.some hwritten))
          (h.fail (.resultMismatch hwanted hwritten))

theorem simulates_requireParamCount {params params' : List Parameter}
    (hlength : params'.length = params.length) {shape shape' : Option Shape}
    (hshape : Option.Rel L.ShapeLike shape shape') :
    Simulates M Eq (requireParamCount Γ params shape span)
      (requireParamCount Γ' params' shape' span) := by
  cases hshape with
  | none => exact h.pure rfl
  | some hshape =>
    simp only [requireParamCount, hlength, ← hshape.params.length_eq]
    exact simulates_ite .rfl (h.pure rfl) (h.fail (.same _))

/-! ### Expressions -/

theorem simulates_requireExhaustive {c c' : Coverage} (hc : L.CoverageLike c c') :
    Simulates M Eq (requireExhaustive Γ c span) (requireExhaustive Γ' c' span) := by
  have hcause := h.likeness.missing hc
  have hmissing : c'.missing = [] ↔ c.missing = [] := by
    rw [Coverage.missing_eq_nil_iff, Coverage.missing_eq_nil_iff, ← List.isEmpty_iff,
      ← List.isEmpty_iff, isEmpty_eq_of_forall₂ hc.remaining]
  unfold requireExhaustive
  generalize c.missing = missing, c'.missing = missing' at hcause hmissing
  cases missing with
  | nil =>
    rw [hmissing.2 rfl]
    exact h.pure rfl
  | cons _ _ =>
    cases missing' with
    | nil => cases hmissing.1 rfl
    | cons _ _ => exact h.refuse hcause

theorem simulates_requireUnreserved {name : Name} :
    Simulates M Eq (requireUnreserved Γ name) (requireUnreserved Γ' name) :=
  simulates_ite .rfl (h.fail (.same _)) (h.pure rfl)

/-- A list without written generics whose elements are not wanted at one type. -/
theorem simulates_inferredList {wanted wanted' : List Ty} (hwanted : List.Forall₂ L.type wanted wanted')
    (isEmpty : Bool) {items items' : Check (List TypedExpr)}
    (hitems : Simulates M (List.Forall₂ L.expr) items items') :
    Simulates M L.expr
      (if isEmpty then fail Γ .unknownListElement span
      else do
        let items ← items
        let inferred := Ty.join (items.map TypedExpr.ty)
        return .list ((wanted.find? inferred.containedIn).getD inferred) items)
      (if isEmpty then fail Γ' .unknownListElement span
      else do
        let items ← items'
        let inferred := Ty.join (items.map TypedExpr.ty)
        return .list ((wanted'.find? inferred.containedIn).getD inferred) items) := by
  refine simulates_ite .rfl (h.fail (.same _)) (h.bind hitems fun es es' hes => h.pure ?_)
  have hjoin : L.type (.join (es.map TypedExpr.ty)) (.join (es'.map TypedExpr.ty)) :=
    h.likeness.join (forall₂_map hes fun _ _ _ he => h.likeness.ty he)
  refine h.likeness.node (.list (rel_getD (find?_related hwanted fun _ _ hw => ?_) hjoin) hes)
  exact h.likeness.contained hjoin hw

end

/-! ## Checks that leave the frames alone -/

/-- A check that only reads the frames. -/
def Steady (c : Check α) : Prop := ∀ frames a frames', Runs c frames a frames' → frames' = frames

theorem Steady.runs_iff {frames frames' : Frames} {c : Check α} (h : Steady c) {a : α} :
    Runs c frames a frames' ↔ Runs c frames a frames ∧ frames' = frames := by
  constructor
  · intro hr
    obtain rfl := h _ _ _ hr
    exact ⟨hr, rfl⟩
  · rintro ⟨hr, rfl⟩
    exact hr

/-- A check beside itself, with its frames as they were. -/
def Simulation.steady : Simulation where
  frames := Eq
  step frames inner := inner = frames
  inner frames inner := inner = frames
  failure _ _ := True
  excused _ := False

theorem Simulates.steady {c : Check α} {c' : Check β} (h : Simulates .steady Q c c') : Steady c := by
  intro frames a frames' hrun
  rcases h frames frames rfl with ⟨_, _, hexcused⟩ | ⟨-, -, hstep⟩
  · exact hexcused.elim
  · rw [hrun] at hstep
    exact hstep

theorem reads_steady : Simulation.steady.Reads (.exact Eq) Γ Γ where
  likeness := Likeness.exact_lawful Eq
  refl _ := rfl
  trans h h' := Eq.trans h' h
  failure _ _ := .inr trivial
  type := by
    rintro frames _ rfl gs gs' hgs type _ rfl
    obtain rfl : gs = gs' := eq_of_forall₂ id hgs
    exact .inr (Alike.refl (fun _ => trivial) (fun _ => rfl) _)

open Likeness

theorem steady_requireLabels (items : List Argument) (ps : List (String × Ty)) :
    Steady (requireLabels Γ items ps) :=
  (simulates_requireLabels reads_steady (itemsLike_refl items)
    (forall₂_refl (fun _ => ⟨rfl, rfl⟩) ps)).steady

theorem steady_explicitGenerics (gs : List String) (types : List TypeExpr) :
    Steady (explicitGenerics Γ gs types span) :=
  (simulates_explicitGenerics reads_steady (forall₂_refl (fun _ => rfl) gs)
    (forall₂_refl (fun _ => rfl) types)).steady

theorem steady_inferFrom (t u : Ty) (opened : List String) (inferred : Substitution) :
    Steady (inferFrom Γ t u span opened inferred) :=
  (simulates_inferFrom reads_steady rfl rfl (forall₂_refl (fun _ => rfl) opened)
    (forall₂_refl (fun _ => ⟨rfl, rfl⟩) inferred)).steady

theorem steady_completeInference (t : Ty) (opened : List String) (inferred : Substitution) :
    Steady (completeInference Γ t expected opened inferred span) :=
  (simulates_completeInference reads_steady rfl (rel_refl (fun _ => rfl) _)
    (forall₂_refl (fun _ => rfl) opened) (forall₂_refl (fun _ => ⟨rfl, rfl⟩) inferred)).steady

theorem steady_requireArguments (inferred : Substitution) (items : List Argument) (ps : List Ty)
    (es : List TypedExpr) : Steady (requireArguments Γ inferred items ps es) :=
  (simulates_requireArguments reads_steady (forall₂_refl (fun _ => ⟨rfl, rfl⟩) inferred)
    (itemsLike_refl items) (forall₂_refl (fun _ => rfl) ps) (forall₂_refl (fun _ => rfl) es)).steady

theorem steady_callGenerics (σ : Substitution) (gs : List String) :
    Steady (callGenerics Γ σ span gs) :=
  (simulates_callGenerics reads_steady (forall₂_refl (fun _ => ⟨rfl, rfl⟩) σ)
    (forall₂_refl (fun _ => rfl) gs)).steady

theorem steady_paramType (index : Nat) (p : Parameter) (wanted : Option Ty) :
    Steady (paramType Γ index p wanted) :=
  (simulates_paramType reads_steady ⟨rfl, rel_refl (fun _ => rfl) _⟩
    (rel_refl (fun _ => rfl) wanted)).steady

theorem steady_paramTypes (index : Nat) (params : List Parameter) (wanted : List Ty) :
    Steady (paramTypes Γ index params wanted) :=
  (simulates_paramTypes reads_steady
    (forall₂_refl (fun _ => ⟨rfl, rel_refl (fun _ => rfl) _⟩) params)
    (forall₂_refl (fun _ => rfl) wanted)).steady

theorem steady_resultType (result : Option TypeExpr) (shape : Option Shape) :
    Steady (resultType Γ result shape span) :=
  (simulates_resultType reads_steady (rel_refl (fun _ => rfl) result)
    (rel_refl (fun _ => ⟨forall₂_refl (fun _ => rfl) _, rel_refl (fun _ => rfl) _⟩) shape)).steady

end UnionChecker.Check
