import UnionChecker.Proofs.Check.Call
import UnionChecker.Proofs.Check.TypeInvariant
import UnionChecker.Proofs.Ty.Inference
/-!
# The types of a call

What a type invariant says of the generics of a call, written or inferred, and of the parameters that
its arguments are checked against.

At the time of an inference nothing is known yet about the fit of the argument, and without a fit the
inferred type need not have the property. The fit is only tested when all generics of the call are
found. So it is assumed here for what they are in the end (`Telling`).
-/

namespace UnionChecker.Check.TypeInvariant

open Syntax

variable {Γ : Context} {I : TypeInvariant Γ} {gs : List String}
  {frames frames' : Frames} {span : Span} {expected : Option Ty}

/-! ## The generics of a call -/

theorem Images.set {σ : Substitution} {x : String} {t : Ty} (h : I.Images gs σ)
    (ht : I.Holds gs t) : I.Images gs (σ.set x t) := by
  intro y u hu
  rw [Substitution.lookup_set] at hu
  split at hu
  · cases hu
    exact ht
  · exact h y u hu

theorem Images.extend {σ τ : Substitution} (hσ : I.Images gs σ) (hτ : I.Images gs τ) :
    I.Images gs (σ.extend τ) := by
  intro x u hu
  rw [Substitution.lookup_extend] at hu
  rcases Option.or_eq_some_iff.1 hu with hu | ⟨_, hu⟩
  · exact hτ x u hu
  · exact hσ x u hu

theorem binds_extend {σ τ : Substitution} {x : String} :
    (σ.extend τ).binds x = true ↔ τ.binds x = true ∨ σ.binds x = true := by
  simp only [Substitution.binds, Substitution.lookup_extend, Option.isSome_or, Bool.or_eq_true]

theorem images_nil : I.Images gs [] := fun _ _ h => by cases h

theorem images_givenGenerics : ∀ {generics : List String} {types : List TypeExpr}
    {given : Substitution} {opened : List String} {r : Substitution × List String}
    {frames frames' : Frames}, I.Writes gs frames → I.Images gs given →
    Runs (givenGenerics Γ generics types given opened) frames r frames' →
    I.Images gs r.1
  | [], _, _, _, _, _, _, _, hgiven, hrun => by
    obtain ⟨rfl, _⟩ := runs_pure.1 hrun
    exact hgiven
  | _ :: _, [], _, _, _, _, _, _, hgiven, hrun => by
    obtain ⟨rfl, _⟩ := runs_pure.1 hrun
    exact hgiven
  | generic :: generics, type :: types, _, _, _, _, _, h, hgiven, hrun => by
    rw [givenGenerics, runs_ite] at hrun
    rcases hrun with ⟨_, hrun⟩ | ⟨_, hrun⟩
    · exact images_givenGenerics h hgiven hrun
    · rw [runs_bind] at hrun
      obtain ⟨t, _, ht, hrun⟩ := hrun
      obtain ⟨ht, rfl⟩ := runs_resolve.1 ht
      exact images_givenGenerics h (hgiven.set (h _ _ ht)) hrun

theorem images_explicitGenerics {generics : List String} {types : List TypeExpr}
    {r : Substitution × List String} (h : I.Writes gs frames)
    (hrun : Runs (explicitGenerics Γ generics types span) frames r frames') :
    I.Images gs r.1 := by
  simp only [explicitGenerics, runs_ite] at hrun
  rcases hrun with ⟨_, hrun⟩ | ⟨_, ⟨_, hrun⟩ | ⟨_, hrun⟩⟩
  · obtain ⟨rfl, _⟩ := runs_pure.1 hrun
    exact images_nil
  · exact images_givenGenerics h images_nil hrun
  · exact (not_runs_fail hrun).elim

theorem Images.learns {param a : Ty} {opened : List String} {σ τ : Substitution}
    (hσ : I.Images gs σ) (h : Learns param a opened σ τ)
    (hfound : ∀ g ∈ opened, ∀ t, param.infer g a = .ok (some t) → I.Holds gs t) :
    I.Images gs τ := by
  intro g t ht
  rcases h.others g with hsame | ⟨hg, u, hu⟩
  · exact hσ g t (hsame ▸ ht)
  · cases ht.symm.trans (h.told g hg u hu)
    exact hfound g hg t hu

theorem images_completeInference {result : Ty} {opened : List String}
    {inferred found : Substitution}
    (hfound : ∀ g ∈ opened, ∀ wanted ∈ expected, ∀ t, result.infer g wanted = .ok (some t) →
      I.Holds gs t) (hinferred : I.Images gs inferred)
    (hrun : Runs (completeInference Γ result expected opened inferred span) frames found frames') :
    I.Images gs found := by
  unfold completeInference at hrun
  simp only [runs_bind, runs_ite, runs_pure, not_runs_fail, and_false, or_false] at hrun
  obtain ⟨all, inner, hall, _, rfl, _⟩ := hrun
  cases expected with
  | none =>
    obtain ⟨rfl, _⟩ := runs_pure.1 hall
    exact hinferred
  | some wanted =>
    refine hinferred.learns (learns_inferFromExpected hall) fun g hg => ?_
    exact hfound g (List.mem_filter.1 hg).1 wanted rfl

/-- A type of the callee after the generics that are known have been put in. -/
theorem holds_instance (opened : List String) {generics : List String} {σ : Substitution} {t : Ty}
    (ht : I.Holds (generics ++ gs) t) (hσ : I.Images gs σ)
    (hall : ∀ x ∈ generics, σ.binds x = true ∨ x ∈ opened) : I.Holds (opened ++ gs) (t.resolve σ) := by
  refine I.resolve ht (fun x u hu => I.mono (hσ x u hu) ?_) fun x hx hnone => ?_
  · exact fun y hy => List.mem_append_right _ hy
  · rcases List.mem_append.1 hx with hg | hg
    · rcases hall x hg with hb | ho
      · rw [Substitution.binds, hnone] at hb
        cases hb
      · exact List.mem_append_left _ ho
    · exact List.mem_append_right _ hg

/-! ## The arguments of a call -/

variable (I) in
/-- A parameter of a call with open generics, where `τ` is what is found for these in the end. What an
argument tells about them has the property, if the argument fits in the end. -/
structure Telling (gs opened : List String) (τ : Substitution) (param : Ty) : Prop where
  holds : I.Holds (opened ++ gs) param
  found : ∀ g ∈ opened, ∀ a t, param.infer g a = .ok (some t) → I.Holds gs a →
    a.isAssignable (param.resolve τ) = true → I.Holds gs t

/-- The shape that a waiting lambda takes from its parameter, which has no generics if the lambda
fits in the end. -/
theorem shaped_openShape {opened : List String} {ps : List (String × Ty)} {r : Ty} {s : Shape}
    (h : I.Holds (opened ++ gs) (.fn [] ps r)) (hs : openShape opened (.fn [] ps r) = some s) :
    I.Shaped gs s := by
  obtain ⟨hps, hr⟩ := I.fn.1 h
  rw [openShape] at hs
  split at hs
  · cases hs
  · rename_i hclosed
    simp only [List.any_eq_true, not_exists, not_and, Bool.not_eq_true] at hclosed
    cases hs
    refine ⟨List.forall_mem_map.2 fun p hp => I.drop (hps p hp) (hclosed p hp), ?_⟩
    intro t ht
    dsimp only at ht
    split at ht
    · cases ht
    · rename_i hmentions
      cases ht
      exact I.drop hr (by simpa using hmentions)

theorem generics_of_runs_checkLambda {lambda : Lambda} {s : Option Shape} {f : TypedFunction}
    (h : Runs (checkLambda Γ lambda s) frames f frames') :
    f.signature.generics = lambda.generics.map (·.text) := by
  obtain ⟨generics, params, result, body, span⟩ := lambda
  obtain ⟨_, _, _, _, _, _, _, _, rfl, _⟩ := runs_checkLambda.1 h
  rfl

theorem generics_of_isPlainLambda {lambda : Lambda} {links : List Link}
    (h : isPlainLambda ⟨.lambda lambda, links, span⟩ = true) : lambda.generics = [] := by
  unfold isPlainLambda at h
  split at h
  · rename_i heq
    cases heq
    rfl
  · cases h

/-- The shape that a waiting lambda takes from its parameter. That has no generics either, or the
lambda does not fit in the end. -/
theorem shaped_waiting {lambda : Lambda} {links : List Link} {param : Ty} {opened : List String}
    {inferred τ : Substitution} {s : Shape} {f : TypedFunction}
    (hplain : isPlainLambda ⟨.lambda lambda, links, span⟩ = true)
    (hparam : param.signature?.isSome = true) (hholds : I.Holds (opened ++ gs) param)
    (hinferred : I.Images gs inferred) (hs : openShape opened (param.resolve inferred) = some s)
    (hf : Runs (checkLambda Γ lambda (some s)) frames f frames')
    (hfit : (TypedExpr.function f).ty.isAssignable (param.resolve τ) = true) :
    I.Shaped (lambda.generics.map (·.text) ++ gs) s := by
  have hgenerics := generics_of_isPlainLambda hplain
  have hnil : f.signature.generics = [] := by
    rw [generics_of_runs_checkLambda hf, hgenerics, List.map_nil]
  cases param with
  | fn bound ps r =>
    cases bound with
    | nil =>
      have hresolved : I.Holds (opened ++ gs) ((Ty.fn [] ps r).resolve inferred) :=
        I.resolve hholds (fun x u hu => I.mono (hinferred x u hu) fun y hy =>
          List.mem_append_right _ hy) fun x hx _ => hx
      rw [Ty.resolve_fn] at hresolved hs
      rw [hgenerics]
      exact shaped_openShape hresolved hs
    | cons b bound =>
      rw [Ty.resolve_fn] at hfit
      rw [TypedExpr.ty, Signature.toTy, hnil] at hfit
      exact (Ty.Clash.generics.not_isAssignable.1 hfit).elim
  | var => cases hparam
  | named => cases hparam
  | union => cases hparam

/-- The shape that a lambda takes from what is wanted. -/
theorem shaped_expectedShape {generics : List Name} {wanted : Ty} {s : Shape}
    (hwanted : I.Holds gs wanted)
    (hrun : Runs (expectedShape Γ generics wanted span) frames s frames') :
    I.Shaped (generics.map (·.text) ++ gs) s := by
  obtain ⟨F, hF, hlen, rfl, _⟩ := runs_expectedShape.1 hrun
  have hmem : F ∈ functionMembers wanted := by simp [hF]
  obtain ⟨m, hm, hsig⟩ := List.mem_filterMap.1 hmem
  have hholds : I.Holds gs F.toTy := by
    cases m with
    | fn => cases hsig; exact I.member hwanted hm
    | _ => cases hsig
  obtain ⟨hparams, hresult⟩ := I.fn.1 hholds
  have hinstance : ∀ t, I.Holds (F.generics ++ gs) t → I.Holds (generics.map (·.text) ++ gs)
      (t.resolve (.ofLists F.generics (generics.map (.var ·.text)))) := by
    intro t ht
    refine I.resolve ht (fun x u hu => ?_) fun x hx hnone => ?_
    · obtain ⟨n, hn, rfl⟩ := List.mem_map.1 (Substitution.mem_of_lookup_ofLists hu).2
      exact I.var (List.mem_append_left _ (List.mem_map_of_mem hn))
    · rcases List.mem_append.1 hx with hg | hg
      · have hlen' : F.generics.length = (generics.map (Ty.var ·.text)).length := by simpa using hlen
        obtain ⟨u, _, hu⟩ := Substitution.exists_lookup_ofLists hlen' hg
        rw [hu] at hnone
        cases hnone
      · exact List.mem_append_right _ hg
  exact ⟨List.forall_mem_map.2 fun p hp => hinstance _ (hparams p hp),
    I.wanted_some (hinstance _ hresult)⟩

/-! ## Calls -/

/-- The written generics of a call are among the recorded ones, when the callee has no two generics
of the same name. -/
theorem given_recorded {generics : List String} {types : List TypeExpr}
    {given inferred : Substitution}
    (hgiven : ∀ x, given.binds x = true ↔ x ∈ writtenGenerics generics types)
    (hinferred : ∀ x, inferred.binds x = true → x ∈ openGenerics generics types)
    (hall : ∀ x, x ∈ generics ↔ x ∈ writtenGenerics generics types ∨ x ∈ openGenerics generics types)
    (hnd : generics.Nodup) (x : String) (u : Ty) (hu : given.lookup x = some u) :
    x ∈ generics ∧
      u ∈ generics.map fun g => ((given.extend inferred).lookup g).getD (.var g) := by
  have hwritten := (hgiven x).1 (binds_iff.2 ⟨u, hu⟩)
  have hx := (hall x).2 (Or.inl hwritten)
  have hnone : inferred.lookup x = none :=
    lookup_eq_none fun hb => disjoint_written_open hnd hwritten (hinferred x hb)
  refine ⟨hx, List.mem_map.2 ⟨x, hx, ?_⟩⟩
  rw [Substitution.lookup_extend, hnone, hu]
  rfl

/-- All parameters of a call tell things that have the property. -/
theorem telling_params (τ : Substitution) {F : Signature} {types : List Ty} {given : Substitution}
    {opened : List String} (hcall : I.Call F types) (hF : I.Holds gs F.toTy)
    (hgiven : I.Images gs given)
    (hrecorded : F.generics.Nodup → ∀ x u, given.lookup x = some u → x ∈ F.generics ∧ u ∈ types)
    (hall : ∀ x ∈ F.generics, given.binds x = true ∨ x ∈ opened)
    (hopened : ∀ x ∈ opened, x ∈ F.generics) :
    ∀ param ∈ F.paramTypes.map (·.resolve given), I.Telling gs opened τ param := by
  refine List.forall_mem_map.2 fun p hp => ⟨?_, fun g hg a t ht ha hfit => ?_⟩
  · obtain ⟨q, hq, rfl⟩ := List.mem_map.1 hp
    exact holds_instance opened ((I.fn.1 hF).1 q hq) hgiven hall
  · rcases I.found hcall hrecorded (hopened g hg) (List.mem_cons_of_mem _ hp)
      (Ty.found_of_infer _ ht) ha with ht | hclash
    · exact ht
    · exact (((hclash.resolve given).resolve τ).not_isAssignable.2 hfit).elim

/-- A call at generics that have the property. -/
theorem records_call {F : Signature} {σ : Substitution} {subject : TypedExpr}
    {args : List TypedExpr} (hs : subject.Records I.Holds gs) (hF : subject.ty = F.toTy)
    (hσ : I.Images gs σ) (hall : ∀ x ∈ F.generics, σ.binds x = true)
    (hargs : TypedExpr.RecordsAll I.Holds gs args) :
    (TypedExpr.invocation (F.result.resolve σ) subject
      (F.generics.map fun g => (σ.lookup g).getD (.var g)) args).Records I.Holds gs := by
  obtain ⟨_, hresult⟩ := I.fn.1 (hF ▸ I.records_ty hs)
  refine TypedExpr.records_invocation.2 ⟨?_, List.forall_mem_map.2 fun x hx => ?_, hs, hargs⟩
  · exact holds_instance [] hresult hσ fun x hx => Or.inl (hall x hx)
  · obtain ⟨u, hu⟩ := binds_iff.1 (hall x hx)
    rw [hu]
    exact hσ x u hu

end UnionChecker.Check.TypeInvariant
