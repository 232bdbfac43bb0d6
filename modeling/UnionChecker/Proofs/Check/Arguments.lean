import UnionChecker.Proofs.Check.Inversion
import UnionChecker.Proofs.Ty.Instances
import UnionChecker.Proofs.Ty.Scoped
import UnionChecker.Syntax.Construct
/-!
# The arguments of a call, and what they say about its generics

The arguments of a call are visited twice: first all but the lambdas that have to wait, then these. Each
one may widen what is inferred for an open generic, and none may narrow it (`Grows`), so in the end
every open generic stands for a type that contains whatever any argument asked for (`Heeds`).
-/

namespace UnionChecker

open Syntax (Argument Arguments TypeExpr Span Term)

/-! ## Merging one type after the other -/

theorem Ty.containedIn_trans {a b c : Ty} (hab : a.containedIn b = true)
    (hbc : b.containedIn c = true) : a.containedIn c = true := by
  simp only [containedIn, List.all_eq_true, List.any_eq_true] at *
  intro m hm
  obtain ⟨n, hn, hmn⟩ := hab m hm
  obtain ⟨k, hk, hnk⟩ := hbc n hn
  exact ⟨k, hk, equal_trans hnk hmn⟩

theorem mergeAll_eq_ok {g : String} {r : Option Ty} : ∀ {ts : List Ty} {s : Ty},
    ts.foldlM (fun found t => (mergeInference g found t).map some) (some s) = .ok r ↔
      List.IsChain (fun a b => a.containedIn b = true) (s :: ts) ∧ r = (s :: ts).getLast?
  | [], s => by simp [pure, Except.pure, @eq_comm _ r]
  | t :: ts, s => by
    rw [List.foldlM_cons, bind_eq_ok]
    simp only [map_eq_ok, mergeInference_eq_ok, List.isChain_cons_cons, List.getLast?_cons_cons]
    constructor
    · rintro ⟨_, ⟨_, ⟨rfl, hs⟩, rfl⟩, h⟩
      obtain ⟨hchain, hr⟩ := mergeAll_eq_ok.1 h
      exact ⟨⟨hs s rfl, hchain⟩, hr⟩
    · rintro ⟨⟨hs, hchain⟩, hr⟩
      exact ⟨_, ⟨t, ⟨rfl, by simpa using hs⟩, rfl⟩, mergeAll_eq_ok.2 ⟨hchain, hr⟩⟩

theorem containedIn_last {u : Ty} : ∀ {ts : List Ty},
    List.IsChain (fun a b => a.containedIn b = true) ts → ts.getLast? = some u →
    ∀ t ∈ ts, t.containedIn u = true
  | [], _, _, t, ht => by cases ht
  | [s], _, hu, t, ht => by
    obtain rfl : s = u := by simpa using hu
    obtain rfl := List.mem_singleton.1 ht
    exact t.containedIn_refl
  | s :: s' :: ts, h, hu, t, ht => by
    obtain ⟨hs, h⟩ := List.isChain_cons_cons.1 h
    have hrest := containedIn_last h (by rwa [List.getLast?_cons_cons] at hu)
    rcases List.mem_cons.1 ht with rfl | ht
    · exact Ty.containedIn_trans hs (hrest s' List.mem_cons_self)
    · exact hrest t ht

/-! ## Substitutions that only grow -/

/-- The generic stands for a type that contains `t`. -/
def Substitution.Covers (σ : Substitution) (g : String) (t : Ty) : Prop :=
  ∃ u, σ.lookup g = some u ∧ t.containedIn u = true

namespace Check

variable {Γ : Context} {opened : List String} {σ τ ρ : Substitution} {span : Span}
  {expected : Option Ty} {frames frames' : Frames}

theorem binds_iff {σ : Substitution} {x : String} :
    σ.binds x = true ↔ ∃ t, σ.lookup x = some t := by
  rw [Substitution.binds, Option.isSome_iff_exists]

/-- `τ` comes from `σ` by widening what open generics stand for, or by adding some. -/
structure Grows (opened : List String) (σ τ : Substitution) : Prop where
  covers : ∀ g t, σ.Covers g t → τ.Covers g t
  binds : ∀ g, τ.binds g = true → σ.binds g = true ∨ g ∈ opened

theorem Grows.refl : Grows opened σ σ := ⟨fun _ _ h => h, fun _ h => Or.inl h⟩

theorem Grows.trans (h : Grows opened σ τ) (h' : Grows opened τ ρ) : Grows opened σ ρ :=
  ⟨fun g t ht => h'.covers g t (h.covers g t ht),
    fun g hg => (h'.binds g hg).elim (h.binds g) Or.inr⟩

/-- What an argument says about the open generics is contained in what these stand for. -/
def Heeds (opened : List String) (σ : Substitution) (param : Ty) (arg : TypedExpr) : Prop :=
  ∀ g ∈ opened, ∀ t, param.infer g arg.ty = .ok (some t) → σ.Covers g t

theorem Heeds.grows {param : Ty} {arg : TypedExpr} (h : Heeds opened σ param arg)
    (hgrows : Grows opened σ τ) : Heeds opened τ param arg :=
  fun g hg t ht => hgrows.covers g t (h g hg t ht)

/-- A parameter that mentions no open generic says nothing. -/
theorem heeds_of_closed {param : Ty} {arg : TypedExpr} (h : param.mentionsAny opened = false) :
    Heeds opened σ param arg := fun g hg t ht => by
  rw [(Ty.mentionsAny_iff_exists _).2 ⟨g, hg, (Ty.found_of_infer _ ht).mentions⟩] at h
  cases h

/-! ## Inference from one type -/

/-- `τ` is `σ` with what the parameter and `a` say about the open generics. -/
structure Learns (param a : Ty) (opened : List String) (σ τ : Substitution) : Prop where
  told : ∀ g ∈ opened, ∀ t, param.infer g a = .ok (some t) → τ.lookup g = some t
  others : ∀ g, τ.lookup g = σ.lookup g ∨ g ∈ opened ∧ ∃ t, param.infer g a = .ok (some t)

theorem learns_inferFromExpected {param a : Ty} :
    ∀ {opened : List String} {inferred found : Substitution} {frames : Frames},
    Runs (inferFromExpected Γ param a span opened inferred) frames found frames' →
    Learns param a opened inferred found
  | [], _, _, _, hrun => by
    obtain ⟨rfl, _⟩ := runs_pure.1 hrun
    exact ⟨by simp, fun _ => Or.inl rfl⟩
  | g :: opened, inferred, _, _, hrun => by
    rw [inferFromExpected, runs_bind] at hrun
    obtain ⟨next, inner, hnext, hrun⟩ := hrun
    obtain ⟨hnext, -⟩ := runs_ofAlgebra.1 hnext
    cases next with
    | none =>
      have h := learns_inferFromExpected hrun
      exact ⟨List.forall_mem_cons.2 ⟨by simp [hnext], h.told⟩,
        fun x => (h.others x).imp_right (And.imp_left (List.mem_cons_of_mem g))⟩
    | some t =>
      have h := learns_inferFromExpected hrun
      refine ⟨List.forall_mem_cons.2 ⟨fun u hu => ?_, h.told⟩, fun x => ?_⟩
      · rcases h.others g with hg | ⟨hg, _⟩
        · cases hnext.symm.trans hu
          simpa [Substitution.lookup_set] using hg
        · exact h.told g hg u hu
      · by_cases hx : x = g
        · exact Or.inr ⟨by simp [hx], t, hx ▸ hnext⟩
        · simpa [Substitution.lookup_set, hx] using h.others x

/-- To infer from an argument is to learn from it, where nothing is narrowed. -/
theorem widens_inferFrom {param a : Ty} :
    ∀ {opened : List String} {inferred found : Substitution} {frames : Frames},
    Runs (inferFrom Γ param a span opened inferred) frames found frames' →
    Runs (inferFromExpected Γ param a span opened inferred) frames found frames' ∧
      ∀ g ∈ opened, ∀ t, param.infer g a = .ok (some t) →
        ∀ previous ∈ inferred.lookup g, previous.containedIn t = true
  | [], _, _, _, hrun => ⟨hrun, by simp⟩
  | g :: opened, inferred, _, _, hrun => by
    rw [inferFrom, runs_bind] at hrun
    rw [inferFromExpected, runs_bind]
    obtain ⟨next, inner, hnext, hrun⟩ := hrun
    have hnext' := (runs_ofAlgebra.1 hnext).1
    cases next with
    | none =>
      obtain ⟨h, hwidens⟩ := widens_inferFrom hrun
      exact ⟨⟨none, inner, hnext, h⟩, List.forall_mem_cons.2 ⟨by simp [hnext'], hwidens⟩⟩
    | some t =>
      dsimp only at hrun
      rw [runs_bind] at hrun
      obtain ⟨merged, inner', hmerged, hrun⟩ := hrun
      obtain ⟨hok, rfl⟩ := runs_ofAlgebra.1 hmerged
      obtain ⟨rfl, hprevious⟩ := mergeInference_eq_ok.1 hok
      obtain ⟨h, hwidens⟩ := widens_inferFrom hrun
      refine ⟨⟨some merged, inner', hnext, h⟩, fun x hx u hu previous hp => ?_⟩
      by_cases hxg : x = g
      · subst hxg
        cases hnext'.symm.trans hu
        exact hprevious previous hp
      · exact hwidens x (by simpa [hxg] using hx) u hu previous
          (by simpa [Substitution.lookup_set, hxg] using hp)

theorem grows_inferFrom {param : Ty} {arg : TypedExpr} {inferred found : Substitution}
    (hrun : Runs (inferFrom Γ param arg.ty span opened inferred) frames found frames') :
    Grows opened inferred found ∧ Heeds opened found param arg := by
  obtain ⟨hlearns, hwidens⟩ := widens_inferFrom hrun
  replace hlearns := learns_inferFromExpected hlearns
  refine ⟨⟨?_, fun g hg => ?_⟩,
    fun g hg t ht => ⟨t, hlearns.told g hg t ht, t.containedIn_refl⟩⟩
  · rintro g t ⟨u, hu, htu⟩
    rcases hlearns.others g with hsame | ⟨hg, s, hs⟩
    · exact ⟨u, hsame.trans hu, htu⟩
    · exact ⟨s, hlearns.told g hg s hs, Ty.containedIn_trans htu (hwidens g hg s hs u hu)⟩
  · rcases hlearns.others g with hsame | ⟨hopen, _⟩
    · exact Or.inl (by rwa [Substitution.binds, hsame] at hg)
    · exact Or.inr hopen

/-- The type that is wanted only speaks for generics that the arguments leave open. -/
theorem grows_completeInference {result : Ty} {inferred found : Substitution}
    (hrun : Runs (completeInference Γ result expected opened inferred span) frames found frames') :
    Grows opened inferred found ∧ ∀ g ∈ opened, found.binds g = true := by
  unfold completeInference at hrun
  simp only [runs_bind, runs_ite, runs_pure, not_runs_fail, and_false, or_false] at hrun
  obtain ⟨all, inner, hall, hbinds, rfl, _⟩ := hrun
  have hothers : ∀ g, found.lookup g = inferred.lookup g ∨
      g ∈ opened ∧ inferred.lookup g = none := fun g => by
    cases expected with
    | none => exact Or.inl (by rw [(runs_pure.1 hall).1])
    | some wanted =>
      refine ((learns_inferFromExpected hall).others g).imp_right fun h => ?_
      simpa [Substitution.binds] using h.1
  refine ⟨⟨?_, fun g hg => ?_⟩, List.all_eq_true.1 hbinds⟩
  · rintro g t ⟨u, hu, ht⟩
    rcases hothers g with hsame | ⟨_, hnone⟩
    · exact ⟨u, hsame.trans hu, ht⟩
    · cases hu.symm.trans hnone
  · rcases hothers g with hsame | ⟨hopen, _⟩
    · exact Or.inl (by rwa [Substitution.binds, hsame] at hg)
    · exact Or.inr hopen

/-! ## Arguments that fit -/

theorem yields_requireAssignable (Γ : Context) (found expected : Ty) (span : Span) :
    Yields (requireAssignable Γ found expected span) fun _ => found.isAssignable expected = true := by
  rw [requireAssignable]
  split
  · exact yields_pure ‹_›
  · exact yields_fail

/-- A term that is wanted at a type has a type that is assignable to it. -/
theorem yields_checkTerm (Γ : Context) (t : Term) (wanted : Ty) :
    Yields (checkTerm Γ t (some wanted)) fun e => e.ty.isAssignable wanted = true := by
  obtain ⟨head, links, span⟩ := t
  cases links with
  | nil =>
    rw [checkTerm]
    refine (yields_true _).bind fun e _ => ?_
    exact (yields_requireAssignable Γ e.ty wanted span).bind fun _ h => yields_pure h
  | cons link links =>
    rw [checkTerm]
    refine (yields_true _).bind fun first _ => (yields_true _).bind fun e _ => ?_
    exact (yields_requireAssignable Γ e.ty wanted span).bind fun _ h => yields_pure h

theorem yields_checkArguments (Γ : Context) : ∀ (items : List Argument) (params : List Ty),
    items.length = params.length → Yields (checkArguments Γ items params) fun args =>
      List.Forall₂ (fun arg param => arg.ty.isAssignable param = true) args params
  | [], [], _ => by simp only [checkArguments]; exact yields_pure .nil
  | [], _ :: _, h => by simp at h
  | _ :: _, [], h => by simp at h
  | ⟨_, value, _⟩ :: items, param :: params, h => by
    rw [checkArguments]
    refine (yields_checkTerm Γ value param).bind fun e he => ?_
    exact (yields_checkArguments Γ items params (by simpa using h)).bind fun args hargs =>
      yields_pure (.cons he hargs)

theorem yields_requireArguments (Γ : Context) (inferred : Substitution) :
    ∀ (items : List Argument) (params : List Ty) (args : List TypedExpr),
      items.length = params.length → args.length = params.length →
      Yields (requireArguments Γ inferred items params args) fun _ =>
        List.Forall₂ (fun arg param => arg.ty.isAssignable (param.resolve inferred) = true) args params
  | _, [], [], _, _ => fun _ _ _ _ => .nil
  | _, [], _ :: _, _, h => by simp at h
  | _, _ :: _, [], _, h => by simp at h
  | [], _ :: _, _ :: _, h, _ => by simp at h
  | item :: items, param :: params, arg :: args, hi, ha => by
    rw [requireArguments]
    refine (yields_requireAssignable Γ _ _ _).bind fun _ h => ?_
    exact (yields_requireArguments Γ inferred items params args (by simpa using hi)
      (by simpa using ha)).mono fun _ hrest => .cons h hrest

/-! ## The two visits -/

/-- The arguments after the first visit: those that have to wait are lambdas where functions are
wanted, and the others are heeded. -/
inductive Visited (opened : List String) (σ : Substitution) :
    List Argument → List Ty → List (Option TypedExpr) → Prop
  | nil : Visited opened σ [] [] []
  | cons {item : Argument} {items : List Argument} {param : Ty} {params : List Ty}
      {first : Option TypedExpr} {early : List (Option TypedExpr)}
      (hwaits : first = none → isPlainLambda item.value = true ∧ param.signature?.isSome = true)
      (hfirst : ∀ e ∈ first, Heeds opened σ param e) (hrest : Visited opened σ items params early) :
      Visited opened σ (item :: items) (param :: params) (first :: early)

theorem Visited.grows {items : List Argument} {params : List Ty} {early : List (Option TypedExpr)}
    (h : Visited opened σ items params early) (hgrows : Grows opened σ τ) :
    Visited opened τ items params early := by
  induction h with
  | nil => exact .nil
  | cons hwaits hfirst _ ih => exact .cons hwaits (fun e he => (hfirst e he).grows hgrows) ih

theorem visited_checkEarly : ∀ {items : List Argument} {params : List Ty}
    {inferred found : Substitution} {early : List (Option TypedExpr)} {frames : Frames},
    items.length = params.length →
    Runs (checkEarly Γ items params opened inferred) frames (early, found) frames' →
    Grows opened inferred found ∧ Visited opened found items params early
  | [], [], _, _, _, _, _, hrun => by
    obtain ⟨rfl, rfl, _⟩ := (runs_checkEarly_nil (Or.inl rfl)).1 hrun
    exact ⟨.refl, .nil⟩
  | [], _ :: _, _, _, _, _, hlen, _ => by simp at hlen
  | _ :: _, [], _, _, _, _, hlen, _ => by simp at hlen
  | ⟨_, value, _⟩ :: items, param :: params, _, _, _, _, hlen, hrun => by
    obtain ⟨first, inferred', inner, rest, hfirst, hrest, rfl⟩ := runs_checkEarly_cons hrun
    obtain ⟨hgrows, hvisited⟩ := visited_checkEarly (by simpa using hlen) hrest
    cases hfirst with
    | closed hparam => exact ⟨hgrows, .cons (by simp) (fun _ _ => heeds_of_closed hparam) hvisited⟩
    | waiting _ hlambda hfn => exact ⟨hgrows, .cons (fun _ => ⟨hlambda, hfn⟩) (by simp) hvisited⟩
    | telling _ _ _ hinfer =>
      obtain ⟨hgrows', hheeds⟩ := grows_inferFrom hinfer
      refine ⟨hgrows'.trans hgrows, .cons (by simp) (fun e he => ?_) hvisited⟩
      cases he
      exact hheeds.grows hgrows

/-- Arguments that are checked early stay what they are, and in the end all are heeded. -/
theorem heeds_checkDeferred : ∀ {items : List Argument} {params : List Ty}
    {early : List (Option TypedExpr)} {inferred found : Substitution} {args : List TypedExpr}
    {frames : Frames}, Visited opened inferred items params early →
    Runs (checkDeferred Γ items params opened early inferred) frames (args, found) frames' →
    Grows opened inferred found ∧ List.Forall₂ (fun first arg => ∀ e ∈ first, e = arg) early args ∧
      List.Forall₂ (fun arg param => Heeds opened found param arg) args params
  | _, _, _, _, _, _, _, .nil, hrun => by
    obtain ⟨rfl, rfl, _⟩ := (runs_checkDeferred_nil (Or.inl rfl)).1 hrun
    exact ⟨.refl, .nil, .nil⟩
  | ⟨_, _, _⟩ :: _, _, some e :: _, _, _, _, _, .cons _ hfirst hvisited, hrun => by
    obtain ⟨rest, hrest, rfl⟩ := runs_checkDeferred_early hrun
    obtain ⟨hgrows, hsame, hheeds⟩ := heeds_checkDeferred hvisited hrest
    exact ⟨hgrows, .cons (by simp) hsame, .cons ((hfirst e rfl).grows hgrows) hheeds⟩
  | ⟨_, ⟨_, _, _⟩, _⟩ :: _, _, none :: _, _, _, _, _, .cons _ _ hvisited, hrun => by
    obtain ⟨e, inner, inferred', rest, _, hinfer, hrest, rfl⟩ := runs_checkDeferred_waiting hrun
    obtain ⟨hgrows', hfirst⟩ := grows_inferFrom hinfer
    obtain ⟨hgrows, hsame, hheeds⟩ := heeds_checkDeferred (hvisited.grows hgrows') hrest
    exact ⟨hgrows'.trans hgrows, .cons (by simp) hsame, .cons (hfirst.grows hgrows) hheeds⟩

/-- What the arguments of a call with open generics come to. -/
theorem inferred_arguments {items : List Argument} {params : List Ty} {result : Ty}
    {early : List (Option TypedExpr)} {args : List TypedExpr}
    {found collected inferred : Substitution} {inner : Frames} (hlen : items.length = params.length)
    (hearly : Runs (checkEarly Γ items params opened []) frames (early, found) inner)
    (hdeferred : Runs (checkDeferred Γ items params opened early found) inner (args, collected)
      frames')
    (hcomplete : Runs (completeInference Γ result expected opened collected span) frames' inferred
      frames') :
    (∀ x, inferred.binds x = true ↔ x ∈ opened) ∧ Visited opened found items params early ∧
      List.Forall₂ (fun first arg => ∀ e ∈ first, e = arg) early args ∧
      (Runs (requireArguments Γ inferred items params args) frames' () frames' →
        List.Forall₂ (fun arg param => arg.ty.isAssignable (param.resolve inferred) = true) args
          params) ∧ List.Forall₂ (fun arg param => Heeds opened inferred param arg) args params := by
  obtain ⟨hfound, hvisited⟩ := visited_checkEarly hlen hearly
  obtain ⟨hcollected, hsame, hheeds⟩ := heeds_checkDeferred hvisited hdeferred
  obtain ⟨hinferred, hall⟩ := grows_completeInference hcomplete
  have hgrows := (hfound.trans hcollected).trans hinferred
  exact ⟨fun x => ⟨fun hx => (hgrows.binds x hx).resolve_left (by simp [Substitution.binds]), hall x⟩,
    hvisited, hsame,
    yields_requireArguments Γ inferred items params args hlen hheeds.length_eq _ _ _,
    hheeds.imp fun _ _ h => h.grows hinferred⟩

/-- Whatever way a call comes by its arguments, they fit the parameters in the end and are heeded. -/
theorem ArgumentRun.arguments {items : List Argument} {F : Signature} {given : Substitution}
    {args : List TypedExpr} (hlen : items.length = F.params.length)
    (h : ArgumentRun Γ items F expected span frames given opened σ args frames') :
    ∃ inferred : Substitution, σ = given.extend inferred ∧
      (∀ x, inferred.binds x = true ↔ x ∈ opened) ∧
      List.Forall₂ (fun arg param =>
        arg.ty.isAssignable ((param.2.resolve given).resolve inferred) = true ∧
        Heeds opened inferred (param.2.resolve given) arg) args F.params := by
  have hmap : F.paramTypes.map (·.resolve given) = F.params.map (·.2.resolve given) := by
    simp [Signature.paramTypes]
  cases h with
  | written hargs =>
    have hfit := yields_checkArguments Γ items _ (by simpa [hmap]) _ _ _ hargs
    rw [hmap, List.forall₂_map_right_iff] at hfit
    exact ⟨[], rfl, by simp [Substitution.binds], by simpa [Heeds, Ty.resolve_nil] using hfit⟩
  | inferred _ hearly hdeferred hcomplete hfit =>
    obtain ⟨hinferred, -, -, hfits, hheeds⟩ :=
      inferred_arguments (by simpa [hmap]) hearly hdeferred hcomplete
    replace hfit := hfits hfit
    rw [hmap, List.forall₂_map_right_iff, List.forall₂_iff_zip] at hfit hheeds
    exact ⟨_, rfl, hinferred,
      List.forall₂_iff_zip.2 ⟨hfit.1, fun h => ⟨hfit.2 h, hheeds.2 h⟩⟩⟩

theorem yields_callGenerics (Γ : Context) (σ : Substitution) (span : Span) :
    ∀ generics : List String, Yields (callGenerics Γ σ span generics) fun types =>
      types = generics.map fun g => (σ.lookup g).getD (.var g)
  | [] => yields_pure rfl
  | generic :: generics => by
    rw [callGenerics]
    split
    · exact yields_fail
    · exact (yields_callGenerics Γ σ span generics).bind fun types h => yields_pure (by simp [h])

/-- Merging types for a generic one after the other succeeds just when each is contained in the next,
and gives the last, in which all are contained. So the types inferred for open generics contain
whatever any argument says about these, early or late, and a checked call records these types. -/
theorem merged_inferences_grow :
    (∀ (g : String) (t : Ty) (ts : List Ty) (r : Option Ty),
      (t :: ts).foldlM (fun found t => (mergeInference g found t).map some) none = .ok r ↔
        List.IsChain (fun a b => a.containedIn b = true) (t :: ts) ∧ r = (t :: ts).getLast?) ∧
    (∀ (ts : List Ty) (u : Ty), List.IsChain (fun a b => a.containedIn b = true) ts →
      ts.getLast? = some u → ∀ t ∈ ts, t.containedIn u = true) ∧
    (∀ (Γ : Context) (items : List Argument) (params : List Ty) (opened : List String) (result : Ty)
      (expected : Option Ty) (span : Span) (early : List (Option TypedExpr)) (args : List TypedExpr)
      (found collected σ : Substitution) (frames inner frames' : Frames),
      items.length = params.length →
      Runs (checkEarly Γ items params opened []) frames (early, found) inner →
      Runs (checkDeferred Γ items params opened early found) inner (args, collected) frames' →
      Runs (completeInference Γ result expected opened collected span) frames' σ frames' →
      List.Forall₂ (fun arg param => ∀ g ∈ opened, ∀ t, param.infer g arg.ty = .ok (some t) →
        ∃ u, σ.lookup g = some u ∧ t.containedIn u = true) args params) ∧
    ∀ (Γ : Context) (types : List TypeExpr) (items : List Argument) (argsSpan span : Span)
      (subject e : TypedExpr) (expected : Option Ty) (frames frames' : Frames),
      Runs (checkCall Γ ⟨types, items, argsSpan⟩ subject expected span) frames e frames' →
      ∃ (F : Signature) (given σ : Substitution) (opened : List String) (args : List TypedExpr),
        subject.ty = F.toTy ∧
        Runs (explicitGenerics Γ F.generics types argsSpan) frames (given, opened) frames ∧
        e = .invocation (F.result.resolve σ) subject
          (F.generics.map fun g => (σ.lookup g).getD (.var g)) args ∧
        List.Forall₂ (fun arg param => ∀ g ∈ opened, ∀ t,
          (param.2.resolve given).infer g arg.ty = .ok (some t) →
            ∃ u, σ.lookup g = some u ∧ t.containedIn u = true) args F.params := by
  refine ⟨fun g t ts r => mergeAll_eq_ok, fun ts u => containedIn_last, ?_, ?_⟩
  · intro Γ items params opened result expected span early args found collected σ frames inner frames'
      hlen hearly hdeferred hcomplete
    exact (inferred_arguments hlen hearly hdeferred hcomplete).2.2.2.2
  intro Γ types items argsSpan span subject e expected frames frames' hrun
  obtain ⟨F, given, σ, opened, args, generics, hF, hlen, -, hgiven, hargs, hgenerics, rfl⟩ :=
    runs_checkCall.1 hrun
  obtain ⟨inferred, rfl, -, hheeds⟩ := hargs.arguments hlen
  obtain rfl := yields_callGenerics _ _ _ _ _ _ _ hgenerics
  refine ⟨F, given, _, opened, args, hF, hgiven, rfl, hheeds.imp fun arg param h g hg t ht => ?_⟩
  obtain ⟨u, hu, htu⟩ := h.2 g hg t ht
  exact ⟨u, by simp [Substitution.lookup_extend, hu], htu⟩

/-- `<A, B>(x: A, f: (B) ~> A) ~> A`. -/
def wideningCallee : Signature :=
  ⟨["A", "B"], [("x", .var "A"), ("f", .fn [] [("y", .var "B")] (.var "A"))], .var "A"⟩

/-- The arguments `1` and `(y: String): Int | String => 2`. -/
def wideningArgs : List TypedExpr :=
  [.literal (.int 1) .int,
    .function ⟨⟨[], [("y", .string)], .union [.int, .string]⟩, ["y"], [.literal (.int 2) .int]⟩]

/-- The lambda, which has to wait, widens `A` from `Int` to `Int | String`. -/
theorem merged_inferences_grow_late : List.Forall₂ (fun arg param => ∀ t,
    param.2.infer "A" arg.ty = .ok (some t) → t.containedIn (.union [.int, .string]) = true)
    wideningArgs wideningCallee.params := by
  have hrun : Runs (checkCall ⟨.empty "main", "a", []⟩
      (Term.arguments [] [.literal (.int 1), .lambda [] [("y", some (.named "String" []))]
        (some (.oneOf [.named "Int" [], .named "String" []])) [.literal (.int 2)]])
      (.reference wideningCallee.toTy none "g") none .zero) [{}]
      (.invocation (.union [.int, .string]) (.reference wideningCallee.toTy none "g")
        [.union [.int, .string], .string] wideningArgs) [{}] := by
    unfold Runs
    with_unfolding_all rfl
  obtain ⟨⟨gs, ps, r⟩, given, σ, opened, args, hF, hgiven, he, hgrow⟩ :=
    merged_inferences_grow.2.2.2 _ _ _ _ _ _ _ _ _ _ hrun
  obtain ⟨rfl, rfl, rfl⟩ := Ty.fn.inj hF
  obtain ⟨rfl, rfl⟩ := Prod.mk.inj (runs_pure.1 hgiven).1
  obtain ⟨-, -, hσ, rfl⟩ := TypedExpr.invocation.inj he
  refine hgrow.imp fun arg param h t ht => ?_
  obtain ⟨u, hu, htu⟩ := h "A" List.mem_cons_self t (by simpa [Ty.resolve_nil] using ht)
  rw [wideningCallee, List.map_cons, hu] at hσ
  exact (List.cons.inj hσ).1 ▸ htu

end Check

end UnionChecker
