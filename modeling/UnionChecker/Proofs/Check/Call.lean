import UnionChecker.Proofs.Check.Arguments
/-!
# Calls are well typed at the generics they record

A checked call records a type for each generic of the callee. Its own type is the result of the
callee at these generics, and its arguments are checked against the parameters, into which the
written generics are put first and the inferred ones after that.

When all generics are written, or none, the arguments so fit the parameters of the callee at the
recorded generics. A call with both kinds can go wrong: a written generic that mentions a name that
the callee uses for an open one is changed by what is inferred for this. It cannot go wrong when the
names keep out of each other's way (`Separate`).
-/

namespace UnionChecker

open Syntax (Argument Arguments TypeExpr Span Term)

namespace Check

/-! ## The generics of a call -/

/-- The generics of a callee that the written generics of a call leave open. -/
def openGenerics (generics : List String) (types : List TypeExpr) : List String :=
  if types.isEmpty then generics
  else ((generics.zip types).filter fun p => isHole p.2).map (·.1)

/-- The generics of a callee for which a call gives a written type. -/
def writtenGenerics (generics : List String) (types : List TypeExpr) : List String :=
  ((generics.zip types).filter fun p => !isHole p.2).map (·.1)

theorem binds_set {σ : Substitution} {generic x : String} {t : Ty} :
    (σ.set generic t).binds x = true ↔ x = generic ∨ σ.binds x = true := by
  rw [Substitution.binds, Substitution.lookup_set]
  by_cases hx : x = generic <;> simp [hx, Substitution.binds]

theorem yields_givenGenerics (Γ : Context) : ∀ (generics : List String) (types : List TypeExpr)
    (given : Substitution) (opened : List String),
    Yields (givenGenerics Γ generics types given opened) fun r =>
      (∀ x, r.1.binds x = true ↔ given.binds x = true ∨ x ∈ writtenGenerics generics types) ∧
      r.2 = opened ++ ((generics.zip types).filter fun p => isHole p.2).map (·.1)
  | [], types, given, opened => by
    simp only [givenGenerics]
    exact yields_pure ⟨by simp [writtenGenerics], by simp⟩
  | _ :: _, [], given, opened => by
    simp only [givenGenerics]
    exact yields_pure ⟨by simp [writtenGenerics], by simp⟩
  | generic :: generics, type :: types, given, opened => by
    rw [givenGenerics]
    split
    · rename_i hole
      refine (yields_givenGenerics Γ generics types given (opened ++ [generic])).mono fun r hr => ?_
      exact ⟨by simpa [writtenGenerics, hole] using hr.1, by simp [hr.2, hole]⟩
    · rename_i hole
      refine (yields_true _).bind fun t _ => ?_
      refine (yields_givenGenerics Γ generics types (given.set generic t) opened).mono fun r hr => ?_
      refine ⟨fun x => ?_, by simp [hr.2, hole]⟩
      rw [hr.1, binds_set]
      simp [writtenGenerics, hole, or_assoc, or_left_comm]

theorem yields_explicitGenerics (Γ : Context) (generics : List String) (types : List TypeExpr)
    (span : Span) : Yields (explicitGenerics Γ generics types span) fun r =>
      (∀ x, r.1.binds x = true ↔ x ∈ writtenGenerics generics types) ∧
      r.2 = openGenerics generics types ∧
      ∀ x, x ∈ generics ↔ x ∈ writtenGenerics generics types ∨ x ∈ openGenerics generics types := by
  rw [explicitGenerics]
  split
  · rename_i he
    rw [List.isEmpty_iff] at he
    subst he
    exact yields_pure ⟨by simp [Substitution.binds, writtenGenerics], rfl,
      by simp [writtenGenerics, openGenerics]⟩
  · rename_i he
    split
    · rename_i hl
      refine (yields_givenGenerics Γ generics types [] []).mono fun r hr => ⟨fun x => ?_, ?_, ?_⟩
      · simpa [Substitution.binds] using hr.1 x
      · simpa [openGenerics, he] using hr.2
      · intro x
        have hz : (generics.zip types).map (·.1) = generics :=
          List.map_fst_zip (Nat.le_of_eq (beq_iff_eq.1 hl).symm)
        rw [openGenerics, if_neg he, writtenGenerics, ← List.mem_append, ← List.map_append]
        conv_lhs => rw [← hz]
        simp only [List.mem_map, List.mem_append, List.mem_filter]
        constructor
        · rintro ⟨p, hp, rfl⟩
          cases hh : isHole p.2 <;> exact ⟨p, by simp [hp, hh], rfl⟩
        · rintro ⟨p, hp, rfl⟩
          exact ⟨p, by tauto, rfl⟩
    · exact yields_fail

/-! ## A checked call -/

/-- What a checked call is: the written generics are put into the parameters first and the inferred
ones after that, and the type of the call and the generics it records come from both together. -/
theorem yields_checkCall (Γ : Context) (call : Arguments) (subject : TypedExpr)
    (expected : Option Ty) (span : Span) :
    Yields (checkCall Γ call subject expected span) fun e =>
      ∃ (F : Signature) (given inferred : Substitution) (args : List TypedExpr),
        subject.ty = F.toTy ∧
        (∀ x, given.binds x = true ↔ x ∈ writtenGenerics F.generics call.generics) ∧
        (∀ x, inferred.binds x = true ↔ x ∈ openGenerics F.generics call.generics) ∧
        (∀ x, x ∈ F.generics ↔ x ∈ writtenGenerics F.generics call.generics ∨
          x ∈ openGenerics F.generics call.generics) ∧
        e = .invocation (F.result.resolve (given.extend inferred)) subject
          (F.generics.map fun g => ((given.extend inferred).lookup g).getD (.var g)) args ∧
        List.Forall₂ (fun arg param =>
          arg.ty.isAssignable ((param.2.resolve given).resolve inferred) = true) args F.params := by
  intro frames e frames' hrun
  obtain ⟨types, items, argsSpan⟩ := call
  obtain ⟨F, given, σ, opened, args, generics, hF, hlen, -, hgiven, hargs, hgenerics, rfl⟩ :=
    runs_checkCall.1 hrun
  obtain ⟨hwritten, rfl, hall⟩ := yields_explicitGenerics _ _ _ _ _ _ _ hgiven
  obtain ⟨inferred, rfl, hinferred, hfit⟩ := hargs.arguments hlen
  obtain rfl := yields_callGenerics _ _ _ _ _ _ _ hgenerics
  exact ⟨F, given, inferred, args, hF, hwritten, hinferred, hall, rfl, hfit.imp fun _ _ h => h.1⟩

/-- A call leaves all its generics open, or none. -/
def OneWay (types : List TypeExpr) : Prop :=
  (∀ t ∈ types, isHole t = true) ∨ ∀ t ∈ types, isHole t = false

/-- The names of a call with written and open generics keep out of each other's way. -/
structure Separate (F : Signature) (types : List TypeExpr) (generics : List Ty)
    (args : List TypedExpr) : Prop where
  /-- The generics of the callee have different names. -/
  nodup : F.generics.Nodup
  regular : ∀ t ∈ F.toTy :: (generics ++ args.map TypedExpr.ty), t.Regular
  /-- No written generic mentions a name that the callee uses for an open one. -/
  apart : ∀ x ∈ writtenGenerics F.generics types, ∀ y ∈ openGenerics F.generics types, ∀ t,
    (Substitution.ofLists F.generics generics).lookup x = some t → t.mentionsAny [y] = false
  /-- No recorded generic mentions a name that is bound inside a parameter or another one. -/
  captureFree : ∀ u ∈ generics, ∀ t ∈ F.paramTypes ++ generics, ∀ g ∈ t.binders,
    u.mentionsAny [g] = false

theorem lookup_eq_none {σ : Substitution} {x : String} (h : ¬ σ.binds x = true) :
    σ.lookup x = none := by
  rwa [Substitution.binds, Bool.not_eq_true, Option.isSome_eq_false_iff, Option.isNone_iff_eq_none] at h

/-- The recorded generics say what the substitutions of the call say. -/
theorem lookup_recorded {σ : Substitution} {generics : List String}
    (h : ∀ x, σ.binds x = true ↔ x ∈ generics) (x : String) :
    (Substitution.ofLists generics
      (generics.map fun g => (σ.lookup g).getD (.var g))).lookup x = σ.lookup x := by
  rw [Substitution.lookup_ofLists_map]
  split
  · rename_i hx
    obtain ⟨t, ht⟩ := binds_iff.1 ((h x).2 hx)
    rw [ht]
    rfl
  · rename_i hx
    exact (lookup_eq_none fun hb => hx ((h x).1 hb)).symm

theorem disjoint_written_open {generics : List String} {types : List TypeExpr}
    (h : generics.Nodup) {x : String} (hw : x ∈ writtenGenerics generics types) :
    x ∉ openGenerics generics types := by
  intro ho
  rw [writtenGenerics, List.mem_map] at hw
  obtain ⟨p, hp, rfl⟩ := hw
  rw [List.mem_filter] at hp
  rw [openGenerics] at ho
  split at ho
  · rename_i he
    rw [List.isEmpty_iff.1 he, List.zip_nil_right] at hp
    exact absurd hp.1 List.not_mem_nil
  · obtain ⟨q, hq, he⟩ := List.mem_map.1 ho
    rw [List.mem_filter] at hq
    obtain ⟨i, hi⟩ := List.mem_iff_getElem?.1 hp.1
    obtain ⟨j, hj⟩ := List.mem_iff_getElem?.1 hq.1
    rw [List.getElem?_zip_eq_some] at hi hj
    have hij : i = j := (List.getElem?_inj (List.getElem?_eq_some_iff.1 hi.1).1 h).1
      (by rw [hi.1, hj.1, he])
    have htypes : p.2 = q.2 := by simpa [hij, hj.2] using hi.2.symm
    rw [htypes] at hp
    simp_all

theorem writtenGenerics_of_open {generics : List String} {types : List TypeExpr}
    (h : ∀ t ∈ types, isHole t = true) : writtenGenerics generics types = [] := by
  rw [writtenGenerics, List.map_eq_nil_iff, List.filter_eq_nil_iff]
  intro p hp
  simp [h p.2 (List.of_mem_zip hp).2]

theorem openGenerics_of_written {generics : List String} {types : List TypeExpr}
    (hne : types ≠ []) (h : ∀ t ∈ types, isHole t = false) : openGenerics generics types = [] := by
  rw [openGenerics, if_neg (by simpa using hne), List.map_eq_nil_iff, List.filter_eq_nil_iff]
  intro p hp
  simp [h p.2 (List.of_mem_zip hp).2]

theorem resolve_of_lookup_none {σ : Substitution} (h : ∀ x, σ.lookup x = none) (t : Ty) :
    t.resolve σ = t := by
  rw [Ty.resolve, if_pos (Substitution.isEmpty_iff_lookup.2 h)]

/-- A call that writes all generics, or none, puts in at once what there is to put in. -/
theorem resolve_resolve_of_oneWay {generics : List String} {types : List TypeExpr}
    {given inferred : Substitution} (h : OneWay types)
    (hgiven : ∀ x, given.binds x = true ↔ x ∈ writtenGenerics generics types)
    (hinferred : ∀ x, inferred.binds x = true ↔ x ∈ openGenerics generics types) (t : Ty) :
    (t.resolve given).resolve inferred = t.resolve (given.extend inferred) := by
  by_cases hopen : ∀ t ∈ types, isHole t = true
  · have hnone : ∀ x, given.lookup x = none := fun x => lookup_eq_none fun hb => by
      rw [hgiven, writtenGenerics_of_open hopen] at hb
      cases hb
    rw [resolve_of_lookup_none hnone]
    refine Ty.resolve_congr (fun x => ?_) t
    rw [Substitution.lookup_extend, hnone, Option.or_none]
  · have hnone : ∀ x, inferred.lookup x = none := fun x => lookup_eq_none fun hb => by
      rw [hinferred, openGenerics_of_written (by rintro rfl; simp at hopen)
        (h.resolve_left hopen)] at hb
      cases hb
    rw [resolve_of_lookup_none hnone]
    refine Ty.resolve_congr (fun x => ?_) t
    rw [Substitution.lookup_extend, hnone, Option.none_or]

/-- The substitutions of a call, read off the generics it records. -/
theorem lookup_parts {given inferred σ : Substitution} {written opened : List String}
    (hσ : ∀ x, σ.lookup x = (given.extend inferred).lookup x)
    (hgiven : ∀ x, given.binds x = true ↔ x ∈ written)
    (hinferred : ∀ x, inferred.binds x = true ↔ x ∈ opened)
    (hdisjoint : ∀ x ∈ written, x ∉ opened) :
    (∀ x, (σ.without opened).lookup x = given.lookup x) ∧
      ∀ x, (σ.without written).lookup x = inferred.lookup x := by
  have hnone : ∀ x, x ∉ written → given.lookup x = none := fun x hx =>
    lookup_eq_none fun hb => hx ((hgiven x).1 hb)
  have hnone' : ∀ x, x ∉ opened → inferred.lookup x = none := fun x hx =>
    lookup_eq_none fun hb => hx ((hinferred x).1 hb)
  refine ⟨fun x => ?_, fun x => ?_⟩ <;>
    rw [Substitution.lookup_without, hσ, Substitution.lookup_extend] <;> split
  · rename_i hx
    exact (hnone x fun hw => hdisjoint x hw hx).symm
  · rename_i hx
    rw [hnone' x hx, Option.none_or]
  · rename_i hx
    exact (hnone' x (hdisjoint x hx)).symm
  · rename_i hx
    rw [hnone x hx, Option.or_none]

/-- In a call whose names keep out of each other's way, it does not matter that the parameters take
the written generics before the inferred ones. -/
theorem Separate.isAssignable {F : Signature} {types : List TypeExpr} {generics : List Ty}
    {args : List TypedExpr} (h : Separate F types generics args)
    (hall : ∀ x ∈ F.generics, x ∈ writtenGenerics F.generics types ∨ x ∈ openGenerics F.generics types)
    {arg : TypedExpr} (harg : arg ∈ args) {param : String × Ty} (hparam : param ∈ F.params)
    (hfit : arg.ty.isAssignable
      ((param.2.resolve ((Substitution.ofLists F.generics generics).without
          (openGenerics F.generics types))).resolve
        ((Substitution.ofLists F.generics generics).without
          (writtenGenerics F.generics types))) = true) :
    arg.ty.isAssignable (param.2.resolve (Substitution.ofLists F.generics generics)) = true := by
  generalize hσ : Substitution.ofLists F.generics generics = σ at hfit ⊢
  have hmem : ∀ {x t}, σ.lookup x = some t → x ∈ F.generics ∧ t ∈ generics := fun hx =>
    Substitution.mem_of_lookup_ofLists (hσ ▸ hx)
  have hwritten : ∀ {x t}, (σ.without (openGenerics F.generics types)).lookup x = some t →
      x ∈ writtenGenerics F.generics types ∧ σ.lookup x = some t := fun hx => by
    obtain ⟨ho, hx⟩ := Substitution.lookup_of_without hx
    exact ⟨(hall _ (hmem hx).1).resolve_right ho, hx⟩
  have hopen : ∀ {x t}, (σ.without (writtenGenerics F.generics types)).lookup x = some t →
      x ∈ openGenerics F.generics types ∧ σ.lookup x = some t := fun hx => by
    obtain ⟨hw, hx⟩ := Substitution.lookup_of_without hx
    exact ⟨(hall _ (hmem hx).1).resolve_left hw, hx⟩
  have hregular : ∀ t ∈ generics, t.Regular := fun t ht =>
    h.regular t (List.mem_cons_of_mem _ (List.mem_append_left _ ht))
  have hF : F.toTy.Regular := h.regular _ (by simp)
  have hp : param.2.Regular := Ty.Regular.param hF hparam
  have ha : arg.ty.Regular := h.regular _
    (List.mem_cons_of_mem _ (List.mem_append_right _ (List.mem_map_of_mem harg)))
  have hcapture : ∀ t ∈ F.paramTypes ++ generics, Ty.CaptureFree σ t := fun t ht x u hx g hg =>
    h.captureFree u (hmem hx).2 t ht g hg
  -- the two steps of the check put in what `σ` puts in at once
  have hmeaning := Ty.meaning_resolve_resolve (t := param.2) (ρ := σ) Ty.positional_atoms
    (σ := σ.without (openGenerics F.generics types))
    (τ := σ.without (writtenGenerics F.generics types))
    (fun x => by
      rw [Substitution.lookup_without, Substitution.lookup_without]
      by_cases hw : x ∈ writtenGenerics F.generics types
      · simp [hw, disjoint_written_open h.nodup hw]
      · cases hx : σ.lookup x <;> simp [hw])
    (fun x u hx => by simp [Substitution.lookup_without, (hwritten hx).1])
    (fun x u y w hx hy => h.apart x (hwritten hx).1 y (hopen hy).1 u (hσ ▸ (hwritten hx).2))
    (fun d i => by
      cases hx : (σ.without (writtenGenerics F.generics types)).lookup (Ty.positional d i) with
      | none => rfl
      | some t =>
        have hg := (hmem (hopen hx).2).1
        exact absurd (Ty.head_positional d i) (hF.bound _ (Ty.mem_binders_fn.2 (Or.inl hg))))
    hp.plainBinders (fun x u hx => (hregular u (hmem (hwritten hx).2).2).plainBinders)
    (hcapture _ (List.mem_append_left _ (List.mem_map_of_mem hparam)))
    (fun x u hx y w hy => hcapture u (List.mem_append_right _ (hmem (hwritten hx).2).2) y w (hopen hy).2)
  have hstep : ((param.2.resolve (σ.without (openGenerics F.generics types))).resolve
      (σ.without (writtenGenerics F.generics types))).Regular :=
    (hp.resolve fun x u hx => hregular u (hmem (hwritten hx).2).2).resolve
      fun x u hx => hregular u (hmem (hopen hx).2).2
  have honce : (param.2.resolve σ).Regular := hp.resolve fun x u hx => hregular u (hmem hx).2
  rw [Ty.isAssignable_iff_subset ha.flat hstep.flat ha.free.clean hstep.free.clean, hmeaning] at hfit
  rwa [Ty.isAssignable_iff_subset ha.flat honce.flat ha.free.clean honce.free.clean]

/-- **Calls are well typed at the generics they record.** The type of a checked call is the result of
the callee at the recorded generics. The arguments fit the parameters of the callee with the written
generics put in first and the inferred ones after that; and they fit its parameters at the recorded
generics when all generics are written or none is, or else when the names keep out of each other's
way. -/
theorem checkCall_instantiates {Γ : Context} {call : Arguments} {subject e : TypedExpr}
    {expected : Option Ty} {span : Span} {frames frames' : Frames}
    (h : (checkCall Γ call subject expected span).run.run frames = (.ok e, frames')) :
    ∃ (F I : Signature) (generics : List Ty) (args : List TypedExpr),
      subject.ty = F.toTy ∧ F.instantiate generics = .ok I ∧
      e = .invocation I.result subject generics args ∧
      (F.generics.Nodup → List.Forall₂ (fun arg param => arg.ty.isAssignable
        ((param.2.resolve ((Substitution.ofLists F.generics generics).without
            (openGenerics F.generics call.generics))).resolve
          ((Substitution.ofLists F.generics generics).without
            (writtenGenerics F.generics call.generics))) = true) args F.params) ∧
      (OneWay call.generics ∨ Separate F call.generics generics args →
        List.Forall₂ (fun arg param => arg.ty.isAssignable param.2 = true) args I.params) := by
  obtain ⟨F, given, inferred, args, hF, hgiven, hinferred, hall, he, hfit⟩ :=
    yields_checkCall Γ call subject expected span frames e frames' h
  let recorded := F.generics.map fun g => ((given.extend inferred).lookup g).getD (.var g)
  have hσ : ∀ x, (Substitution.ofLists F.generics recorded).lookup x =
      (given.extend inferred).lookup x := lookup_recorded fun x => by
    rw [hall, ← hgiven, ← hinferred, binds_iff, binds_iff, binds_iff, Substitution.lookup_extend]
    cases inferred.lookup x <;> cases given.lookup x <;> simp
  have hsteps : F.generics.Nodup → List.Forall₂ (fun arg param => arg.ty.isAssignable
      ((param.2.resolve ((Substitution.ofLists F.generics recorded).without
          (openGenerics F.generics call.generics))).resolve
        ((Substitution.ofLists F.generics recorded).without
          (writtenGenerics F.generics call.generics))) = true) args F.params := fun hnd => by
    obtain ⟨h1, h2⟩ := lookup_parts hσ hgiven hinferred fun x => disjoint_written_open hnd
    simpa only [Ty.resolve_congr h1, Ty.resolve_congr h2] using hfit
  refine ⟨F, _, recorded, args, hF, if_pos (by simp [recorded]), by rw [he, Ty.resolve_congr hσ],
    hsteps, fun hway => List.forall₂_map_right_iff.2 ?_⟩
  rcases hway with hway | hway
  · refine hfit.imp fun arg param h => ?_
    rwa [resolve_resolve_of_oneWay hway hgiven hinferred, ← Ty.resolve_congr hσ] at h
  · refine List.forall₂_iff_get.2 ⟨(hsteps hway.nodup).length_eq, fun i h1 h2 => ?_⟩
    exact hway.isAssignable (fun x hx => (hall x).1 hx) (List.get_mem _ _) (List.get_mem _ _)
      ((List.forall₂_iff_get.1 (hsteps hway.nodup)).2 i h1 h2)

/-- `<A, B>(x: A, y: List<B>) ~> A | B`. -/
def sampleCallee : Signature :=
  ⟨["A", "B"], [("x", .var "A"), ("y", .list (.var "B"))], .union [.var "A", .var "B"]⟩

/-- The arguments `"s"` and `[1]`. -/
def sampleArgs : List TypedExpr :=
  [.literal (.string "s") .string, .list .int [.literal (.int 1) .int]]

theorem regular_builtin (name : String) : (Ty.builtin name).Regular where
  flat := by simp [Ty.builtin]
  free := by simp [Ty.NoDollar, Ty.builtin, Ty.mentionsAny_named]
  bound := by simp [Ty.builtin, Ty.mem_binders_named]

theorem separate_sample :
    Separate sampleCallee [.named "String" [], .hole] [.string, .int] sampleArgs where
  nodup := by decide
  regular := by
    have hF : sampleCallee.toTy.Regular :=
      { flat := by simp [sampleCallee, Signature.toTy, Ty.list, Ty.isUnion]
        free := fun x hx => by
          simp [sampleCallee, Signature.toTy, Ty.mentionsAny_fn, Ty.mentionsAny_var,
            Ty.mentionsAny_union, Ty.mentionsAny_named, Ty.list] at hx
          grind
        bound := by decide }
    have hlist : (Ty.list .int).Regular :=
      { flat := by simp [Ty.list, Ty.int, Ty.builtin]
        free := by simp [Ty.NoDollar, Ty.list, Ty.int, Ty.builtin, Ty.mentionsAny_named]
        bound := by decide }
    have hs := regular_builtin "String"
    have hi := regular_builtin "Int"
    simpa [sampleArgs, TypedExpr.ty] using ⟨hF, hs, hi, hs, hlist⟩
  apart := by decide
  captureFree := by decide

/-- `f<String, _>("s", [1])` has a written and an open generic. -/
theorem checkCall_instantiates_partly_written :
    ∃ I, sampleCallee.instantiate [.string, .int] = .ok I ∧
      List.Forall₂ (fun arg param => arg.ty.isAssignable param.2 = true) sampleArgs I.params := by
  have h : (checkCall ⟨.empty "main", "a", []⟩
      (Term.arguments [.named "String" [], .hole]
        [.literal (.string "s"), .list none [.literal (.int 1)]])
      (.reference sampleCallee.toTy none "f") none .zero).run.run [{}] =
      (.ok (.invocation (.union [.int, .string]) (.reference sampleCallee.toTy none "f")
        [.string, .int] sampleArgs), [{}]) := by
    with_unfolding_all rfl
  obtain ⟨F, I, generics, args, hF, hI, he, -, hfit⟩ := checkCall_instantiates h
  obtain ⟨-, -, rfl, rfl⟩ := TypedExpr.invocation.inj he
  obtain rfl : sampleCallee = F := by
    obtain ⟨gs, ps, r⟩ := F
    obtain ⟨rfl, rfl, rfl⟩ := Ty.fn.inj hF
    rfl
  exact ⟨I, hI, hfit (Or.inr separate_sample)⟩

/-- In the scope of a generic `B`, the call `f<B, _>(1, 2)` of `<A, B>(x: A, y: B) ~> Void` is accepted
with `A` as that `B` and the callee's own `B` as `Int`, though `1` is no `B`. -/
theorem checkCall_captures_written_generic :
    ((checkCall ⟨.empty "main", "a", []⟩
      (Term.arguments [.named "B" [], .hole] [.literal (.int 1), .literal (.int 2)])
      (.reference (.fn ["A", "B"] [("x", .var "A"), ("y", .var "B")] .void) none "f") none
      .zero).run.run [{ generics := ["B"] }]).1 =
      .ok (.invocation .void
        (.reference (.fn ["A", "B"] [("x", .var "A"), ("y", .var "B")] .void) none "f")
        [.var "B", .int] [.literal (.int 1) .int, .literal (.int 2) .int]) ∧
    (⟨["A", "B"], [("x", .var "A"), ("y", .var "B")], .void⟩ : Signature).instantiate
      [.var "B", .int] = .ok ⟨[], [("x", .var "B"), ("y", .int)], .void⟩ ∧
    Ty.int.isAssignable (.var "B") = false := by
  refine ⟨?_, ?_, ?_⟩
  · with_unfolding_all rfl
  · with_unfolding_all rfl
  · rfl

end Check

end UnionChecker
