import UnionChecker.Check.Expr
import UnionChecker.Proofs.Check.Simulation
/-!
# What a run of the checker is made of

One equivalence for each function of the checker: it succeeds exactly when such and such parts
succeed, with the frames handed on from one to the next. Proofs about accepted terms go along these
equivalences and open no check themselves.
-/

namespace UnionChecker.Check

open Syntax

variable {Γ : Context} {frames frames' : Frames} {span : Span} {expected : Option Ty}

/-! ## Names, fields and calls -/

theorem runs_identifier {name : Name} {e : TypedExpr} :
    Runs (identifier Γ name) frames e frames' ↔
      ∃ found, Γ.resolveValue frames name.text = .ok found ∧
        e = .reference found.type found.package found.name ∧ frames' = frames := by
  show identifier Γ name frames = (Except.ok e, frames') ↔ _
  unfold identifier
  constructor
  · intro h
    split at h <;> cases h
    exact ⟨_, ‹_›, rfl, rfl⟩
  · rintro ⟨found, hfound, rfl, rfl⟩
    rw [hfound]

theorem runs_member {subject e : TypedExpr} {name : Name}
    (h : Runs (member Γ subject name) frames e frames') :
    ∃ decl args type, subject.ty = .named decl args ∧
      ((Γ.table.fieldsOf decl args).getD []).lookup name.text = some type ∧
      e = .access type subject name.text ∧ frames' = frames := by
  unfold member at h
  cases hty : subject.ty with
  | named decl args =>
    rw [hty] at h
    dsimp only at h
    split at h
    · exact ⟨decl, args, _, rfl, ‹_›, runs_pure.1 h⟩
    · exact (not_runs_fail h).elim
  | _ => simp [hty] at h

theorem runs_checkExpr_literal {value : Literal} {e : TypedExpr} :
    Runs (checkExpr Γ (.literal value span) expected) frames e frames' ↔
      e = .literal value (literalType value) ∧ frames' = frames := by
  rw [checkExpr, runs_pure]

theorem runs_checkExpr_reference {name : Name} {e : TypedExpr} :
    Runs (checkExpr Γ (.reference name none span) expected) frames e frames' ↔
      Runs (identifier Γ name) frames e frames' := by
  rw [checkExpr]
  simp

theorem runs_calleeSignature {subject : TypedExpr} {F : Signature} :
    Runs (calleeSignature Γ subject span) frames F frames' ↔
      subject.ty = F.toTy ∧ frames' = frames := by
  unfold calleeSignature Signature.toTy
  cases subject.ty with
  | fn generics params result =>
    obtain ⟨generics', params', result'⟩ := F
    simp [eq_comm]
  | _ => simp

/-- How a call comes by its arguments and by what its generics stand for: with all generics written
the parameters are known; otherwise the arguments say what the open ones stand for, and what they
leave open comes from the type that is wanted. -/
inductive ArgumentRun (Γ : Context) (items : List Argument) (F : Signature) (expected : Option Ty)
    (span : Span) (frames : Frames) (given : Substitution) :
    List String → Substitution → List TypedExpr → Frames → Prop
  | written {args : List TypedExpr} {frames' : Frames}
      (hargs : Runs (checkArguments Γ items (F.paramTypes.map (·.resolve given))) frames args
        frames') :
      ArgumentRun Γ items F expected span frames given [] given args frames'
  | inferred {opened : List String} {early : List (Option TypedExpr)} {args : List TypedExpr}
      {found collected inferred : Substitution} {inner frames' : Frames} (hopened : opened ≠ [])
      (hearly : Runs (checkEarly Γ items (F.paramTypes.map (·.resolve given)) opened []) frames
        (early, found) inner)
      (hdeferred : Runs (checkDeferred Γ items (F.paramTypes.map (·.resolve given)) opened early
        found) inner (args, collected) frames')
      (hcomplete : Runs (completeInference Γ (F.result.resolve given) expected opened collected span)
        frames' inferred frames')
      (hfit : Runs (requireArguments Γ inferred items (F.paramTypes.map (·.resolve given)) args)
        frames' () frames') :
      ArgumentRun Γ items F expected span frames given opened (given.extend inferred) args frames'

theorem runs_checkCall {generics : List TypeExpr} {items : List Argument} {argsSpan : Span}
    {subject e : TypedExpr} :
    Runs (checkCall Γ ⟨generics, items, argsSpan⟩ subject expected span) frames e frames' ↔
      ∃ (F : Signature) (given σ : Substitution) (opened : List String) (args : List TypedExpr)
        (types : List Ty),
        subject.ty = F.toTy ∧ items.length = F.params.length ∧
        Runs (requireLabels Γ items F.params) frames () frames ∧
        Runs (explicitGenerics Γ F.generics generics argsSpan) frames (given, opened) frames ∧
        ArgumentRun Γ items F expected span frames given opened σ args frames' ∧
        Runs (callGenerics Γ σ span F.generics) frames' types frames' ∧
        e = .invocation (F.result.resolve σ) subject types args := by
  rw [checkCall]
  simp only [runs_bind, runs_calleeSignature, runs_ite, not_runs_fail, false_and, exists_const,
    and_false, false_or, runs_pure]
  constructor
  · rintro ⟨F, _, ⟨hF, rfl⟩, hlen, _, _, hlabels, ⟨given, opened⟩, _, hgiven, ⟨σ, args⟩, inner, hargs,
      types, _, htypes, rfl, rfl⟩
    rw [(steady_requireLabels _ _).runs_iff] at hlabels
    obtain ⟨hlabels, rfl⟩ := hlabels
    rw [(steady_explicitGenerics _ _).runs_iff] at hgiven
    obtain ⟨hgiven, rfl⟩ := hgiven
    rw [(steady_callGenerics _ _).runs_iff] at htypes
    obtain ⟨htypes, rfl⟩ := htypes
    refine ⟨F, given, σ, opened, args, types, hF, by simpa using hlen, hlabels, hgiven, ?_, htypes,
      rfl⟩
    rcases hargs with ⟨hopened, args, _, hargs, heq, rfl⟩ | ⟨hopened, ⟨early, found⟩, inner', hearly,
      ⟨args, collected⟩, _, hdeferred, inferred, _, hcomplete, _, _, hfit, heq, rfl⟩
    · cases heq
      obtain rfl : opened = [] := by simpa using hopened
      exact .written hargs
    · cases heq
      rw [(steady_completeInference _ _ _).runs_iff] at hcomplete
      obtain ⟨hcomplete, rfl⟩ := hcomplete
      rw [(steady_requireArguments _ _ _ _).runs_iff] at hfit
      obtain ⟨hfit, rfl⟩ := hfit
      exact .inferred (by simpa using hopened) hearly hdeferred hcomplete hfit
  · rintro ⟨F, given, σ, opened, args, types, hF, hlen, hlabels, hgiven, hargs, htypes, rfl⟩
    refine ⟨F, _, ⟨hF, rfl⟩, by simpa using hlen, (), _, hlabels, (given, opened), _, hgiven,
      (σ, args), frames', ?_, types, _, htypes, rfl, rfl⟩
    cases hargs with
    | written hargs => exact Or.inl ⟨rfl, args, _, hargs, rfl, rfl⟩
    | inferred hopened hearly hdeferred hcomplete hfit =>
      exact Or.inr ⟨by simpa using hopened, _, _, hearly, _, _, hdeferred, _, _, hcomplete, (), _,
        hfit, rfl, rfl⟩

theorem runs_checkTerm_head {head : Expr} {e : TypedExpr} :
    Runs (checkTerm Γ ⟨head, [], span⟩ expected) frames e frames' ↔
      Runs (checkExpr Γ head expected) frames e frames' ∧ Fits e.ty expected := by
  rw [checkTerm]
  simp only [runs_bind, runs_requireExpected, runs_pure]
  constructor
  · rintro ⟨_, _, hhead, _, _, ⟨hfits, rfl⟩, rfl, rfl⟩
    exact ⟨hhead, hfits⟩
  · rintro ⟨hhead, hfits⟩
    exact ⟨e, frames', hhead, (), frames', ⟨hfits, rfl⟩, rfl, rfl⟩

theorem runs_checkTerm_chain {head : Expr} {link : Link} {links : List Link} {e : TypedExpr} :
    Runs (checkTerm Γ ⟨head, link :: links, span⟩ expected) frames e frames' ↔
      ∃ first inner, Runs (checkExpr Γ head none) frames first inner ∧
        Runs (checkLinks Γ (link :: links) first expected) inner e frames' ∧ Fits e.ty expected := by
  rw [checkTerm]
  simp only [runs_bind, runs_requireExpected, runs_pure]
  constructor
  · rintro ⟨first, inner, hhead, _, _, hlinks, _, _, ⟨hfits, rfl⟩, rfl, rfl⟩
    exact ⟨first, inner, hhead, hlinks, hfits⟩
  · rintro ⟨first, inner, hhead, hlinks, hfits⟩
    exact ⟨first, inner, hhead, e, frames', hlinks, (), frames', ⟨hfits, rfl⟩, rfl, rfl⟩

@[simp] theorem runs_checkLinks_nil {subject e : TypedExpr} :
    Runs (checkLinks Γ [] subject expected) frames e frames' ↔ e = subject ∧ frames' = frames := by
  rw [checkLinks]
  exact runs_pure

theorem runs_checkLinks_cons {access : Option Member} {args : Option Arguments} {links : List Link}
    {subject e : TypedExpr}
    (h : Runs (checkLinks Γ (⟨access, args, span⟩ :: links) subject expected) frames e frames') :
    ∃ accessed called inner,
      (match access with
        | none => accessed = subject
        | some m => Runs (member Γ subject m.name) frames accessed frames) ∧
      (match args with
        | none => called = accessed ∧ inner = frames
        | some args =>
          Runs (checkCall Γ args accessed (if links.isEmpty then expected else none) span) frames
            called inner) ∧
      Runs (checkLinks Γ links called expected) inner e frames' := by
  unfold checkLinks at h
  simp only [runs_bind] at h
  obtain ⟨accessed, middle, haccess, called, inner, hcall, hrest⟩ := h
  have hmiddle : middle = frames := by
    cases access with
    | none => exact (runs_pure.1 haccess).2
    | some m => obtain ⟨_, _, _, _, _, _, h⟩ := runs_member haccess; exact h
  subst hmiddle
  refine ⟨accessed, called, inner, ?_, ?_, hrest⟩
  · cases access with
    | none => exact (runs_pure.1 haccess).1
    | some m => exact haccess
  · cases args with
    | none => exact runs_pure.1 hcall
    | some a => exact hcall

/-! ## Arguments -/

theorem runs_checkArguments_nil {items : List Argument} {params : List Ty} {args : List TypedExpr}
    (h : items = [] ∨ params = []) :
    Runs (checkArguments Γ items params) frames args frames' ↔ args = [] ∧ frames' = frames := by
  rcases h with rfl | rfl
  · simp [checkArguments]
  · cases items <;> simp [checkArguments]

theorem runs_checkArguments_cons {label : Option Name} {value : Term} {items : List Argument}
    {param : Ty} {params : List Ty} {args : List TypedExpr}
    (h : Runs (checkArguments Γ (⟨label, value, span⟩ :: items) (param :: params)) frames args
      frames') :
    ∃ e inner rest, Runs (checkTerm Γ value (some param)) frames e inner ∧
      Runs (checkArguments Γ items params) inner rest frames' ∧ args = e :: rest := by
  rw [checkArguments, runs_bind] at h
  simpa only [runs_bind_pure, exists_and_left] using h

/-- How an argument of a call with open generics is treated at first. -/
inductive EarlyRun (Γ : Context) (value : Term) (param : Ty) (opened : List String)
    (inferred : Substitution) (frames : Frames) :
    Option TypedExpr → Substitution → Frames → Prop
  | closed {e : TypedExpr} {frames' : Frames} (hparam : param.mentionsAny opened = false)
      (he : Runs (checkTerm Γ value (some param)) frames e frames') :
      EarlyRun Γ value param opened inferred frames (some e) inferred frames'
  | waiting (hparam : param.mentionsAny opened = true) (hlambda : isPlainLambda value = true)
      (hfn : param.signature?.isSome = true) :
      EarlyRun Γ value param opened inferred frames none inferred frames
  | telling {e : TypedExpr} {inferred' : Substitution} {frames' : Frames}
      (hparam : param.mentionsAny opened = true)
      (hearly : (isPlainLambda value && param.signature?.isSome) = false)
      (he : Runs (checkTerm Γ value none) frames e frames')
      (hinfer : Runs (inferFrom Γ param e.ty value.span opened inferred) frames' inferred' frames') :
      EarlyRun Γ value param opened inferred frames (some e) inferred' frames'

theorem runs_checkEarly_nil {items : List Argument} {params : List Ty} {opened : List String}
    {inferred found : Substitution} {early : List (Option TypedExpr)} (h : items = [] ∨ params = []) :
    Runs (checkEarly Γ items params opened inferred) frames (early, found) frames' ↔
      early = [] ∧ found = inferred ∧ frames' = frames := by
  rcases h with rfl | rfl
  · simp [checkEarly, and_assoc]
  · cases items <;> simp [checkEarly, and_assoc]

theorem runs_checkEarly_cons {label : Option Name} {value : Term} {items : List Argument}
    {param : Ty} {params : List Ty} {opened : List String} {inferred found : Substitution}
    {early : List (Option TypedExpr)}
    (h : Runs (checkEarly Γ (⟨label, value, span⟩ :: items) (param :: params) opened inferred) frames
      (early, found) frames') :
    ∃ first inferred' inner rest,
      EarlyRun Γ value param opened inferred frames first inferred' inner ∧
      Runs (checkEarly Γ items params opened inferred') inner (rest, found) frames' ∧
      early = first :: rest := by
  rw [checkEarly] at h
  simp only [runs_bind, runs_pure, runs_ite] at h
  obtain ⟨⟨first, inferred'⟩, inner, hfirst, ⟨rest, found'⟩, _, hrest, heq, rfl⟩ := h
  cases heq
  refine ⟨first, inferred', inner, rest, ?_, hrest, rfl⟩
  rcases hfirst with ⟨hparam, e, _, he, heq, rfl⟩ |
    ⟨hparam, ⟨hlambda, heq, rfl⟩ | ⟨hlambda, e, _, he, _, _, hinfer, heq, rfl⟩⟩
  · cases heq
    exact .closed (by simpa using hparam) he
  · cases heq
    simp only [Bool.and_eq_true] at hlambda
    exact .waiting (by simpa using hparam) hlambda.1 hlambda.2
  · cases heq
    rw [(steady_inferFrom _ _ _ _).runs_iff] at hinfer
    obtain ⟨hinfer, rfl⟩ := hinfer
    exact .telling (by simpa using hparam) (by simpa using hlambda) he hinfer

/-- The check of an argument that had to wait: a lambda whose shape is known by then is checked
against it, and anything else without a wanted type. -/
inductive DeferredRun (Γ : Context) (head : Expr) (param : Ty) (opened : List String)
    (inferred : Substitution) (frames : Frames) : TypedExpr → Frames → Prop
  | shaped {lambda : Lambda} {shape : Shape} {f : TypedFunction} {frames' : Frames}
      (hhead : head = .lambda lambda) (hshape : openShape opened (param.resolve inferred) = some shape)
      (hf : Runs (checkLambda Γ lambda (some shape)) frames f frames') :
      DeferredRun Γ head param opened inferred frames (.function f) frames'
  | plain {e : TypedExpr} {frames' : Frames}
      (hhead : ∀ lambda, head = .lambda lambda → openShape opened (param.resolve inferred) = none)
      (he : Runs (checkExpr Γ head none) frames e frames') :
      DeferredRun Γ head param opened inferred frames e frames'

theorem runs_checkDeferred_nil {items : List Argument} {params : List Ty} {opened : List String}
    {early : List (Option TypedExpr)} {inferred found : Substitution} {args : List TypedExpr}
    (h : items = [] ∨ params = [] ∨ early = []) :
    Runs (checkDeferred Γ items params opened early inferred) frames (args, found) frames' ↔
      args = [] ∧ found = inferred ∧ frames' = frames := by
  rcases h with rfl | rfl | rfl
  · simp [checkDeferred, and_assoc]
  · cases items <;> simp [checkDeferred, and_assoc]
  · cases items <;> cases params <;> simp [checkDeferred, and_assoc]

theorem runs_checkDeferred_early {label : Option Name} {value : Term} {items : List Argument}
    {param : Ty} {params : List Ty} {opened : List String} {inferred found : Substitution}
    {e : TypedExpr} {early : List (Option TypedExpr)} {args : List TypedExpr}
    (h : Runs (checkDeferred Γ (⟨label, value, span⟩ :: items) (param :: params) opened
      (some e :: early) inferred) frames (args, found) frames') :
    ∃ rest, Runs (checkDeferred Γ items params opened early inferred) frames (rest, found) frames' ∧
      args = e :: rest := by
  obtain ⟨head, links, valueSpan⟩ := value
  rw [checkDeferred] at h
  simp only [runs_bind, runs_pure] at h
  obtain ⟨_, _, ⟨rfl, rfl⟩, ⟨rest, found'⟩, _, hrest, heq, rfl⟩ := h
  cases heq
  exact ⟨rest, hrest, rfl⟩

theorem runs_checkDeferred_waiting {label : Option Name} {head : Expr} {links : List Link}
    {valueSpan : Span} {items : List Argument} {param : Ty} {params : List Ty} {opened : List String}
    {inferred found : Substitution} {early : List (Option TypedExpr)} {args : List TypedExpr}
    (h : Runs (checkDeferred Γ (⟨label, ⟨head, links, valueSpan⟩, span⟩ :: items) (param :: params)
      opened (none :: early) inferred) frames (args, found) frames') :
    ∃ e inner inferred' rest, DeferredRun Γ head param opened inferred frames e inner ∧
      Runs (inferFrom Γ param e.ty valueSpan opened inferred) inner inferred' inner ∧
      Runs (checkDeferred Γ items params opened early inferred') inner (rest, found) frames' ∧
      args = e :: rest := by
  unfold checkDeferred at h
  simp only [runs_bind, runs_pure] at h
  obtain ⟨⟨e, inferred'⟩, _, ⟨_, inner, he, _, _, hinfer, heq, rfl⟩, ⟨rest, found'⟩, _, hrest, heq',
    rfl⟩ := h
  cases heq
  cases heq'
  rw [(steady_inferFrom _ _ _ _).runs_iff] at hinfer
  obtain ⟨hinfer, rfl⟩ := hinfer
  refine ⟨e, _, inferred', rest, ?_, hinfer, hrest, rfl⟩
  split at he
  · obtain ⟨f, _, hf, rfl, rfl⟩ := runs_bind.1 he
    exact .shaped rfl ‹_› hf
  · rename_i hnone
    refine .plain (fun lambda hl => ?_) he
    cases hshape : openShape opened (param.resolve inferred) with
    | none => rfl
    | some shape => exact (hnone lambda shape hl hshape).elim

/-! ## Blocks and lambdas -/

theorem runs_blockOf {block : List Term} {statements : Check (List TypedExpr)}
    {es : List TypedExpr} :
    Runs (blockOf Γ block expected span statements) frames es frames' ↔
      block = [] ∧ Fits .void expected ∧ es = [] ∧ frames' = frames ∨
        block ≠ [] ∧ Runs statements frames es frames' := by
  rw [blockOf, runs_ite]
  simp only [runs_bind, runs_requireExpected, runs_pure, List.isEmpty_iff]
  refine or_congr (and_congr_right fun _ => ?_) Iff.rfl
  constructor
  · rintro ⟨_, _, ⟨hfits, rfl⟩, rfl, rfl⟩
    exact ⟨hfits, rfl, rfl⟩
  · rintro ⟨hfits, rfl, rfl⟩
    exact ⟨(), _, ⟨hfits, rfl⟩, rfl, rfl⟩

@[simp] theorem runs_checkStatements_nil {es : List TypedExpr} :
    Runs (checkStatements Γ [] expected) frames es frames' ↔ es = [] ∧ frames' = frames := by
  rw [checkStatements]
  exact runs_pure

theorem runs_checkStatements_cons {t : Term} {ts : List Term} {es : List TypedExpr} :
    Runs (checkStatements Γ (t :: ts) expected) frames es frames' ↔
      ∃ e inner rest, Runs (checkTerm Γ t (if ts.isEmpty then expected else none)) frames e inner ∧
        Runs (checkStatements Γ ts expected) inner rest frames' ∧ es = e :: rest := by
  rw [checkStatements, runs_bind]
  simp only [runs_bind_pure, exists_and_left]

@[simp] theorem runs_checkItems_nil {es : List TypedExpr} :
    Runs (checkItems Γ [] expected) frames es frames' ↔ es = [] ∧ frames' = frames := by
  rw [checkItems]
  exact runs_pure

theorem runs_checkItems_cons {t : Term} {ts : List Term} {es : List TypedExpr} :
    Runs (checkItems Γ (t :: ts) expected) frames es frames' ↔
      ∃ e inner rest, Runs (checkTerm Γ t expected) frames e inner ∧
        Runs (checkItems Γ ts expected) inner rest frames' ∧ es = e :: rest := by
  rw [checkItems, runs_bind]
  simp only [runs_bind_pure, exists_and_left]

theorem runs_expectedShape {generics : List Name} {wanted : Ty} {shape : Shape} :
    Runs (expectedShape Γ generics wanted span) frames shape frames' ↔
      ∃ F : Signature, functionMembers wanted = [F] ∧ F.generics.length = generics.length ∧
        shape = ⟨F.params.map fun p => p.2.resolve (.ofLists F.generics (generics.map (.var ·.text))),
          some (F.result.resolve (.ofLists F.generics (generics.map (.var ·.text))))⟩ ∧
        frames' = frames := by
  unfold expectedShape
  split
  · rename_i F hF
    simp [runs_ite, hF]
  · rename_i hF
    constructor
    · intro h
      exact (not_runs_fail h).elim
    · rintro ⟨F, hF', _⟩
      exact (hF F hF').elim

/-- The type of a parameter is the written one, which equals a wanted one, or else the wanted one. -/
theorem runs_paramType {param : Parameter} {index : Nat} {wanted : Option Ty} {t : Ty} :
    Runs (paramType Γ index param wanted) frames t frames' ↔
      ∃ written, Runs (resolveOptional Γ param.type) frames written frames' ∧
        written.or wanted = some t ∧ ∀ s ∈ written, ∀ u ∈ wanted, s.equal u = true := by
  rw [paramType, runs_bind]
  refine exists_congr fun written => ⟨?_, ?_⟩
  · rintro ⟨inner, hwritten, h⟩
    cases written <;> cases wanted <;> simp_all [runs_ite]
  · rintro ⟨hwritten, ht, heq⟩
    refine ⟨frames', hwritten, ?_⟩
    cases written <;> cases wanted <;> simp_all

/-- The type of a result is the written one, which equals a wanted one, or else that of the shape. -/
theorem runs_resultType {result : Option TypeExpr} {shape : Option Shape} {t : Option Ty} :
    Runs (resultType Γ result shape span) frames t frames' ↔
      ∃ written, Runs (resolveOptional Γ result) frames written frames' ∧
        (written = none → shape ≠ none) ∧ t = written.or (shape.bind (·.result)) ∧
        ∀ s ∈ written, ∀ u ∈ shape.bind (·.result), s.equal u = true := by
  rw [resultType, runs_bind]
  refine exists_congr fun written => ⟨?_, ?_⟩
  · rintro ⟨inner, hwritten, h⟩
    rcases written with _ | s <;> rcases shape with _ | ⟨params, _ | u⟩ <;> simp_all [runs_ite]
  · rintro ⟨hwritten, hsome, ht, heq⟩
    refine ⟨frames', hwritten, ?_⟩
    rcases written with _ | s <;> rcases shape with _ | ⟨params, _ | u⟩ <;> simp_all

theorem runs_paramTypes_cons {param : Parameter} {params : List Parameter} {index : Nat}
    {wanted : List Ty} {types : List (String × Ty)} :
    Runs (paramTypes Γ index (param :: params) wanted) frames types frames' ↔
      ∃ type rest, Runs (paramType Γ index param wanted.head?) frames type frames ∧
        Runs (paramTypes Γ (index + 1) params wanted.tail) frames rest frames' ∧
        types = (param.name.text, type) :: rest := by
  rw [paramTypes, runs_bind]
  simp only [runs_bind_pure]
  constructor
  · rintro ⟨type, inner, htype, rest, hrest, h⟩
    obtain rfl := steady_paramType _ _ _ _ _ _ htype
    exact ⟨type, rest, htype, hrest, h⟩
  · rintro ⟨type, rest, htype, hrest, h⟩
    exact ⟨type, _, htype, rest, hrest, h⟩

theorem runs_enterLambda {generics : List Name} {params : List Parameter} {result : Option TypeExpr}
    {shape : Option Shape} {types : List (String × Ty)} {wanted : Option Ty} :
    Runs (enterLambda Γ generics params result shape span) frames (types, wanted) frames' ↔
      ∃ inner, Runs (defineGenerics Γ generics) frames () inner ∧
        (∀ s ∈ shape, s.params.length = params.length) ∧
        Runs (paramTypes Γ 0 params ((shape.map (·.params)).getD [])) inner types inner ∧
        Runs (resultType Γ result shape span) inner wanted inner ∧
        Runs (defineParams Γ params types) inner () frames' := by
  have hcount : ∀ (u : Unit) (f f' : Frames), Runs (requireParamCount Γ params shape span) f u f' ↔
      (∀ s ∈ shape, s.params.length = params.length) ∧ f' = f := by
    intro u f f'
    cases shape <;> simp [requireParamCount, runs_ite]
  unfold enterLambda
  simp only [runs_bind, runs_pure, hcount]
  constructor
  · rintro ⟨_, inner, hgenerics, _, _, ⟨hlen, rfl⟩, _, _, htypes, _, _, hresult, _, _, hparams, heq,
      rfl⟩
    cases heq
    rw [(steady_paramTypes _ _ _).runs_iff] at htypes
    obtain ⟨htypes, rfl⟩ := htypes
    rw [(steady_resultType _ _).runs_iff] at hresult
    obtain ⟨hresult, rfl⟩ := hresult
    exact ⟨_, hgenerics, hlen, htypes, hresult, hparams⟩
  · rintro ⟨inner, hgenerics, hlen, htypes, hresult, hparams⟩
    exact ⟨(), inner, hgenerics, (), _, ⟨hlen, rfl⟩, types, _, htypes, wanted, _, hresult, (), _,
      hparams, rfl, rfl⟩

theorem runs_checkLambda {generics : List Name} {params : List Parameter} {result : Option TypeExpr}
    {body : List Term} {shape : Option Shape} {f : TypedFunction} :
    Runs (checkLambda Γ ⟨generics, params, result, body, span⟩ shape) frames f frames' ↔
      ∃ types wanted entered block inner, body ≠ [] ∧
        Runs (enterLambda Γ generics params result shape span) frames.push (types, wanted) entered ∧
        Runs (checkStatements Γ body wanted) entered block inner ∧
        f = ⟨⟨generics.map (·.text), types, wanted.getD (blockType block)⟩,
          params.map (·.name.text), block⟩ ∧
        frames' = inner.pop := by
  rw [checkLambda]
  simp only [runs_ite, not_runs_fail, and_false, false_or, runs_inFrame, runs_bind, runs_pure,
    List.isEmpty_iff]
  constructor
  · rintro ⟨hbody, inner, ⟨⟨types, wanted⟩, entered, hentered, block, _, hblock, rfl, rfl⟩, rfl⟩
    exact ⟨types, wanted, entered, block, _, hbody, hentered, hblock, rfl, rfl⟩
  · rintro ⟨types, wanted, entered, block, inner, hbody, hentered, hblock, rfl, rfl⟩
    exact ⟨hbody, inner, ⟨(types, wanted), entered, hentered, block, inner, hblock, rfl, rfl⟩, rfl⟩

/-! ## Conditionals -/

/-- The type of a conditional. -/
def conditionalType (hasElse : Bool) (expected : Option Ty) (thenBlock elseBlock : List TypedExpr) :
    Ty :=
  expected.getD (if hasElse then .join [blockType thenBlock, blockType elseBlock] else .void)

theorem runs_conditionalOf {hasElse : Bool} {condition : Check TypedExpr}
    {thenBlock elseBlock : Check (List TypedExpr)} {e : TypedExpr} :
    Runs (conditionalOf Γ hasElse expected span condition thenBlock elseBlock) frames e frames' ↔
      ∃ c ts es decided inner, Runs condition frames c decided ∧
        (hasElse = false → Fits .void expected) ∧ Runs thenBlock decided.push ts inner ∧
        Runs elseBlock inner.pop es frames' ∧
        e = .conditional (conditionalType hasElse expected ts es) c ts es := by
  unfold conditionalOf
  simp only [runs_bind, runs_ite, runs_requireExpected, runs_inFrame, runs_pure]
  constructor
  · rintro ⟨c, decided, hc,
      ⟨helse, _, _, ⟨hfits, rfl⟩, ts, _, ⟨inner, hts, rfl⟩, es, _, hes, rfl, rfl⟩ |
      ⟨helse, ts, _, ⟨inner, hts, rfl⟩, es, _, hes, rfl, rfl⟩⟩
    · exact ⟨c, ts, es, _, inner, hc, fun _ => hfits, hts, hes, by cases expected <;> rfl⟩
    · exact ⟨c, ts, es, _, inner, hc, by simp_all, hts, hes, by cases expected <;> rfl⟩
  · rintro ⟨c, ts, es, decided, inner, hc, hfits, hts, hes, rfl⟩
    refine ⟨c, decided, hc, ?_⟩
    cases hasElse with
    | false =>
      exact Or.inl ⟨rfl, (), _, ⟨hfits rfl, rfl⟩, ts, _, ⟨inner, hts, rfl⟩, es, _, hes,
        by cases expected <;> rfl, rfl⟩
    | true =>
      exact Or.inr ⟨by simp, ts, _, ⟨inner, hts, rfl⟩, es, _, hes, by cases expected <;> rfl, rfl⟩

theorem runs_checkElse_nil {hasElse : Bool} {elseBlock : Span → Check (List TypedExpr)}
    {es : List TypedExpr} :
    Runs (checkElse Γ [] hasElse expected span elseBlock) frames es frames' ↔
      ∃ inner, Runs (elseBlock span) frames.push es inner ∧ frames' = inner.pop := by
  rw [checkElse, runs_inFrame]

theorem runs_checkElse_cons {condition : Term} {thenBlock : List Term} {branchSpan : Span}
    {branches : List ElseIf} {hasElse : Bool} {elseBlock : Span → Check (List TypedExpr)}
    {es : List TypedExpr} :
    Runs (checkElse Γ (⟨condition, thenBlock, branchSpan⟩ :: branches) hasElse expected span elseBlock)
        frames es frames' ↔
      ∃ e, Runs (conditionalOf Γ (!branches.isEmpty || hasElse) expected branchSpan
          (checkTerm Γ condition (some .boolean))
          (blockOf Γ thenBlock expected branchSpan (checkStatements Γ thenBlock expected))
          (checkElse Γ branches hasElse expected branchSpan elseBlock)) frames e frames' ∧
        es = [e] := by
  rw [checkElse, runs_bind_pure]

/-! ## Arms -/

/-- Bind a local, if there is a name for it. -/
def bindOptional (frames : Frames) (name : Option Name) (type : Ty) : Option Frames :=
  match name with
  | none => some frames
  | some name => frames.defineValue name.text type

theorem runs_armBody {name : Option Name} {type : Ty} {origin : Origin}
    {body : Check (List TypedExpr)} {block : List TypedExpr} :
    Runs (armBody Γ name type origin body) frames block frames' ↔
      ∃ bound inner, bindOptional frames.push name type = some bound ∧ Runs body bound block inner ∧
        frames' = inner.pop := by
  rw [armBody, runs_mapFailure, runs_inFrame]
  cases name with
  | none => simp [bindOptional]
  | some name =>
    simp only [runs_bind, runs_define, bindOptional]
    constructor
    · rintro ⟨inner, ⟨_, bound, hbound, hbody⟩, rfl⟩
      exact ⟨bound, inner, hbound, hbody, rfl⟩
    · rintro ⟨bound, inner, hbound, hbody, rfl⟩
      exact ⟨inner, ⟨(), bound, hbound, hbody⟩, rfl⟩

@[simp] theorem runs_checkArms_nil {coverage final : Coverage} {cases : List TypedCase} :
    Runs (checkArms Γ [] coverage expected) frames (cases, final) frames' ↔
      cases = [] ∧ final = coverage ∧ frames' = frames := by
  rw [checkArms, runs_pure, Prod.mk.injEq, and_assoc]

theorem runs_checkArms_cons {name : Option Name} {type : TypeExpr} {body : List Term}
    {origin : Origin} {arms : List Arm} {coverage final : Coverage} {cases : List TypedCase} :
    Runs (checkArms Γ (⟨name, type, body, span, origin⟩ :: arms) coverage expected) frames
        (cases, final) frames' ↔
      ∃ t test consumed block inner rest, Γ.resolveType frames [] type = .ok t ∧
        Discriminator.ofTy Γ.table.matchFields t = .ok test ∧ coverage.consume t = .ok consumed ∧
        Runs (armBody Γ name t origin
          (blockOf Γ body expected span (checkStatements Γ body expected))) frames block inner ∧
        Runs (checkArms Γ arms consumed expected) inner (rest, final) frames' ∧
        cases = ⟨name.map (·.text), t, test, block⟩ :: rest := by
  rw [checkArms]
  simp only [runs_bind, runs_resolve, runs_ofAlgebra, runs_ofExcept, mapError_eq_ok, runs_pure]
  constructor
  · rintro ⟨t, _, ⟨ht, rfl⟩, test, _, ⟨htest, rfl⟩, consumed, _, ⟨hconsumed, rfl⟩, block, inner,
      hblock, ⟨rest, final'⟩, _, hrest, heq, rfl⟩
    cases heq
    exact ⟨t, test, consumed, block, inner, rest, ht, htest, hconsumed, hblock, hrest, rfl⟩
  · rintro ⟨t, test, consumed, block, inner, rest, ht, htest, hconsumed, hblock, hrest, rfl⟩
    exact ⟨t, _, ⟨ht, rfl⟩, test, _, ⟨htest, rfl⟩, consumed, _, ⟨hconsumed, rfl⟩, block, inner, hblock,
      (rest, final), _, hrest, rfl, rfl⟩

@[simp] theorem runs_requireExhaustive {coverage : Coverage} {u : Unit} :
    Runs (requireExhaustive Γ coverage span) frames u frames' ↔
      coverage.missing = [] ∧ frames' = frames := by
  unfold requireExhaustive
  split <;> simp_all

/-! ## Expressions -/

theorem runs_checkExpr_call {name : Name} {args : Arguments} {e : TypedExpr} :
    Runs (checkExpr Γ (.reference name (some args) span) expected) frames e frames' ↔
      ∃ subject, Runs (identifier Γ name) frames subject frames ∧
        Runs (checkCall Γ args subject expected span) frames e frames' := by
  rw [checkExpr, runs_bind]
  constructor
  · rintro ⟨subject, _, hs, he⟩
    obtain ⟨_, _, _, rfl⟩ := runs_identifier.1 hs
    exact ⟨subject, hs, he⟩
  · rintro ⟨subject, hs, he⟩
    exact ⟨subject, _, hs, he⟩

theorem runs_checkExpr_lambda {lambda : Lambda} {e : TypedExpr} :
    Runs (checkExpr Γ (.lambda lambda) expected) frames e frames' ↔
      ∃ shape f,
        (expected = none ∧ shape = none ∨ ∃ wanted s, expected = some wanted ∧ shape = some s ∧
          Runs (expectedShape Γ lambda.generics wanted lambda.span) frames s frames) ∧
        Runs (checkLambda Γ lambda shape) frames f frames' ∧ e = .function f := by
  unfold checkExpr
  simp only [runs_bind, runs_pure]
  constructor
  · rintro ⟨shape, _, hshape, f, _, hf, rfl, rfl⟩
    cases expected with
    | none =>
      obtain ⟨rfl, rfl⟩ := runs_pure.1 hshape
      exact ⟨none, f, Or.inl ⟨rfl, rfl⟩, hf, rfl⟩
    | some wanted =>
      obtain ⟨s, _, hs, rfl, rfl⟩ := runs_bind.1 hshape
      obtain ⟨_, _, _, _, rfl⟩ := runs_expectedShape.1 hs
      exact ⟨some s, f, Or.inr ⟨wanted, s, rfl, rfl, hs⟩, hf, rfl⟩
  · rintro ⟨shape, f, ⟨rfl, rfl⟩ | ⟨wanted, s, rfl, rfl, hs⟩, hf, rfl⟩
    · exact ⟨none, _, runs_pure.2 ⟨rfl, rfl⟩, f, _, hf, rfl, rfl⟩
    · exact ⟨some s, _, runs_bind.2 ⟨s, _, hs, runs_pure.2 ⟨rfl, rfl⟩⟩, f, _, hf, rfl, rfl⟩

theorem runs_requireUnreserved {name : Name} {u : Unit} :
    Runs (requireUnreserved Γ name) frames u frames' ↔
      (name.text ≠ "true" ∧ name.text ≠ "false") ∧ frames' = frames := by
  simp [requireUnreserved, runs_ite]

theorem runs_checkExpr_annotated {name : Name} {type : TypeExpr} {circuit : Option ShortCircuit}
    {value : Term} {e : TypedExpr} :
    Runs (checkExpr Γ (.declaration ⟨name, some type, circuit, value, span⟩) expected) frames e
        frames' ↔
      ∃ ty bound v, (name.text ≠ "true" ∧ name.text ≠ "false") ∧
        Γ.resolveType frames [] type = .ok ty ∧ frames.defineValue name.text ty = some bound ∧
        Runs (checkTerm Γ value (some ty)) bound v frames' ∧ e = .declaration name.text v := by
  rw [checkExpr]
  simp only [runs_bind, runs_requireUnreserved, runs_resolve, runs_define, runs_pure]
  constructor
  · rintro ⟨_, _, ⟨hname, rfl⟩, ty, _, ⟨hty, rfl⟩, _, bound, hbound, v, _, hv, rfl, rfl⟩
    exact ⟨ty, bound, v, hname, hty, hbound, hv, rfl⟩
  · rintro ⟨ty, bound, v, hname, hty, hbound, hv, rfl⟩
    exact ⟨(), _, ⟨hname, rfl⟩, ty, _, ⟨hty, rfl⟩, (), bound, hbound, v, _, hv, rfl, rfl⟩

theorem runs_checkExpr_declaration {name : Name} {circuit : Option ShortCircuit} {value : Term}
    {e : TypedExpr} :
    Runs (checkExpr Γ (.declaration ⟨name, none, circuit, value, span⟩) expected) frames e frames' ↔
      ∃ inner v, (name.text ≠ "true" ∧ name.text ≠ "false") ∧
        Runs (checkTerm Γ value none) frames v inner ∧
        inner.defineValue name.text v.ty = some frames' ∧ e = .declaration name.text v := by
  rw [checkExpr]
  simp only [runs_bind, runs_requireUnreserved, runs_define, runs_pure]
  constructor
  · rintro ⟨_, _, ⟨hname, rfl⟩, v, inner, hv, _, _, hbound, rfl, rfl⟩
    exact ⟨inner, v, hname, hv, hbound, rfl⟩
  · rintro ⟨inner, v, hname, hv, hbound, rfl⟩
    exact ⟨(), _, ⟨hname, rfl⟩, v, inner, hv, (), _, hbound, rfl, rfl⟩

theorem runs_checkExpr_conditional {condition : Term} {thenBlock elseBlock : List Term}
    {elseIfs : List ElseIf} {e : TypedExpr} :
    Runs (checkExpr Γ (.conditional ⟨condition, thenBlock, elseIfs, elseBlock, span⟩) expected)
        frames e frames' ↔
      Runs (conditionalOf Γ (!elseIfs.isEmpty || !elseBlock.isEmpty) expected span
        (checkTerm Γ condition (some .boolean))
        (blockOf Γ thenBlock expected span (checkStatements Γ thenBlock expected))
        (checkElse Γ elseIfs (!elseBlock.isEmpty) expected span fun span =>
          blockOf Γ elseBlock expected span (checkStatements Γ elseBlock expected))) frames e
        frames' := by
  rw [checkExpr]

/-- The element types of the lists among what is wanted. -/
def wantedElements (expected : Option Ty) : List Ty :=
  ((expected.map Ty.members).getD []).filterMap Ty.listElement?

theorem runs_checkExpr_list {items : List Term} {e : TypedExpr} :
    Runs (checkExpr Γ (.list [] items span) expected) frames e frames' ↔
      (∃ element es, wantedElements expected = [element] ∧
        Runs (checkItems Γ items (some element)) frames es frames' ∧ e = .list element es) ∨
      ∃ es, (∀ element, wantedElements expected ≠ [element]) ∧ items ≠ [] ∧
        Runs (checkItems Γ items none) frames es frames' ∧
        e = .list (((wantedElements expected).find?
          (Ty.join (es.map TypedExpr.ty)).containedIn).getD (Ty.join (es.map TypedExpr.ty))) es := by
  rw [checkExpr]
  generalize hw : wantedElements expected = wanted
  unfold wantedElements at hw
  simp only [hw]
  split
  · rename_i element
    rw [runs_bind_pure]
    constructor
    · rintro ⟨es, hes, he⟩
      exact Or.inl ⟨element, es, rfl, hes, he⟩
    · rintro (⟨_, es, heq, hes, he⟩ | ⟨_, hne, _⟩)
      · cases heq
        exact ⟨es, hes, he⟩
      · exact (hne element rfl).elim
  · rename_i hne
    simp only [runs_ite, not_runs_fail, and_false, false_or, runs_bind_pure, List.isEmpty_iff]
    constructor
    · rintro ⟨hitems, es, hes, he⟩
      exact Or.inr ⟨es, hne, hitems, hes, he⟩
    · rintro (⟨element, _, heq, _⟩ | ⟨es, _, hitems, hes, he⟩)
      · exact (hne element heq).elim
      · exact ⟨hitems, es, hes, he⟩

theorem runs_checkExpr_list_of {type : TypeExpr} {items : List Term} {e : TypedExpr} :
    Runs (checkExpr Γ (.list [type] items span) expected) frames e frames' ↔
      ∃ element es, Γ.resolveType frames [] type = .ok element ∧
        Runs (checkItems Γ items (some element)) frames es frames' ∧ e = .list element es := by
  rw [checkExpr, runs_bind]
  simp only [runs_resolve, runs_bind_pure]
  constructor
  · rintro ⟨element, _, ⟨helement, rfl⟩, es, hes, he⟩
    exact ⟨element, es, helement, hes, he⟩
  · rintro ⟨element, es, helement, hes, he⟩
    exact ⟨element, _, ⟨helement, rfl⟩, es, hes, he⟩

theorem not_runs_checkExpr_list_many {type type' : TypeExpr} {types : List TypeExpr}
    {items : List Term} {e : TypedExpr} :
    ¬ Runs (checkExpr Γ (.list (type :: type' :: types) items span) expected) frames e frames' := by
  unfold checkExpr
  exact not_runs_fail

/-- The type of a choice. -/
def choiceType (expected : Option Ty) (cases : List TypedCase)
    (other : Option (List TypedExpr)) : Ty :=
  expected.getD (.join (cases.map (fun c => blockType c.block) ++ other.toList.map blockType))

/-- How the `other` arm of a choice is checked, when there is one. -/
inductive OtherRun (Γ : Context) (expected : Option Ty) (coverage : Coverage) (frames : Frames) :
    Option Otherwise → Option (List TypedExpr) → Coverage → Frames → Prop
  | none : OtherRun Γ expected coverage frames none none coverage frames
  | some {name : Option Name} {body : List Term} {span : Span} {origin : Origin}
      {block : List TypedExpr} {frames' : Frames}
      (hblock : Runs (armBody Γ name coverage.takeRemaining.1 origin
        (blockOf Γ body expected span (checkStatements Γ body expected))) frames block frames') :
      OtherRun Γ expected coverage frames (some ⟨name, body, span, origin⟩) (some block)
        coverage.takeRemaining.2 frames'

theorem runs_checkExpr_when {subject : Term} {arms : List Arm} {other : Option Otherwise}
    {e : TypedExpr} :
    Runs (checkExpr Γ (.when ⟨subject, arms, other, span⟩) expected) frames e frames' ↔
      ∃ s cases otherBlock coverage final inner inner',
        Runs (checkTerm Γ subject none) frames s inner ∧
        Runs (checkArms Γ arms (.ofTy s.ty) expected) inner (cases, coverage) inner' ∧
        OtherRun Γ expected coverage inner' other otherBlock final frames' ∧ final.missing = [] ∧
        e = .choice (choiceType expected (sortOrdered caseLe cases) otherBlock) s
          (sortOrdered caseLe cases) otherBlock ((other.bind (·.name)).map (·.text)) := by
  unfold checkExpr
  simp only [runs_bind, runs_requireExhaustive, runs_pure]
  constructor
  · rintro ⟨s, inner, hs, ⟨cases, coverage⟩, inner', hcases, ⟨otherBlock, final⟩, _, hother, _, _,
      ⟨hfinal, rfl⟩, rfl, rfl⟩
    refine ⟨s, cases, otherBlock, coverage, final, inner, inner', hs, hcases, ?_, hfinal,
      by cases expected <;> rfl⟩
    cases other with
    | none =>
      obtain ⟨heq, rfl⟩ := runs_pure.1 hother
      cases heq
      exact .none
    | some other =>
      obtain ⟨name, body, span, origin⟩ := other
      obtain ⟨block, _, hblock, _, rfl⟩ := runs_bind.1 hother
      exact .some hblock
  · rintro ⟨s, cases, otherBlock, coverage, final, inner, inner', hs, hcases, hother, hfinal, rfl⟩
    refine ⟨s, inner, hs, (cases, coverage), inner', hcases, (otherBlock, final), frames', ?_, (), _,
      ⟨hfinal, rfl⟩, by cases expected <;> rfl, rfl⟩
    cases hother with
    | none => exact runs_pure.2 ⟨rfl, rfl⟩
    | some hblock => exact runs_bind.2 ⟨_, _, hblock, runs_pure.2 ⟨rfl, rfl⟩⟩

end UnionChecker.Check
