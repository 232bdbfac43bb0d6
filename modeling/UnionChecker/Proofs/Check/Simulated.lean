import UnionChecker.Proofs.Check.Simulation
/-!
# Along the checker

A simulation that also respects locals, frames and names (`Simulation.Follows`) goes through the whole
checker: terms that are alike are checked alike (`simulates_checkTerm`), and so are declarations
(`simulates_inferDeclaration`, `simulates_checkDeclaration`). This is the one walk along the checker
that compares two runs. What it comes to in the cases of interest is said elsewhere: that a check does
the same in another context, that it changes the innermost frame only, and that it sees neither where
arms come from nor how generics are spelled.
-/

namespace UnionChecker.Check

open Syntax

variable {α β : Type} {L : Likeness} {M : Simulation} {Γ Γ' : Context} {span : Span}
  {Q : α → β → Prop} {expected expected' : Option Ty}

/-- What the simulation needs for all checks. -/
structure Simulation.Follows (M : Simulation) (L : Likeness) (Γ Γ' : Context) : Prop
    extends M.Reads L Γ Γ' where
  inner_refl : ∀ frames, M.inner frames frames
  inner_trans : ∀ {frames inner outer}, M.inner frames inner → M.inner inner outer →
    M.inner frames outer
  inner_of_step : ∀ {frames inner}, M.step frames inner → M.inner frames inner
  step_of_inner : ∀ {frames inner : Frames}, M.inner frames.push inner → M.step frames inner.pop
  push : ∀ {frames frames' : Frames}, M.frames frames frames' → M.frames frames.push frames'.push
  pop : ∀ {frames frames' : Frames}, M.frames frames frames' → M.frames frames.pop frames'.pop
  relabel : ∀ {origin origin'}, L.origin origin origin' → ∀ {f f'}, M.failure f f' →
    M.failure (residualFailure origin f) (residualFailure origin' f')
  excuse : ∀ {f}, M.excused f → ∀ origin, M.excused (residualFailure origin f)
  identifier : ∀ name, Simulates M L.expr (identifier Γ name) (identifier Γ' name)
  define : ∀ name {t t'}, L.type t t' → Simulates M Eq (define Γ name t) (define Γ' name t')
  generic : ∀ {x x'}, L.binder x x' →
    Simulates M.within Eq (defineGeneric Γ x) (defineGeneric Γ' x')
  fields : ∀ {decl args args'}, L.type (.named decl args) (.named decl args') →
    Option.Rel (List.Forall₂ L.ParamLike) (Γ.table.fieldsOf decl args) (Γ'.table.fieldsOf decl args')
  tests : ∀ {t t'}, L.type t t' → Alike L.ErrorLike L.test
    (Discriminator.ofTy Γ.table.matchFields t) (Discriminator.ofTy Γ'.table.matchFields t')

/-! ## Locals and frames -/

theorem frames_identifier (name : Name) (frames : Frames) :
    ((identifier Γ name).run.run frames).2 = frames := by
  simp only [identifier, ExceptT.run, StateT.run]
  split <;> rfl

/-- The same fields. -/
theorem Likeness.rel_fieldsOf {origin : Origin → Origin → Prop}
    (h : ∀ decl args, Γ'.table.fieldsOf decl args = Γ.table.fieldsOf decl args) {decl : Nominal}
    {args args' : List Ty} (hargs : Ty.named decl args = .named decl args') :
    Option.Rel (List.Forall₂ (Likeness.exact origin).ParamLike) (Γ.table.fieldsOf decl args)
      (Γ'.table.fieldsOf decl args') := by
  cases hargs
  rw [h]
  exact rel_refl (forall₂_refl fun _ => ⟨rfl, rfl⟩) _

/-- The same tests. -/
theorem Likeness.alike_tests {origin : Origin → Origin → Prop}
    (h : ∀ t, Discriminator.ofTy Γ'.table.matchFields t = Discriminator.ofTy Γ.table.matchFields t)
    {t t' : Ty} (ht : t = t') :
    Alike (Likeness.exact origin).ErrorLike Eq (Discriminator.ofTy Γ.table.matchFields t)
      (Discriminator.ofTy Γ'.table.matchFields t') := by
  rw [← ht, h]
  exact Alike.refl (E := (Likeness.exact origin).ErrorLike) (fun _ => rfl) (fun _ => rfl) _

section

variable (h : M.Follows L Γ Γ') {c : Check α} {c' : Check β}
include h

theorem Simulation.Follows.reads_within : M.within.Reads L Γ Γ' where
  likeness := h.likeness
  refl := h.inner_refl
  trans := h.inner_trans
  failure := h.failure
  type := h.type

theorem Simulation.Follows.weaken (hc : Simulates M Q c c') : Simulates M.within Q c c' :=
  fun frames frames' hframes => (hc frames frames' hframes).imp id fun ⟨hresult, hinner, hstep⟩ =>
    ⟨hresult, hinner, h.inner_of_step hstep⟩

theorem simulates_inFrame (hc : Simulates M.within Q c c') :
    Simulates M Q (inFrame c) (inFrame c') :=
  fun _ _ hframes => (hc _ _ (h.push hframes)).imp id fun ⟨hresult, hinner, hstep⟩ =>
    ⟨hresult, h.pop hinner, h.step_of_inner hstep⟩

theorem simulates_ownFrame (hc : Simulates M Q c c') : Simulates M Q (inFrame c) (inFrame c') :=
  simulates_inFrame h (h.weaken hc)

theorem simulates_relabel {origin origin' : Origin} (horigin : L.origin origin origin')
    (hc : Simulates M Q c c') : Simulates M Q (mapFailure (residualFailure origin) c)
      (mapFailure (residualFailure origin') c') := by
  intro frames frames' hframes
  rcases hc frames frames' hframes with ⟨f, hf, hexcused⟩ | ⟨hresult, hinner⟩
  · exact .inl ⟨_, hf.mapFailure _, h.excuse hexcused origin⟩
  · exact .inr ⟨hresult.mapError fun _ _ => h.relabel horigin, hinner⟩

theorem simulates_member {e e' : TypedExpr} (he : L.expr e e') {name : Name} :
    Simulates M L.expr (member Γ e name) (member Γ' e' name) := by
  have ht := h.likeness.ty he
  unfold member
  generalize e.ty = t, e'.ty = t' at ht
  cases h.likeness.form ht with
  | named hargs =>
    have hfields := rel_getD (h.fields ht) .nil
    rcases lookup_related (x := name.text) hfields with ⟨hnone, hnone'⟩ | ⟨u, u', hsome, hsome', hu⟩
    · simp only [hnone, hnone']
      exact h.fail (.noField ht)
    · simp only [hsome, hsome']
      exact h.pure (h.likeness.node (.access hu he))
  | _ => exact h.fail (.accessOver ht)

theorem simulates_defineGenerics {names names' : List Name}
    (hnames : List.Forall₂ L.binder names names') :
    Simulates M.within Eq (defineGenerics Γ names) (defineGenerics Γ' names') := by
  induction hnames with
  | nil => exact h.reads_within.pure rfl
  | cons hname _ ih => exact h.reads_within.bind (h.generic hname) fun _ _ _ => ih

theorem simulates_defineParams {params params' : List Parameter}
    (hparams : List.Forall₂ L.ParameterLike params params') : ∀ {types types' : List (String × Ty)},
    List.Forall₂ L.ParamLike types types' →
    Simulates M Eq (defineParams Γ params types) (defineParams Γ' params' types') := by
  induction hparams with
  | nil => exact fun _ => h.pure rfl
  | cons hp _ ih =>
    intro types types' htypes
    cases htypes with
    | nil => exact h.pure rfl
    | cons ht hts =>
      rw [defineParams, defineParams, hp.name]
      exact h.bind (h.define _ ht.2) fun _ _ _ => ih hts

theorem simulates_enterLambda {generics generics' : List Name} {params params' : List Parameter}
    {result result' : Option TypeExpr} {shape shape' : Option Shape}
    (hgenerics : List.Forall₂ L.binder generics generics')
    (hparams : List.Forall₂ L.ParameterLike params params')
    (hresult : Option.Rel L.written result result') (hshape : Option.Rel L.ShapeLike shape shape') :
    Simulates M.within (fun r r' => List.Forall₂ L.ParamLike r.1 r'.1 ∧ Option.Rel L.type r.2 r'.2)
      (enterLambda Γ generics params result shape span)
      (enterLambda Γ' generics' params' result' shape' span) := by
  have hr := h.reads_within
  have hwanted : List.Forall₂ L.type ((shape.map (·.params)).getD [])
      ((shape'.map (·.params)).getD []) := by
    cases hshape with
    | none => exact .nil
    | some hshape => exact hshape.params
  refine hr.bind (simulates_defineGenerics h hgenerics) fun _ _ _ => ?_
  refine hr.bind (simulates_requireParamCount hr hparams.length_eq.symm hshape) fun _ _ _ => ?_
  refine hr.bind (simulates_paramTypes hr hparams hwanted) fun types types' htypes => ?_
  refine hr.bind (simulates_resultType hr hresult hshape) fun r r' hresult => ?_
  exact hr.bind (h.weaken (simulates_defineParams h hparams htypes)) fun _ _ _ =>
    hr.pure ⟨htypes, hresult⟩

theorem simulates_blockOf {block block' : List Term} (hblock : block'.isEmpty = block.isEmpty)
    (he : Option.Rel L.type expected expected') {statements statements' : Check (List TypedExpr)}
    (hstatements : Simulates M (List.Forall₂ L.expr) statements statements') :
    Simulates M (List.Forall₂ L.expr) (blockOf Γ block expected span statements)
      (blockOf Γ' block' expected' span statements') := by
  refine simulates_ite (by rw [hblock]) ?_ hstatements
  exact h.bind (simulates_requireExpected h.toReads h.likeness.void he) fun _ _ _ => h.pure .nil

theorem simulates_conditionalOf (hasElse : Bool) (he : Option.Rel L.type expected expected')
    {condition condition' : Check TypedExpr}
    {thenBlock thenBlock' elseBlock elseBlock' : Check (List TypedExpr)}
    (hcondition : Simulates M L.expr condition condition')
    (hthen : Simulates M (List.Forall₂ L.expr) thenBlock thenBlock')
    (helse : Simulates M (List.Forall₂ L.expr) elseBlock elseBlock') :
    Simulates M L.expr (conditionalOf Γ hasElse expected span condition thenBlock elseBlock)
      (conditionalOf Γ' hasElse expected' span condition' thenBlock' elseBlock') := by
  have hblocks {k k' : List TypedExpr → List TypedExpr → TypedExpr}
      (hk : ∀ ts ts' es es', List.Forall₂ L.expr ts ts' → List.Forall₂ L.expr es es' →
        L.expr (k ts es) (k' ts' es')) :
      Simulates M L.expr (do let ts ← inFrame thenBlock; let es ← elseBlock; return k ts es)
        (do let ts ← inFrame thenBlock'; let es ← elseBlock'; return k' ts es) :=
    h.bind (simulates_ownFrame h hthen) fun ts ts' hts => h.bind helse fun es es' hes =>
      h.pure (hk ts ts' es es' hts hes)
  refine h.bind hcondition fun c c' hc => ?_
  cases hasElse with
  | true =>
    refine hblocks fun ts ts' es es' hts hes => h.likeness.node (.conditional ?_ hc hts hes)
    cases he with
    | none =>
      exact h.likeness.join
        (.cons (h.likeness.blockType hts) (.cons (h.likeness.blockType hes) .nil))
    | some he => exact he
  | false =>
    refine h.bind (simulates_requireExpected h.toReads h.likeness.void he) fun _ _ _ => ?_
    refine hblocks fun ts ts' es es' hts hes => h.likeness.node (.conditional ?_ hc hts hes)
    cases he with
    | none => exact h.likeness.void
    | some he => exact he

theorem simulates_armBody {name : Option Name} {t t' : Ty} (ht : L.type t t')
    {origin origin' : Origin} (horigin : L.origin origin origin')
    {body body' : Check (List TypedExpr)} (hbody : Simulates M (List.Forall₂ L.expr) body body') :
    Simulates M (List.Forall₂ L.expr) (armBody Γ name t origin body)
      (armBody Γ' name t' origin' body') := by
  refine simulates_relabel h horigin (simulates_ownFrame h ?_)
  cases name with
  | none => exact hbody
  | some name => exact h.bind (h.define name ht) fun _ _ _ => hbody

end

/-! ## Terms -/

theorem Likeness.TermLike.isPlainLambda {t t' : Term} (ht : L.TermLike t t') :
    isPlainLambda t' = isPlainLambda t := by
  obtain ⟨hhead, hchain⟩ := ht
  cases hhead with
  | lambda hlambda =>
    obtain ⟨hgenerics, _, _, _⟩ := hlambda
    cases hgenerics with
    | nil =>
      cases hchain with
      | nil => rfl
      | cons _ _ => rfl
    | cons _ _ => rfl
  | _ => rfl

/-- What is left over in a `when` is bound to the same name. -/
theorem Likeness.otherName {other other' : Option Otherwise}
    (hother : Option.Rel L.OtherwiseLike other other') :
    (other'.bind (·.name)).map (·.text) = (other.bind (·.name)).map (·.text) := by
  cases hother with
  | none => rfl
  | some hother =>
    cases hother
    rfl

section

variable (h : M.Follows L Γ Γ')
include h

mutual

/-- **Terms that are alike are checked alike.** -/
theorem simulates_checkTerm : ∀ (t : Term) {t' : Term}, L.TermLike t t' →
    ∀ {expected expected' : Option Ty}, Option.Rel L.type expected expected' →
    Simulates M L.expr (checkTerm Γ t expected) (checkTerm Γ' t' expected')
  | ⟨head, [], span⟩, _, .mk hhead .nil, expected, expected', he => by
    rw [checkTerm, checkTerm]
    refine h.bind (simulates_checkExpr head hhead he) fun e e' h' => ?_
    exact h.bind (simulates_requireExpected h.toReads (h.likeness.ty h') he) fun _ _ _ => h.pure h'
  | ⟨head, link :: links, span⟩, _, .mk hhead (.cons hlink hlinks), expected, expected', he => by
    rw [checkTerm, checkTerm]
    refine h.bind (simulates_checkExpr head hhead .none) fun first first' hfirst => ?_
    refine h.bind (simulates_checkLinks (link :: links) (.cons hlink hlinks) hfirst he)
      fun e e' h' => ?_
    exact h.bind (simulates_requireExpected h.toReads (h.likeness.ty h') he) fun _ _ _ => h.pure h'
termination_by structural t => t

theorem simulates_checkLinks : ∀ (links : List Link) {links' : List Link},
    List.Forall₂ L.LinkLike links links' → ∀ {e e' : TypedExpr} {expected expected' : Option Ty},
    L.expr e e' → Option.Rel L.type expected expected' →
    Simulates M L.expr (checkLinks Γ links e expected) (checkLinks Γ' links' e' expected')
  | [], _, .nil, _, _, _, _, h', _ => by
    rw [checkLinks, checkLinks]
    exact h.pure h'
  | ⟨access, args, span⟩ :: links, _, .cons (.mk hargs) hlinks, e, e', expected, expected', h',
      he => by
    unfold checkLinks
    rw [isEmpty_eq_of_forall₂ hlinks]
    refine h.bind (Q := L.expr) ?_ fun accessed accessed' haccessed =>
      h.bind (Q := L.expr) ?_ fun called called' hcalled =>
        simulates_checkLinks links hlinks hcalled he
    · cases access with
      | none => exact h.pure h'
      | some access => exact simulates_member h h'
    · cases args with
      | none =>
        cases hargs
        exact h.pure haccessed
      | some args =>
        cases hargs with
        | some hargs =>
          refine simulates_checkCall args hargs haccessed ?_
          split
          · exact he
          · exact .none
termination_by structural links => links

theorem simulates_checkCall : ∀ (args : Arguments) {args' : Arguments}, L.ArgumentsLike args args' →
    ∀ {e e' : TypedExpr} {expected expected' : Option Ty} {span : Span},
    L.expr e e' → Option.Rel L.type expected expected' →
    Simulates M L.expr (checkCall Γ args e expected span) (checkCall Γ' args' e' expected' span)
  | ⟨generics, items, argsSpan⟩, _, .mk hgenerics hitems, e, e', expected, expected', span, h',
      he => by
    have hr := h.toReads
    rw [checkCall, checkCall]
    refine h.bind (simulates_calleeSignature hr h') fun F F' hF => ?_
    rw [← hitems.length_eq, ← hF.params.length_eq]
    refine simulates_ite .rfl (h.fail_bind (.same _)) ?_
    refine h.bind (simulates_requireLabels hr hitems hF.params) fun _ _ _ => ?_
    refine h.bind (simulates_explicitGenerics hr hF.generics hgenerics) fun r r' hgeneric => ?_
    obtain ⟨given, opened⟩ := r
    obtain ⟨given', opened'⟩ := r'
    obtain ⟨hgiven, hopened⟩ := hgeneric
    have hparams : List.Forall₂ L.type (F.paramTypes.map (·.resolve given))
        (F'.paramTypes.map (·.resolve given')) :=
      forall₂_map (forall₂_map (Q := L.type) hF.params fun _ _ _ hp => hp.2)
        fun _ _ _ hp => h.likeness.resolve hp hgiven
    refine h.bind (Q := fun r r' => List.Forall₂ L.EntryLike r.1 r'.1 ∧
      List.Forall₂ L.expr r.2 r'.2) ?_ fun ⟨σ, args⟩ ⟨σ', args'⟩ ⟨hσ, hargs⟩ =>
        h.bind (simulates_callGenerics hr hσ hF.generics) fun _ _ htypes => h.pure (h.likeness.node
          (.invocation (h.likeness.resolve hF.result hσ) h' htypes hargs))
    refine simulates_ite (by rw [isEmpty_eq_of_forall₂ hopened]) ?_ ?_
    · exact h.bind (simulates_checkArguments items hitems hparams) fun _ _ hargs =>
        h.pure ⟨hgiven, hargs⟩
    refine h.bind (simulates_checkEarly items hitems hparams hopened .nil) fun _ _ hearly => ?_
    refine h.bind (simulates_checkDeferred items hitems hparams hopened hearly.1 hearly.2)
      fun _ _ hargs => ?_
    refine h.bind (simulates_completeInference hr (h.likeness.resolve hF.result hgiven) he hopened
      hargs.2) fun _ _ hinferred => ?_
    exact h.bind (simulates_requireArguments hr hinferred hitems hparams hargs.1) fun _ _ _ =>
      h.pure ⟨Substitution.rel_extend h.likeness.beq hgiven hinferred, hargs.1⟩
termination_by structural args => args

theorem simulates_checkArguments : ∀ (items : List Argument) {items' : List Argument},
    List.Forall₂ L.ArgumentLike items items' → ∀ {ps ps' : List Ty}, List.Forall₂ L.type ps ps' →
    Simulates M (List.Forall₂ L.expr) (checkArguments Γ items ps) (checkArguments Γ' items' ps')
  | [], _, .nil, _, _, _ => by
    simp only [checkArguments]
    exact h.pure .nil
  | ⟨_, _, _⟩ :: _, _, .cons (.mk _) _, _, _, .nil => by
    simp only [checkArguments]
    exact h.pure .nil
  | ⟨_, value, _⟩ :: items, _, .cons (.mk hvalue) hitems, _, _, .cons hp hps => by
    rw [checkArguments, checkArguments]
    exact h.bind (simulates_checkTerm value hvalue (.some hp)) fun _ _ h' =>
      h.bind (simulates_checkArguments items hitems hps) fun _ _ hs => h.pure (.cons h' hs)
termination_by structural items => items

theorem simulates_checkEarly : ∀ (items : List Argument) {items' : List Argument},
    List.Forall₂ L.ArgumentLike items items' → ∀ {ps ps' : List Ty} {opened opened' : List String}
    {inferred inferred' : Substitution}, List.Forall₂ L.type ps ps' →
    List.Forall₂ L.name opened opened' → List.Forall₂ L.EntryLike inferred inferred' →
    Simulates M (fun r r' => List.Forall₂ (Option.Rel L.expr) r.1 r'.1 ∧
        List.Forall₂ L.EntryLike r.2 r'.2)
      (checkEarly Γ items ps opened inferred) (checkEarly Γ' items' ps' opened' inferred')
  | [], _, .nil, _, _, _, _, _, _, _, _, hinferred => by
    simp only [checkEarly]
    exact h.pure ⟨.nil, hinferred⟩
  | ⟨_, _, _⟩ :: _, _, .cons (.mk _) _, _, _, _, _, _, _, .nil, _, hinferred => by
    simp only [checkEarly]
    exact h.pure ⟨.nil, hinferred⟩
  | ⟨_, value, _⟩ :: items, _, .cons (.mk hvalue) hitems, _, _, opened, opened', inferred,
      inferred', .cons hp hps, hopened, hinferred => by
    have hspan {t t' : Term} : L.TermLike t t' → t'.span = t.span := fun ⟨_, _⟩ => rfl
    have hsignature {t t' : Ty} (ht : L.type t t') :
        t'.signature?.isSome = t.signature?.isSome := by
      cases h.likeness.form ht <;> rfl
    rw [checkEarly, checkEarly, h.likeness.mentions hp hopened, hvalue.isPlainLambda, hsignature hp,
      hspan hvalue]
    refine h.bind (Q := fun r r' => Option.Rel L.expr r.1 r'.1 ∧
      List.Forall₂ L.EntryLike r.2 r'.2) ?_ fun r r' hr =>
        h.bind (simulates_checkEarly items hitems hps hopened hr.2) fun _ _ hrest =>
          h.pure ⟨.cons hr.1 hrest.1, hrest.2⟩
    refine simulates_ite .rfl ?_ (simulates_ite .rfl (h.pure ⟨.none, hinferred⟩) ?_)
    · exact h.bind (simulates_checkTerm value hvalue (.some hp)) fun _ _ h' =>
        h.pure ⟨.some h', hinferred⟩
    · exact h.bind (simulates_checkTerm value hvalue .none) fun _ _ h' =>
        h.bind (simulates_inferFrom h.toReads hp (h.likeness.ty h') hopened hinferred)
          fun _ _ hmore => h.pure ⟨.some h', hmore⟩
termination_by structural items => items

theorem simulates_checkDeferred : ∀ (items : List Argument) {items' : List Argument},
    List.Forall₂ L.ArgumentLike items items' → ∀ {ps ps' : List Ty} {opened opened' : List String}
    {early early' : List (Option TypedExpr)} {inferred inferred' : Substitution},
    List.Forall₂ L.type ps ps' → List.Forall₂ L.name opened opened' →
    List.Forall₂ (Option.Rel L.expr) early early' → List.Forall₂ L.EntryLike inferred inferred' →
    Simulates M (fun r r' => List.Forall₂ L.expr r.1 r'.1 ∧ List.Forall₂ L.EntryLike r.2 r'.2)
      (checkDeferred Γ items ps opened early inferred)
      (checkDeferred Γ' items' ps' opened' early' inferred')
  | [], _, .nil, _, _, _, _, _, _, _, _, _, _, _, hinferred => by
    simp only [checkDeferred]
    exact h.pure ⟨.nil, hinferred⟩
  | ⟨_, ⟨_, _, _⟩, _⟩ :: _, _, .cons (.mk (.mk _ _)) _, _, _, _, _, _, _, _, _, .nil, _, _,
      hinferred => by
    simp only [checkDeferred]
    exact h.pure ⟨.nil, hinferred⟩
  | ⟨_, ⟨_, _, _⟩, _⟩ :: _, _, .cons (.mk (.mk _ _)) _, _, _, _, _, _, _, _, _, .cons _ _, _, .nil,
      hinferred => by
    simp only [checkDeferred]
    exact h.pure ⟨.nil, hinferred⟩
  | ⟨_, ⟨head, chain, span⟩, _⟩ :: items, _, .cons (.mk (.mk hhead _)) hitems, _, _, opened,
      opened', _, _, inferred, inferred', .cons hp hps, hopened, .cons hfirst hearly, hinferred => by
    unfold checkDeferred
    refine h.bind (Q := fun r r' => L.expr r.1 r'.1 ∧ List.Forall₂ L.EntryLike r.2 r'.2) ?_
      fun r r' hr => h.bind (simulates_checkDeferred items hitems hps hopened hearly hr.2)
        fun _ _ hrest => h.pure ⟨.cons hr.1 hrest.1, hrest.2⟩
    cases hfirst with
    | some h' => exact h.pure ⟨h', hinferred⟩
    | none =>
      refine h.bind (Q := L.expr) ?_ fun _ _ h' =>
        h.bind (simulates_inferFrom h.toReads hp (h.likeness.ty h') hopened hinferred)
          fun _ _ hmore => h.pure ⟨h', hmore⟩
      have hexpr := simulates_checkExpr head hhead .none
      have hshape := h.likeness.openShape hopened (h.likeness.resolve hp hinferred)
      cases head with
      | lambda lambda =>
        cases hhead with
        | lambda hlambda =>
          generalize openShape opened _ = shape, openShape opened' _ = shape' at hshape
          cases hshape with
          | none => exact hexpr
          | some hshape =>
            exact h.bind (simulates_checkLambda lambda hlambda (.some hshape)) fun _ _ hf =>
              h.pure (h.likeness.node (.function hf))
      | _ =>
        cases hhead
        exact hexpr
termination_by structural items => items

theorem simulates_checkExpr : ∀ (head : Expr) {head' : Expr}, L.ExprLike head head' →
    ∀ {expected expected' : Option Ty}, Option.Rel L.type expected expected' →
    Simulates M L.expr (checkExpr Γ head expected) (checkExpr Γ' head' expected')
  | .literal value span, _, .literal _ _, _, _, _ => by
    rw [checkExpr, checkExpr]
    exact h.pure (h.likeness.node (.literal (h.likeness.literal value)))
  | .reference name args span, _, .reference hargs, expected, expected', he => by
    unfold checkExpr
    refine h.bind (h.identifier name) fun subject subject' h' => ?_
    cases args with
    | none =>
      cases hargs
      exact h.pure h'
    | some args =>
      cases hargs with
      | some hargs => exact simulates_checkCall args hargs h' he
  | .lambda ⟨generics, params, result, body, span⟩, _,
      .lambda (.mk hgenerics hparams hresult hbody), expected, expected', he => by
    unfold checkExpr
    refine h.bind (Q := Option.Rel L.ShapeLike) ?_ fun shape shape' hshape =>
      h.bind (simulates_checkLambda _ (.mk hgenerics hparams hresult hbody) hshape) fun _ _ hf =>
        h.pure (h.likeness.node (.function hf))
    cases he with
    | none => exact h.pure .none
    | some he =>
      exact h.bind (simulates_expectedShape h.toReads hgenerics he) fun _ _ hshape =>
        h.pure (.some hshape)
  | .declaration ⟨name, type, _, value, _⟩, _, .declaration htype hvalue, _, _, _ => by
    unfold checkExpr
    refine h.bind (simulates_requireUnreserved h.toReads) fun _ _ _ => ?_
    cases htype with
    | none =>
      refine h.bind (simulates_checkTerm value hvalue .none) fun e e' h' => ?_
      exact h.bind (h.define name (h.likeness.ty h')) fun _ _ _ =>
        h.pure (h.likeness.node (.declaration h'))
    | some htype =>
      refine h.bind (simulates_resolve h.toReads htype) fun t t' ht => ?_
      refine h.bind (h.define name ht) fun _ _ _ => ?_
      exact h.bind (simulates_checkTerm value hvalue (.some ht)) fun _ _ h' =>
        h.pure (h.likeness.node (.declaration h'))
  | .conditional ⟨condition, thenBlock, elseIfs, elseBlock, span⟩, _,
      .conditional hcondition hthen helseIfs helse, expected, expected', he => by
    have hboolean := h.likeness.boolean
    unfold checkExpr
    rw [isEmpty_eq_of_forall₂ helseIfs, isEmpty_eq_of_forall₂ helse]
    refine simulates_conditionalOf h _ he (simulates_checkTerm condition hcondition (.some hboolean))
      (simulates_blockOf h (isEmpty_eq_of_forall₂ hthen) he
        (simulates_checkStatements thenBlock hthen he)) ?_
    exact simulates_checkElse elseIfs helseIfs _ he span fun _ =>
      simulates_blockOf h (isEmpty_eq_of_forall₂ helse) he
        (simulates_checkStatements elseBlock helse he)
  | .list generics items span, _, .list hgenerics hitems, expected, expected', he => by
    have hfree := simulates_checkItems items hitems .none
    have hwanted := h.likeness.wantedElements he
    unfold checkExpr
    cases hgenerics with
    | nil =>
      dsimp only
      rw [isEmpty_eq_of_forall₂ hitems]
      generalize ((expected.map Ty.members).getD []).filterMap Ty.listElement? = wanted,
        ((expected'.map Ty.members).getD []).filterMap Ty.listElement? = wanted' at hwanted
      cases hwanted with
      | nil => exact simulates_inferredList h.toReads .nil _ hfree
      | cons hfirst hrest =>
        cases hrest with
        | nil =>
          exact h.bind (simulates_checkItems items hitems (.some hfirst)) fun _ _ hes =>
            h.pure (h.likeness.node (.list hfirst hes))
        | cons hsecond hrest =>
          exact simulates_inferredList h.toReads (.cons hfirst (.cons hsecond hrest)) _ hfree
    | cons htype htypes =>
      cases htypes with
      | nil =>
        refine h.bind (simulates_resolve h.toReads htype) fun t t' ht => ?_
        exact h.bind (simulates_checkItems items hitems (.some ht)) fun _ _ hes =>
          h.pure (h.likeness.node (.list ht hes))
      | cons _ htypes =>
        simp only [List.length_cons, ← htypes.length_eq]
        exact h.fail (.same _)
  | .when ⟨subject, arms, other, span⟩, _, .when hsubject harms hother, expected, expected', he => by
    unfold checkExpr
    refine h.bind (simulates_checkTerm subject hsubject .none) fun s s' hs => ?_
    refine h.bind (simulates_checkArms arms harms (h.likeness.coverage (h.likeness.ty hs)) he)
      fun r r' hr => ?_
    obtain ⟨hcases, hcoverage⟩ := hr
    have hsorted := h.likeness.sortedCases hcases
    rw [Likeness.otherName hother]
    refine h.bind (Q := fun r r' => Option.Rel (List.Forall₂ L.expr) r.1 r'.1 ∧
      L.CoverageLike r.2 r'.2) ?_ fun r r' hr =>
        h.bind (simulates_requireExhaustive h.toReads hr.2) fun _ _ _ =>
          h.pure (h.likeness.node (.choice ?_ hs hsorted hr.1))
    · cases other with
      | none =>
        cases hother
        exact h.pure ⟨.none, hcoverage⟩
      | some other =>
        obtain ⟨name, body, otherSpan, origin⟩ := other
        obtain ⟨hrest, htaken⟩ := h.likeness.takeRemaining hcoverage
        cases hother with
        | some hother =>
          obtain ⟨hbody, horigin⟩ := hother
          exact h.bind (simulates_armBody h hrest horigin (simulates_blockOf h
            (isEmpty_eq_of_forall₂ hbody) he (simulates_checkStatements body hbody he)))
            fun _ _ hblock => h.pure ⟨.some hblock, htaken⟩
    · cases he with
      | some he => exact he
      | none => exact h.likeness.choiceType hsorted hr.1
termination_by structural head => head

theorem simulates_checkLambda : ∀ (lambda : Lambda) {lambda' : Lambda}, L.LambdaLike lambda lambda' →
    ∀ {shape shape' : Option Shape}, Option.Rel L.ShapeLike shape shape' →
    Simulates M L.FunctionLike (checkLambda Γ lambda shape) (checkLambda Γ' lambda' shape')
  | ⟨generics, params, result, body, span⟩, _, .mk hgenerics hparams hresult hbody, shape, shape',
      hshape => by
    rw [checkLambda, checkLambda]
    refine simulates_ite (by rw [isEmpty_eq_of_forall₂ hbody]) (h.fail (.same _)) ?_
    have hr := h.reads_within
    refine simulates_inFrame h (hr.bind (simulates_enterLambda h hgenerics hparams hresult hshape) ?_)
    rintro ⟨types, r⟩ ⟨types', r'⟩ ⟨htypes, hresult⟩
    refine hr.bind (h.weaken (simulates_checkStatements body hbody hresult))
      fun block block' hblock => hr.pure ⟨⟨?_, htypes, ?_⟩, ?_, hblock⟩
    · exact forall₂_map hgenerics fun _ _ _ hx => h.likeness.binder hx
    · exact rel_getD hresult (h.likeness.blockType hblock)
    · exact map_eq_map_of_forall₂ hparams fun _ _ _ _ hp => congrArg Name.text hp.name
termination_by structural lambda => lambda

theorem simulates_checkStatements : ∀ (ts : List Term) {ts' : List Term},
    List.Forall₂ L.TermLike ts ts' → ∀ {expected expected' : Option Ty},
    Option.Rel L.type expected expected' →
    Simulates M (List.Forall₂ L.expr) (checkStatements Γ ts expected)
      (checkStatements Γ' ts' expected')
  | [], _, .nil, _, _, _ => by
    rw [checkStatements, checkStatements]
    exact h.pure .nil
  | t :: ts, _, .cons ht hts, expected, expected', he => by
    rw [checkStatements, checkStatements, isEmpty_eq_of_forall₂ hts]
    refine h.bind (Q := L.expr) ?_ fun _ _ h' =>
      h.bind (simulates_checkStatements ts hts he) fun _ _ hs => h.pure (.cons h' hs)
    refine simulates_checkTerm t ht ?_
    split
    · exact he
    · exact .none
termination_by structural ts => ts

theorem simulates_checkItems : ∀ (ts : List Term) {ts' : List Term},
    List.Forall₂ L.TermLike ts ts' → ∀ {expected expected' : Option Ty},
    Option.Rel L.type expected expected' →
    Simulates M (List.Forall₂ L.expr) (checkItems Γ ts expected) (checkItems Γ' ts' expected')
  | [], _, .nil, _, _, _ => by
    rw [checkItems, checkItems]
    exact h.pure .nil
  | t :: ts, _, .cons ht hts, expected, expected', he => by
    rw [checkItems, checkItems]
    exact h.bind (simulates_checkTerm t ht he) fun _ _ h' =>
      h.bind (simulates_checkItems ts hts he) fun _ _ hs => h.pure (.cons h' hs)
termination_by structural ts => ts

theorem simulates_checkElse : ∀ (branches : List ElseIf) {branches' : List ElseIf},
    List.Forall₂ L.ElseIfLike branches branches' → ∀ (hasElse : Bool)
    {expected expected' : Option Ty}, Option.Rel L.type expected expected' → ∀ (span : Span)
    {elseBlock elseBlock' : Span → Check (List TypedExpr)},
    (∀ span, Simulates M (List.Forall₂ L.expr) (elseBlock span) (elseBlock' span)) →
    Simulates M (List.Forall₂ L.expr) (checkElse Γ branches hasElse expected span elseBlock)
      (checkElse Γ' branches' hasElse expected' span elseBlock')
  | [], _, .nil, _, _, _, _, span, _, _, helse => by
    rw [checkElse, checkElse]
    exact simulates_ownFrame h (helse span)
  | ⟨condition, thenBlock, span⟩ :: branches, _, .cons (.mk hcondition hthen) hbranches, hasElse,
      expected, expected', he, _, elseBlock, elseBlock', helse => by
    have hboolean := h.likeness.boolean
    rw [checkElse, checkElse, isEmpty_eq_of_forall₂ hbranches]
    refine h.bind (simulates_conditionalOf h _ he
      (simulates_checkTerm condition hcondition (.some hboolean))
      (simulates_blockOf h (isEmpty_eq_of_forall₂ hthen) he
        (simulates_checkStatements thenBlock hthen he))
      (simulates_checkElse branches hbranches hasElse he span helse)) fun _ _ h' => ?_
    exact h.pure (.cons h' .nil)
termination_by structural branches => branches

theorem simulates_checkArms : ∀ (arms : List Arm) {arms' : List Arm},
    List.Forall₂ L.ArmLike arms arms' → ∀ {c c' : Coverage} {expected expected' : Option Ty},
    L.CoverageLike c c' → Option.Rel L.type expected expected' →
    Simulates M (fun r r' => List.Forall₂ L.CaseLike r.1 r'.1 ∧ L.CoverageLike r.2 r'.2)
      (checkArms Γ arms c expected) (checkArms Γ' arms' c' expected')
  | [], _, .nil, _, _, _, _, hc, _ => by
    rw [checkArms, checkArms]
    exact h.pure ⟨.nil, hc⟩
  | ⟨name, type, body, span, origin⟩ :: arms, _, .cons (.mk htype hbody horigin) harms, c, c',
      expected, expected', hc, he => by
    have hr := h.toReads
    rw [checkArms, checkArms, h.likeness.span htype]
    refine h.bind (simulates_resolve hr htype) fun t t' ht => ?_
    refine h.bind (simulates_ofAlgebra hr (h.tests ht)) fun test test' htest => ?_
    refine h.bind (simulates_mapError hr (h.likeness.consume hc ht)) fun d d' hd => ?_
    refine h.bind (simulates_armBody h ht horigin (simulates_blockOf h (isEmpty_eq_of_forall₂ hbody)
      he (simulates_checkStatements body hbody he))) fun block block' hblock => ?_
    refine h.bind (simulates_checkArms arms harms hd he) fun r r' hrest => ?_
    exact h.pure ⟨.cons ⟨rfl, ht, htest, hblock⟩ hrest.1, hrest.2⟩
termination_by structural arms => arms

end

/-! ## Package-level declarations -/

theorem simulates_writtenParams {gs gs' : List String} (hgs : List.Forall₂ L.name gs gs')
    {params params' : List Parameter} (hparams : List.Forall₂ L.ParameterLike params params') :
    Simulates M (List.Forall₂ L.ParamLike) (writtenParams Γ gs params)
      (writtenParams Γ' gs' params') := by
  induction hparams with
  | nil => exact h.pure .nil
  | @cons p p' _ _ hp _ ih =>
    obtain ⟨name, type⟩ := p
    obtain ⟨name', type'⟩ := p'
    obtain ⟨rfl, htype⟩ := hp
    cases htype with
    | none => exact ih
    | some htype =>
      exact h.bind (simulates_resolveIn h.toReads hgs htype) fun t t' ht =>
        h.bind ih fun ts ts' hts => h.pure (.cons ⟨rfl, ht⟩ hts)

theorem simulates_writtenSignature {lambda lambda' : Lambda} (hlambda : L.LambdaLike lambda lambda') :
    Simulates M (Option.Rel L.SignatureLike) (writtenSignature Γ lambda)
      (writtenSignature Γ' lambda') := by
  obtain ⟨hgenerics, hparams, hresult, -⟩ := hlambda
  have hnames := forall₂_map (Q := L.name) (f := Name.text) (g := Name.text) hgenerics
    fun _ _ _ hx => h.likeness.binder hx
  have hwritten := all_eq_of_forall₂ (p := fun p => p.type.isSome) (q := fun p => p.type.isSome)
    hparams fun p _ p' hp => by cases p; cases p'; cases hp.type <;> rfl
  cases hresult with
  | none => exact h.pure .none
  | some hresult =>
    refine simulates_ite (by rw [hwritten]) ?_ (h.pure .none)
    refine h.bind (simulates_writtenParams h hnames hparams) fun ps ps' hps => ?_
    refine h.bind (simulates_resolveIn h.toReads hnames hresult) fun t t' ht => ?_
    exact h.pure (.some ⟨hnames, hps, ht⟩)

theorem simulates_inferDeclaration {d d' : Declaration} (hd : L.DeclarationLike d d') :
    Simulates M L.type (inferDeclaration Γ d) (inferDeclaration Γ' d') := by
  obtain ⟨name, type, exit, value, span⟩ := d
  obtain ⟨name', type', exit', value', span'⟩ := d'
  obtain ⟨rfl, htype, hvalue⟩ := hd
  unfold inferDeclaration
  cases htype with
  | some htype => exact simulates_resolve h.toReads htype
  | none =>
    have hterm : Simulates M L.type (do return (← checkTerm Γ value none).ty)
        (do return (← checkTerm Γ' value' none).ty) :=
      h.bind (simulates_checkTerm h value hvalue .none) fun _ _ he => h.pure (h.likeness.ty he)
    obtain ⟨hhead, hchain⟩ := hvalue
    cases hchain with
    | cons _ _ => cases hhead <;> exact hterm
    | nil =>
      cases hhead with
      | lambda hlambda =>
        refine h.bind (simulates_writtenSignature h hlambda) fun F F' hF => ?_
        cases hF with
        | none => exact hterm
        | some hF => exact h.pure (h.likeness.fn hF)
      | _ => exact hterm

theorem simulates_checkDeclaration {d d' : Declaration} (hd : L.DeclarationLike d d') {t t' : Ty}
    (ht : L.type t t') :
    Simulates M (fun d d' => L.expr d.value d'.value) (checkDeclaration Γ d t)
      (checkDeclaration Γ' d' t') :=
  h.bind (simulates_checkTerm h _ hd.value (.some ht)) fun _ _ he => h.pure he

end

end UnionChecker.Check
