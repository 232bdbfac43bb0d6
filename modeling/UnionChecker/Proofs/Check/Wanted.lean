import UnionChecker.Proofs.Check.Extension
import UnionChecker.Proofs.Check.Accepted
/-!
# What is wanted does not change the calls

A term that is accepted without a wanted type may be checked at one as well. What comes out differs
in the types of conditionals, lists and choices, which take over what is wanted, and nowhere else:
calls are the same, and so is everything inside of them (`agree_checkTerm`).
-/

namespace UnionChecker.Check

open Syntax

variable {Γ : Context} {frames inner inner' : Frames} {span : Span} {expected : Option Ty}

/-! ## Calls -/

theorem refines_completeInference_wanted {result : Ty} {opened : List String}
    {inferred : Substitution} :
    Refines (completeInference Γ result none opened inferred span)
      (completeInference Γ result expected opened inferred span) := by
  intro frames found frames' h
  cases expected with
  | none => exact h
  | some wanted =>
    unfold completeInference at h ⊢
    simp only [runs_bind, runs_ite, runs_pure, not_runs_fail, and_false, or_false] at h ⊢
    obtain ⟨_, _, ⟨rfl, rfl⟩, hall, rfl, rfl⟩ := h
    refine ⟨_, _, ?_, hall, rfl, rfl⟩
    -- nothing is left open, so there is nothing to infer from what is wanted
    have hnil : opened.filter (fun generic => !found.binds generic) = [] := by
      rw [List.filter_eq_nil_iff]
      intro x hx
      simp [List.all_eq_true.1 hall x hx]
    rw [hnil]
    exact runs_pure.2 ⟨rfl, rfl⟩

/-- A call that is accepted without a wanted type pays no heed to one. -/
theorem refines_checkCall_wanted {args : Arguments} {subject : TypedExpr} :
    Refines (checkCall Γ args subject none span) (checkCall Γ args subject expected span) := by
  intro frames e frames' h
  obtain ⟨generics, items, argsSpan⟩ := args
  obtain ⟨F, given, σ, opened, args, types, hF, hlen, hlabels, hgiven, hargs, htypes, rfl⟩ :=
    runs_checkCall.1 h
  refine runs_checkCall.2 ⟨F, given, σ, opened, args, types, hF, hlen, hlabels, hgiven, ?_, htypes,
    rfl⟩
  cases hargs with
  | written hargs => exact .written hargs
  | inferred hopened hearly hdeferred hcomplete hfit =>
    exact .inferred hopened hearly hdeferred (refines_completeInference_wanted _ _ _ hcomplete) hfit

theorem refines_checkLinks_wanted : ∀ (links : List Link) (subject : TypedExpr),
    Refines (checkLinks Γ links subject none) (checkLinks Γ links subject expected)
  | [], _ => by
    rw [checkLinks, checkLinks]
    exact .refl _
  | ⟨access, args, span⟩ :: links, subject => by
    unfold checkLinks
    refine (Refines.refl _).bind fun accessed => Refines.bind ?_ fun called =>
      refines_checkLinks_wanted links called
    cases args with
    | none => exact .refl _
    | some args =>
      dsimp only
      rw [ite_self]
      split
      · exact refines_checkCall_wanted
      · exact .refl _

/-! ## Lambdas -/

theorem paramType_unique {param : Parameter} {index : Nat} {wanted : Option Ty} {t t' : Ty}
    (h : Runs (paramType Γ index param none) frames t inner)
    (h' : Runs (paramType Γ index param wanted) frames t' inner') : t' = t := by
  obtain ⟨written, hwritten, ht, -⟩ := runs_paramType.1 h
  obtain ⟨written', hwritten', ht', -⟩ := runs_paramType.1 h'
  obtain ⟨rfl, -⟩ := hwritten.unique hwritten'
  rw [Option.or_none] at ht
  rw [ht, Option.some_or] at ht'
  exact (Option.some.inj ht').symm

/-- Parameters whose types are known without a shape have the same types with one. -/
theorem paramTypes_unique : ∀ {params : List Parameter} {index : Nat} {wanted : List Ty}
    {types types' : List (String × Ty)}, Runs (paramTypes Γ index params []) frames types frames →
    Runs (paramTypes Γ index params wanted) frames types' frames → types' = types
  | [], _, _, _, _, h, h' => by
    obtain ⟨rfl, _⟩ := runs_pure.1 h
    obtain ⟨rfl, _⟩ := runs_pure.1 h'
    rfl
  | param :: params, index, wanted, _, _, h, h' => by
    obtain ⟨type, types, htype, htypes, rfl⟩ := runs_paramTypes_cons.1 h
    obtain ⟨type', types', htype', htypes', rfl⟩ := runs_paramTypes_cons.1 h'
    rw [paramType_unique htype htype', paramTypes_unique htypes htypes']

theorem resultType_unique {result : Option TypeExpr} {shape : Option Shape} {t t' : Option Ty}
    (h : Runs (resultType Γ result none span) frames t inner)
    (h' : Runs (resultType Γ result shape span) frames t' inner') : t' = t := by
  obtain ⟨written, hwritten, hsome, rfl, -⟩ := runs_resultType.1 h
  obtain ⟨written', hwritten', -, rfl, -⟩ := runs_resultType.1 h'
  obtain ⟨rfl, -⟩ := hwritten.unique hwritten'
  cases written with
  | none => exact (hsome rfl rfl).elim
  | some written => rfl

/-- A lambda that is accepted without a shape is the same with one. -/
theorem checkLambda_unique {lambda : Lambda} {shape : Option Shape} {f f' : TypedFunction}
    (h : Runs (checkLambda Γ lambda none) frames f inner)
    (h' : Runs (checkLambda Γ lambda shape) frames f' inner') : f' = f ∧ inner' = inner := by
  obtain ⟨generics, params, result, body, span⟩ := lambda
  obtain ⟨types, wanted, entered, block, left, _, hentered, hblock, rfl, rfl⟩ :=
    runs_checkLambda.1 h
  obtain ⟨types', wanted', entered', block', left', _, hentered', hblock', rfl, rfl⟩ :=
    runs_checkLambda.1 h'
  obtain ⟨named, hgenerics, _, htypes, hresult, hparams⟩ := runs_enterLambda.1 hentered
  obtain ⟨named', hgenerics', _, htypes', hresult', hparams'⟩ := runs_enterLambda.1 hentered'
  obtain ⟨-, rfl⟩ := hgenerics.unique hgenerics'
  obtain rfl := paramTypes_unique htypes htypes'
  obtain rfl := resultType_unique hresult hresult'
  obtain ⟨-, rfl⟩ := hparams.unique hparams'
  obtain ⟨rfl, rfl⟩ := hblock.unique hblock'
  exact ⟨rfl, rfl⟩

/-! ## Parts of expressions -/

/-- A property of nodes that says something of calls only. -/
def OnlyCalls (P : TypedExpr → Prop) : Prop :=
  ∀ e : TypedExpr, (∀ type subject generics args, e ≠ .invocation type subject generics args) → P e

/-- The first tree has the property everywhere if the second has, and both checks leave the same
frames. -/
def Agree (P : TypedExpr → Prop) (e e' : TypedExpr) (frames frames' : Frames) : Prop :=
  (e'.Everywhere P → e.Everywhere P) ∧ frames' = frames

/-- The same for blocks. -/
def AgreeAll (P : TypedExpr → Prop) (es es' : List TypedExpr) (frames frames' : Frames) : Prop :=
  ((∀ e ∈ es', e.Everywhere P) → ∀ e ∈ es, e.Everywhere P) ∧ frames' = frames

variable {P : TypedExpr → Prop}

theorem Agree.of_eq {e e' : TypedExpr} (h : e = e' ∧ inner = inner') : Agree P e e' inner inner' :=
  ⟨fun he => h.1 ▸ he, h.2.symm⟩

theorem agreeAll_nil : AgreeAll P [] [] frames frames := ⟨fun h => h, rfl⟩

theorem AgreeAll.cons {e e' : TypedExpr} {es es' : List TypedExpr}
    (he : e'.Everywhere P → e.Everywhere P)
    (hes : AgreeAll P es es' inner inner') : AgreeAll P (e :: es) (e' :: es') inner inner' := by
  refine ⟨fun h => ?_, hes.2⟩
  rw [List.forall_mem_cons] at h ⊢
  exact ⟨he h.1, hes.1 h.2⟩

theorem agree_blockOf {block : List Term} {statements statements' : Check (List TypedExpr)}
    {es es' : List TypedExpr} (hrun : Runs (blockOf Γ block none span statements) frames es inner)
    (hrun' : Runs (blockOf Γ block expected span statements') frames es' inner')
    (h : Runs statements frames es inner → Runs statements' frames es' inner' →
      AgreeAll P es es' inner inner') : AgreeAll P es es' inner inner' := by
  rcases runs_blockOf.1 hrun with ⟨rfl, _, rfl, rfl⟩ | ⟨hne, hrun⟩
  · rcases runs_blockOf.1 hrun' with ⟨_, _, rfl, rfl⟩ | ⟨hne, _⟩
    · exact agreeAll_nil
    · exact (hne rfl).elim
  · rcases runs_blockOf.1 hrun' with ⟨rfl, _⟩ | ⟨_, hrun'⟩
    · exact (hne rfl).elim
    · exact h hrun hrun'

theorem agree_armBody {name : Option Name} {type : Ty} {origin : Origin}
    {body body' : Check (List TypedExpr)} {block block' : List TypedExpr}
    (hrun : Runs (armBody Γ name type origin body) frames block inner)
    (hrun' : Runs (armBody Γ name type origin body') frames block' inner')
    (h : ∀ bound left left', Runs body bound block left → Runs body' bound block' left' →
      AgreeAll P block block' left left') : AgreeAll P block block' inner inner' := by
  obtain ⟨bound, left, hbound, hbody, rfl⟩ := runs_armBody.1 hrun
  obtain ⟨bound', left', hbound', hbody', rfl⟩ := runs_armBody.1 hrun'
  obtain rfl : bound = bound' := Option.some.inj (hbound.symm.trans hbound')
  obtain ⟨hagree, rfl⟩ := h _ _ _ hbody hbody'
  exact ⟨hagree, rfl⟩

theorem agree_conditionalOf {hasElse : Bool} {condition : Check TypedExpr}
    {thenBlock thenBlock' elseBlock elseBlock' : Check (List TypedExpr)} {e e' : TypedExpr}
    (hP : OnlyCalls P)
    (hrun : Runs (conditionalOf Γ hasElse none span condition thenBlock elseBlock) frames e inner)
    (hrun' : Runs (conditionalOf Γ hasElse expected span condition thenBlock' elseBlock') frames e'
      inner')
    (hthen : ∀ decided ts ts' left left', Runs thenBlock decided ts left →
      Runs thenBlock' decided ts' left' → AgreeAll P ts ts' left left')
    (helse : ∀ decided es es' left left', Runs elseBlock decided es left →
      Runs elseBlock' decided es' left' → AgreeAll P es es' left left') :
    Agree P e e' inner inner' := by
  obtain ⟨c, ts, es, decided, left, hc, _, hts, hes, rfl⟩ := runs_conditionalOf.1 hrun
  obtain ⟨c', ts', es', decided', left', hc', _, hts', hes', rfl⟩ := runs_conditionalOf.1 hrun'
  obtain ⟨rfl, rfl⟩ := hc.unique hc'
  obtain ⟨hthen, rfl⟩ := hthen _ _ _ _ _ hts hts'
  obtain ⟨helse, rfl⟩ := helse _ _ _ _ _ hes hes'
  refine ⟨fun h => ?_, rfl⟩
  obtain ⟨_, hc, hts, hes⟩ := TypedExpr.everywhere_conditional.1 h
  exact TypedExpr.everywhere_conditional.2 ⟨hP _ (by simp), hc, hthen hts, helse hes⟩

/-! ## Along the checker -/

mutual

theorem agree_checkTerm (hP : OnlyCalls P) : ∀ (t : Term) {expected : Option Ty}
    {frames inner inner' : Frames} {e e' : TypedExpr}, Runs (checkTerm Γ t none) frames e inner →
    Runs (checkTerm Γ t expected) frames e' inner' → Agree P e e' inner inner'
  | ⟨head, [], span⟩, _, _, _, _, _, _, h, h' => by
    exact agree_checkExpr hP head (runs_checkTerm_head.1 h).1 (runs_checkTerm_head.1 h').1
  | ⟨head, link :: links, span⟩, _, _, _, _, _, _, h, h' => by
    obtain ⟨first, left, hfirst, hlinks, _⟩ := runs_checkTerm_chain.1 h
    obtain ⟨first', left', hfirst', hlinks', _⟩ := runs_checkTerm_chain.1 h'
    obtain ⟨rfl, rfl⟩ := hfirst.unique hfirst'
    exact .of_eq ((refines_checkLinks_wanted _ _ _ _ _ hlinks).unique hlinks')

theorem agree_checkExpr (hP : OnlyCalls P) : ∀ (head : Expr) {expected : Option Ty}
    {frames inner inner' : Frames} {e e' : TypedExpr}, Runs (checkExpr Γ head none) frames e inner →
    Runs (checkExpr Γ head expected) frames e' inner' → Agree P e e' inner inner'
  | .literal value span, _, _, _, _, _, _, h, h' => by
    rw [runs_checkExpr_literal] at h h'
    exact .of_eq ⟨h.1.trans h'.1.symm, h.2.trans h'.2.symm⟩
  | .reference name none span, _, _, _, _, _, _, h, h' => by
    exact .of_eq ((runs_checkExpr_reference.1 h).unique (runs_checkExpr_reference.1 h'))
  | .reference name (some args) span, _, _, _, _, _, _, h, h' => by
    obtain ⟨subject, hsubject, hcall⟩ := runs_checkExpr_call.1 h
    obtain ⟨subject', hsubject', hcall'⟩ := runs_checkExpr_call.1 h'
    obtain ⟨rfl, -⟩ := hsubject.unique hsubject'
    exact .of_eq ((refines_checkCall_wanted _ _ _ hcall).unique hcall')
  | .lambda lambda, _, _, _, _, _, _, h, h' => by
    obtain ⟨shape, f, hshape, hf, rfl⟩ := runs_checkExpr_lambda.1 h
    obtain ⟨shape', f', _, hf', rfl⟩ := runs_checkExpr_lambda.1 h'
    rcases hshape with ⟨_, rfl⟩ | ⟨_, _, hnone, _⟩
    · obtain ⟨rfl, rfl⟩ := checkLambda_unique hf hf'
      exact .of_eq ⟨rfl, rfl⟩
    · cases hnone
  | .declaration ⟨name, some type, _, value, _⟩, _, _, _, _, _, _, h, h' => by
    exact .of_eq (h.unique (runs_checkExpr_annotated.2 (runs_checkExpr_annotated.1 h')))
  | .declaration ⟨name, none, _, value, _⟩, _, _, _, _, _, _, h, h' => by
    exact .of_eq (h.unique (runs_checkExpr_declaration.2 (runs_checkExpr_declaration.1 h')))
  | .conditional ⟨condition, thenBlock, elseIfs, elseBlock, span⟩, _, _, _, _, _, _, h, h' => by
    exact agree_conditionalOf hP (runs_checkExpr_conditional.1 h) (runs_checkExpr_conditional.1 h')
      (fun _ _ _ _ _ hts hts' => agree_blockOf hts hts' (agree_checkStatements hP thenBlock))
      (fun _ _ _ _ _ hes hes' => agree_checkElse hP elseIfs (fun _ _ _ _ _ _ hes hes' =>
        agree_blockOf hes hes' (agree_checkStatements hP elseBlock)) hes hes')
  | .list [] items span, expected, _, _, _, _, _, h, h' => by
    rcases runs_checkExpr_list.1 h with ⟨_, _, hnone, _⟩ | ⟨es, _, _, hes, rfl⟩
    · cases hnone
    · rcases runs_checkExpr_list.1 h' with ⟨element, es', _, hes', rfl⟩ | ⟨es', _, _, hes', rfl⟩
      · obtain ⟨hagree, rfl⟩ := agree_checkItems hP items hes hes'
        refine ⟨fun he => ?_, rfl⟩
        exact TypedExpr.everywhere_list.2
          ⟨hP _ (by simp), hagree (TypedExpr.everywhere_list.1 he).2⟩
      · obtain ⟨rfl, rfl⟩ := hes.unique hes'
        refine ⟨fun he => ?_, rfl⟩
        exact TypedExpr.everywhere_list.2 ⟨hP _ (by simp), (TypedExpr.everywhere_list.1 he).2⟩
  | .list [type] items span, _, _, _, _, _, _, h, h' => by
    exact .of_eq (h.unique (runs_checkExpr_list_of.2 (runs_checkExpr_list_of.1 h')))
  | .list (_ :: _ :: _) items span, _, _, _, _, _, _, h, _ =>
    (not_runs_checkExpr_list_many h).elim
  | .when ⟨subject, arms, other, span⟩, _, _, inner, inner', _, _, h, h' => by
    obtain ⟨s, cases, otherBlock, coverage, final, left, middle, hs, harms, hother, _, rfl⟩ :=
      runs_checkExpr_when.1 h
    obtain ⟨s', cases', otherBlock', coverage', final', left', middle', hs', harms', hother', _,
      rfl⟩ := runs_checkExpr_when.1 h'
    obtain ⟨rfl, rfl⟩ := hs.unique hs'
    obtain ⟨hagree, rfl, rfl⟩ := agree_checkArms hP arms harms harms'
    have hblock : ((∀ block ∈ otherBlock', ∀ e ∈ block, e.Everywhere P) →
        ∀ block ∈ otherBlock, ∀ e ∈ block, e.Everywhere P) ∧ inner' = inner := by
      cases other with
      | none =>
        cases hother
        cases hother'
        exact ⟨fun h => h, rfl⟩
      | some other =>
        obtain ⟨name, body, span, origin⟩ := other
        cases hother with
        | some hbody =>
        cases hother' with
        | some hbody' =>
          obtain ⟨hblock, rfl⟩ := agree_armBody hbody hbody' fun _ _ _ hbody hbody' =>
            agree_blockOf hbody hbody' (agree_checkStatements hP body)
          exact ⟨fun h block hb => by cases hb; exact hblock (h _ rfl), rfl⟩
    refine ⟨fun he => ?_, hblock.2⟩
    obtain ⟨_, hs, hcases, hother⟩ := TypedExpr.everywhere_choice.1 he
    refine TypedExpr.everywhere_choice.2 ⟨hP _ (by simp), hs, fun c hc => ?_, hblock.1 hother⟩
    exact hagree (fun c hc => hcases c (mem_sortOrdered.2 hc)) c (mem_sortOrdered.1 hc)

theorem agree_checkStatements (hP : OnlyCalls P) : ∀ (ts : List Term) {expected : Option Ty}
    {frames inner inner' : Frames} {es es' : List TypedExpr},
    Runs (checkStatements Γ ts none) frames es inner →
    Runs (checkStatements Γ ts expected) frames es' inner' → AgreeAll P es es' inner inner'
  | [], _, _, _, _, _, _, h, h' => by
    obtain ⟨rfl, rfl⟩ := runs_checkStatements_nil.1 h
    obtain ⟨rfl, rfl⟩ := runs_checkStatements_nil.1 h'
    exact agreeAll_nil
  | t :: ts, _, _, _, _, _, _, h, h' => by
    obtain ⟨e, left, rest, he, hrest, rfl⟩ := runs_checkStatements_cons.1 h
    obtain ⟨e', left', rest', he', hrest', rfl⟩ := runs_checkStatements_cons.1 h'
    rw [ite_self] at he
    obtain ⟨hagree, rfl⟩ := agree_checkTerm hP t he he'
    exact (agree_checkStatements hP ts hrest hrest').cons hagree

theorem agree_checkItems (hP : OnlyCalls P) : ∀ (ts : List Term) {expected : Option Ty}
    {frames inner inner' : Frames} {es es' : List TypedExpr},
    Runs (checkItems Γ ts none) frames es inner →
    Runs (checkItems Γ ts expected) frames es' inner' → AgreeAll P es es' inner inner'
  | [], _, _, _, _, _, _, h, h' => by
    obtain ⟨rfl, rfl⟩ := runs_checkItems_nil.1 h
    obtain ⟨rfl, rfl⟩ := runs_checkItems_nil.1 h'
    exact agreeAll_nil
  | t :: ts, _, _, _, _, _, _, h, h' => by
    obtain ⟨e, left, rest, he, hrest, rfl⟩ := runs_checkItems_cons.1 h
    obtain ⟨e', left', rest', he', hrest', rfl⟩ := runs_checkItems_cons.1 h'
    obtain ⟨hagree, rfl⟩ := agree_checkTerm hP t he he'
    exact (agree_checkItems hP ts hrest hrest').cons hagree

theorem agree_checkElse (hP : OnlyCalls P) : ∀ (branches : List ElseIf) {hasElse : Bool}
    {expected : Option Ty} {span : Span} {elseBlock elseBlock' : Span → Check (List TypedExpr)}
    {frames inner inner' : Frames} {es es' : List TypedExpr},
    (∀ span decided es es' left left', Runs (elseBlock span) decided es left →
      Runs (elseBlock' span) decided es' left' → AgreeAll P es es' left left') →
    Runs (checkElse Γ branches hasElse none span elseBlock) frames es inner →
    Runs (checkElse Γ branches hasElse expected span elseBlock') frames es' inner' →
    AgreeAll P es es' inner inner'
  | [], _, _, _, _, _, _, _, _, _, _, helse, h, h' => by
    obtain ⟨left, hes, rfl⟩ := runs_checkElse_nil.1 h
    obtain ⟨left', hes', rfl⟩ := runs_checkElse_nil.1 h'
    obtain ⟨hagree, rfl⟩ := helse _ _ _ _ _ _ hes hes'
    exact ⟨hagree, rfl⟩
  | ⟨condition, thenBlock, span⟩ :: branches, _, _, _, _, _, _, _, _, _, _, helse, h, h' => by
    obtain ⟨e, he, rfl⟩ := runs_checkElse_cons.1 h
    obtain ⟨e', he', rfl⟩ := runs_checkElse_cons.1 h'
    obtain ⟨hagree, rfl⟩ := agree_conditionalOf hP he he'
      (fun _ _ _ _ _ hts hts' => agree_blockOf hts hts' (agree_checkStatements hP thenBlock))
      (fun _ _ _ _ _ hes hes' => agree_checkElse hP branches helse hes hes')
    exact agreeAll_nil.cons hagree

theorem agree_checkArms (hP : OnlyCalls P) : ∀ (arms : List Arm) {coverage final final' : Coverage}
    {expected : Option Ty} {frames inner inner' : Frames} {cases cases' : List TypedCase},
    Runs (checkArms Γ arms coverage none) frames (cases, final) inner →
    Runs (checkArms Γ arms coverage expected) frames (cases', final') inner' →
    ((∀ c ∈ cases', ∀ e ∈ c.block, e.Everywhere P) → ∀ c ∈ cases, ∀ e ∈ c.block, e.Everywhere P) ∧
      final' = final ∧ inner' = inner
  | [], _, _, _, _, _, _, _, _, _, h, h' => by
    obtain ⟨rfl, rfl, rfl⟩ := runs_checkArms_nil.1 h
    obtain ⟨rfl, rfl, rfl⟩ := runs_checkArms_nil.1 h'
    exact ⟨fun h => h, rfl, rfl⟩
  | ⟨name, type, body, span, origin⟩ :: arms, _, _, _, _, _, _, _, _, _, h, h' => by
    obtain ⟨t, test, consumed, block, left, rest, ht, _, hconsumed, hblock, hrest, rfl⟩ :=
      runs_checkArms_cons.1 h
    obtain ⟨t', test', consumed', block', left', rest', ht', _, hconsumed', hblock', hrest', rfl⟩ :=
      runs_checkArms_cons.1 h'
    obtain rfl : t = t' := Except.ok.inj (ht.symm.trans ht')
    obtain rfl : consumed = consumed' := Except.ok.inj (hconsumed.symm.trans hconsumed')
    obtain ⟨hfirst, rfl⟩ := agree_armBody hblock hblock' fun _ _ _ hbody hbody' =>
      agree_blockOf hbody hbody' (agree_checkStatements hP body)
    obtain ⟨hagree, rfl, rfl⟩ := agree_checkArms hP arms hrest hrest'
    refine ⟨fun h => ?_, rfl, rfl⟩
    rw [List.forall_mem_cons] at h ⊢
    exact ⟨hfirst h.1, hagree h.2⟩

end

end UnionChecker.Check
