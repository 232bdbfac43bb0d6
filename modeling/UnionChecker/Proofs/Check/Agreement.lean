import UnionChecker.Proofs.Check.Wanted
import UnionChecker.Proofs.Ty.Hereditary
import UnionChecker.Proofs.Ty.Order
import UnionChecker.Syntax.Construct
/-!
# Checking against what was inferred

A term that is accepted without a wanted type can be checked at its own type as well, with a tree of
this type (`checkTerm_at_own_type`). Most of a tree does not care for what is wanted, as long as its
type is assignable to it. Two kinds of nodes do. A lambda asks for exactly one function type, so it
cannot stand where two are wanted. And a conditional without an `else` yields nothing by itself, but
at a wanted type the value of its block has to be of this type.

What is wanted reaches a node through the ends of the blocks around it and through lists without a
written generic (`TypedExpr.Admits`).
-/

namespace UnionChecker

open Syntax Check

/-! ## What a tree asks of what is wanted -/

/-- The second signature has the parameters and the result of the first one, its generics being
called as there. -/
def Signature.Agrees (f F : Signature) : Prop :=
  F.generics.length = f.generics.length ∧
    List.Forall₂ (fun p q => p.2.equal
      (q.2.resolve (.ofLists F.generics (f.generics.map .var))) = true) f.params F.params ∧
    f.result.equal (F.result.resolve (.ofLists F.generics (f.generics.map .var))) = true

/-- A signature in normal form agrees with itself. -/
theorem Signature.agrees_self {f : Signature} (h : f.toTy.Normal) : f.Agrees f := by
  obtain ⟨-, hparams, hresult⟩ := Ty.hereditary_normal.fn.1 h
  refine ⟨rfl, List.forall₂_same.2 fun p hp => ?_, ?_⟩
  · rw [(hparams p hp).resolve_self]
    exact Ty.equal_refl _
  · rw [hresult.resolve_self]
    exact Ty.equal_refl _

/-- There is exactly one function type among what is wanted: that of the lambda itself, or one that
agrees with it. -/
def Signature.Admits (f : Signature) (wanted : Ty) : Prop :=
  ∃ F, functionMembers wanted = [F] ∧ (F = f ∨ f.Agrees F)

mutual

/-- A tree that may be wanted at a type, given that its own type is assignable to it. -/
def TypedExpr.Admits : TypedExpr → Ty → Prop
  | .function f, wanted => f.signature.Admits wanted
  | .conditional _ _ thenBlock elseBlock, wanted =>
    (elseBlock = [] → (blockType thenBlock).isAssignable wanted = true) ∧
      blockAdmits thenBlock wanted ∧ blockAdmits elseBlock wanted
  | .list _ items, wanted => ∀ element, wantedElements (some wanted) = [element] →
    itemsAdmit items element
  | .choice _ _ cases other _, wanted => casesAdmit cases wanted ∧ otherAdmits other wanted
  | _, _ => True

/-- What is wanted of a block is wanted of its last expression. -/
def blockAdmits : List TypedExpr → Ty → Prop
  | [], _ => True
  | [e], wanted => e.Admits wanted
  | _ :: e :: es, wanted => blockAdmits (e :: es) wanted

def itemsAdmit : List TypedExpr → Ty → Prop
  | [], _ => True
  | e :: es, element => e.Admits element ∧ itemsAdmit es element

def casesAdmit : List TypedCase → Ty → Prop
  | [], _ => True
  | c :: cases, wanted => c.Admits wanted ∧ casesAdmit cases wanted

def TypedCase.Admits : TypedCase → Ty → Prop
  | ⟨_, _, _, block⟩, wanted => blockAdmits block wanted

def otherAdmits : Option (List TypedExpr) → Ty → Prop
  | none, _ => True
  | some block, wanted => blockAdmits block wanted

end

/-! ## Lists among what is wanted -/

namespace Ty

/-- Unions are in normal form, and list types have one argument. -/
inductive Proper : Ty → Prop
  | var (x : String) : Proper (.var x)
  | named {decl : Nominal} {args : List Ty} (hlist : decl.ref = ⟨"", "List"⟩ → args.length = 1)
      (h : ∀ t ∈ args, Proper t) : Proper (.named decl args)
  | fn {gs : List String} {ps : List (String × Ty)} {r : Ty} (hp : ∀ p ∈ ps, Proper p.2)
      (hr : Proper r) : Proper (.fn gs ps r)
  | union {ms : List Ty} (h : ∀ m ∈ ms, Proper m) (hnormal : Normal (.union ms)) :
      Proper (.union ms)

theorem Proper.normal (t : Ty) (h : Proper t) : Normal t := by
  induction t with
  | var x => exact .var x
  | named decl args ih =>
    cases h with
    | named _ h => exact .named fun t ht => ih t ht (h t ht)
  | fn gs ps r ihp ihr =>
    cases h with
    | fn hp hr => exact .fn (fun p hp' => ihp p hp' (hp p hp')) (ihr hr)
  | union ms ih =>
    cases h with
    | union _ hnormal => exact hnormal

theorem Proper.of_mem_members {t m : Ty} (h : Proper t) (hm : m ∈ t.members) : Proper m := by
  cases h with
  | union h => exact h m hm
  | var x => rw [List.mem_singleton.1 hm]; exact .var x
  | named hlist h => rw [List.mem_singleton.1 hm]; exact .named hlist h
  | fn hp hr => rw [List.mem_singleton.1 hm]; exact .fn hp hr

/-- A list type that has one argument is the type of the lists of it. -/
theorem Proper.equal_list {t element : Ty} (h : Proper t) (he : t.listElement? = some element) :
    equal (list element) t = true ∧ Proper element := by
  cases h with
  | @named decl args hlist h =>
    rw [listElement?] at he
    split at he
    · rename_i href
      have href : decl.ref = ⟨"", "List"⟩ := by simpa using href
      obtain ⟨a, rfl⟩ := List.length_eq_one_iff.1 (hlist href)
      obtain rfl : a = element := by simpa using he
      exact ⟨equal_named.2 ⟨href.symm, .cons (equal_refl a) .nil⟩, h a (by simp)⟩
    · cases he
  | _ => cases he

end Ty

theorem mem_wantedElements {wanted element : Ty} :
    element ∈ wantedElements (some wanted) ↔
      ∃ m ∈ wanted.members, m.listElement? = some element := by
  simp [wantedElements]

/-- Lists of a wanted element type are wanted. -/
theorem isAssignable_of_mem_wantedElements {wanted element : Ty} (h : wanted.Proper)
    (he : element ∈ wantedElements (some wanted)) :
    (Ty.list element).isAssignable wanted = true ∧ element.Proper := by
  obtain ⟨m, hm, he⟩ := mem_wantedElements.1 he
  obtain ⟨heq, hproper⟩ := (h.of_mem_members hm).equal_list he
  refine ⟨(Ty.isAssignable_iff _ _).2 fun x hx => ?_, hproper⟩
  rw [List.mem_singleton.1 hx, (h.normal _).flatten_eq]
  exact ⟨m, hm, heq⟩

/-- Where lists of a type are wanted, the type is equal to one of the wanted element types. -/
theorem exists_equal_wantedElements {wanted element : Ty} (h : wanted.Proper)
    (hlist : (Ty.list element).isAssignable wanted = true) :
    ∃ other ∈ wantedElements (some wanted), element.equal other = true := by
  obtain ⟨m, hm, heq⟩ := (Ty.isAssignable_iff _ _).1 hlist _ (List.mem_singleton.2 rfl)
  obtain ⟨-, hunion⟩ := (h.normal _).of_mem_flatten _ hm
  rw [(h.normal _).flatten_eq] at hm
  cases m with
  | named decl args =>
    obtain ⟨href, hargs⟩ := Ty.equal_named.1 heq
    obtain ⟨other, _, hother, hnil, rfl⟩ := List.forall₂_cons_left_iff.1 hargs
    refine ⟨other, mem_wantedElements.2 ⟨_, hm, ?_⟩, hother⟩
    simp [Ty.listElement?, ← href]
  | union ms => cases hunion
  | var x => simp [Ty.list, Ty.equal_eq_compareWith, Ty.compareWith] at heq
  | fn gs ps r => simp [Ty.list, Ty.equal_eq_compareWith, Ty.compareWith] at heq

/-! ## Lambdas -/

namespace Check

variable {Γ : Context} {frames inner : Frames} {span : Span}

theorem paramType_wanted {param : Parameter} {index : Nat} {t wanted : Ty}
    (h : Runs (paramType Γ index param none) frames t inner) (heq : t.equal wanted = true) :
    Runs (paramType Γ index param (some wanted)) frames t inner := by
  obtain ⟨written, hwritten, ht, -⟩ := runs_paramType.1 h
  obtain rfl : written = some t := Option.or_none.symm.trans ht
  exact runs_paramType.2 ⟨some t, hwritten, rfl, by simpa using heq⟩

/-- Written parameters keep their types under a shape with equal ones. -/
theorem paramTypes_wanted : ∀ {params : List Parameter} {index : Nat} {wanted : List Ty}
    {types : List (String × Ty)}, Runs (paramTypes Γ index params []) frames types frames →
    List.Forall₂ (fun p t => p.2.equal t = true) types wanted →
    Runs (paramTypes Γ index params wanted) frames types frames
  | [], _, _, _, h, _ => h
  | param :: params, index, wanted, _, h, heq => by
    obtain ⟨type, types, htype, htypes, rfl⟩ := runs_paramTypes_cons.1 h
    obtain ⟨first, rest, hfirst, hrest, rfl⟩ := List.forall₂_cons_left_iff.1 heq
    exact runs_paramTypes_cons.2
      ⟨type, types, paramType_wanted htype hfirst, paramTypes_wanted htypes hrest, rfl⟩

theorem length_paramTypes : ∀ {params : List Parameter} {index : Nat} {wanted : List Ty}
    {types : List (String × Ty)} {frames inner : Frames},
    Runs (paramTypes Γ index params wanted) frames types inner → types.length = params.length
  | [], _, _, _, _, _, h => by rw [(runs_pure.1 h).1, List.length_nil, List.length_nil]
  | param :: params, index, wanted, _, _, _, h => by
    obtain ⟨type, types, -, htypes, rfl⟩ := runs_paramTypes_cons.1 h
    rw [List.length_cons, List.length_cons, length_paramTypes htypes]

/-- A lambda without a shape has its result written. It may be wanted where the result is equal. -/
theorem resultType_wanted {result : Option TypeExpr} {t : Option Ty} {params : List Ty}
    {wanted : Ty} (h : Runs (resultType Γ result none span) frames t inner) :
    ∃ written, t = some written ∧ (written.equal wanted = true →
      Runs (resultType Γ result (some ⟨params, some wanted⟩) span) frames t inner) := by
  obtain ⟨written, hwritten, hsome, rfl, -⟩ := runs_resultType.1 h
  cases written with
  | none => exact (hsome rfl rfl).elim
  | some written =>
    refine ⟨written, rfl, fun heq => runs_resultType.2 ⟨some written, hwritten, by simp, rfl, ?_⟩⟩
    simpa using heq

theorem normal_of_mem_functionMembers {t : Ty} {F : Signature} (h : t.Normal)
    (hF : F ∈ functionMembers t) : F.toTy.Normal := by
  obtain ⟨m, hm, hF⟩ := List.mem_filterMap.1 hF
  cases m with
  | fn gs ps r =>
    obtain rfl := Option.some.inj hF
    exact Ty.hereditary_normal.members h hm
  | _ => cases hF

/-- A lambda that is accepted without a shape is accepted where one function type is wanted that
agrees with its own. -/
theorem checkExpr_lambda_wanted {lambda : Lambda} {f : TypedFunction} {wanted : Ty} {F : Signature}
    (h : Runs (checkLambda Γ lambda none) frames f inner) (hF : functionMembers wanted = [F])
    (hagrees : f.signature.Agrees F) :
    Runs (checkExpr Γ (.lambda lambda) (some wanted)) frames (.function f) inner := by
  obtain ⟨generics, params, result, body, span⟩ := lambda
  obtain ⟨types, written, entered, block, left, hbody, hentered, hblock, rfl, rfl⟩ :=
    runs_checkLambda.1 h
  obtain ⟨named, hgenerics, _, htypes, hresult, hdefine⟩ := runs_enterLambda.1 hentered
  obtain ⟨hlength, hparams, hresult'⟩ := hagrees
  have hvars : (generics.map (·.text)).map Ty.var = generics.map (.var ·.text) := List.map_map
  simp only [hvars] at hlength hparams hresult'
  refine runs_checkExpr_lambda.2 ⟨_, _, Or.inr ⟨wanted, _, rfl, rfl,
    runs_expectedShape.2 ⟨F, hF, by simpa using hlength, rfl, rfl⟩⟩, ?_, rfl⟩
  refine runs_checkLambda.2 ⟨types, written, entered, block, left, hbody, ?_, hblock, rfl, rfl⟩
  obtain ⟨_, rfl, hwanted⟩ := resultType_wanted hresult
  refine runs_enterLambda.2 ⟨named, hgenerics, ?_, paramTypes_wanted htypes ?_, hwanted hresult',
    hdefine⟩
  · intro shape hshape
    cases hshape
    rw [List.length_map, ← hparams.length_eq, length_paramTypes htypes]
  · exact List.forall₂_map_right_iff.2 hparams

/-! ## Blocks, conditionals and lists -/

theorem itemsAdmit_iff {element : Ty} : ∀ {items : List TypedExpr},
    itemsAdmit items element ↔ ∀ e ∈ items, e.Admits element
  | [] => by simp [itemsAdmit]
  | e :: es => by rw [itemsAdmit, itemsAdmit_iff, List.forall_mem_cons]

theorem casesAdmit_iff {wanted : Ty} : ∀ {cases : List TypedCase},
    casesAdmit cases wanted ↔ ∀ c ∈ cases, blockAdmits c.block wanted
  | [] => by simp [casesAdmit]
  | ⟨_, _, _, _⟩ :: cases => by
    rw [casesAdmit, casesAdmit_iff, List.forall_mem_cons, TypedCase.Admits]

/-- The second check succeeds where the first one does with a block that may be wanted, and leaves
the same frames. -/
def Follows (wanted : Ty) (c c' : Check (List TypedExpr)) : Prop :=
  ∀ frames es inner, Runs c frames es inner → (blockType es).isAssignable wanted = true →
    blockAdmits es wanted → ∃ es', Runs c' frames es' inner

variable {wanted : Ty}

theorem Follows.blockOf {block : List Term} {statements statements' : Check (List TypedExpr)}
    (h : block ≠ [] → Follows wanted statements statements') :
    Follows wanted (blockOf Γ block none span statements)
      (blockOf Γ block (some wanted) span statements') := by
  intro frames es inner hrun hty hadmits
  rcases runs_blockOf.1 hrun with ⟨hnil, _, rfl, rfl⟩ | ⟨hne, hrun⟩
  · exact ⟨[], runs_blockOf.2 (Or.inl ⟨hnil, fits_some.2 hty, rfl, rfl⟩)⟩
  · obtain ⟨es', hes'⟩ := h hne _ _ _ hrun hty hadmits
    exact ⟨es', runs_blockOf.2 (Or.inr ⟨hne, hes'⟩)⟩

theorem Follows.armBody {name : Option Name} {type : Ty} {origin : Origin}
    {body body' : Check (List TypedExpr)} (h : Follows wanted body body') :
    Follows wanted (armBody Γ name type origin body) (armBody Γ name type origin body') := by
  intro frames block inner hrun hty hadmits
  obtain ⟨bound, left, hbound, hbody, rfl⟩ := runs_armBody.1 hrun
  obtain ⟨block', hbody'⟩ := h _ _ _ hbody hty hadmits
  exact ⟨block', runs_armBody.2 ⟨bound, left, hbound, hbody', rfl⟩⟩

/-- A conditional takes over the type that is wanted. Without an `else` its own type says nothing of
its block. -/
theorem conditionalOf_wanted {hasElse : Bool} {condition : Check TypedExpr}
    {thenBlock thenBlock' elseBlock elseBlock' : Check (List TypedExpr)} {e : TypedExpr}
    (hthen : Follows wanted thenBlock thenBlock') (helse : Follows wanted elseBlock elseBlock')
    (hnil : hasElse = false → ∀ frames es inner, Runs elseBlock frames es inner → es = [])
    (hrun : Runs (conditionalOf Γ hasElse none span condition thenBlock elseBlock) frames e inner)
    (hty : e.ty.isAssignable wanted = true) (hadmits : e.Admits wanted) :
    ∃ e', Runs (conditionalOf Γ hasElse (some wanted) span condition thenBlock' elseBlock') frames
      e' inner ∧ e'.ty = wanted := by
  obtain ⟨c, ts, es, decided, left, hc, _, hts, hes, rfl⟩ := runs_conditionalOf.1 hrun
  obtain ⟨hvalue, hadmitsThen, hadmitsElse⟩ := hadmits
  have htypes : (blockType ts).isAssignable wanted = true ∧
      (blockType es).isAssignable wanted = true ∧
      (hasElse = false → Ty.void.isAssignable wanted = true) := by
    cases hasElse with
    | true =>
      have h := (Ty.isAssignable_join_iff [blockType ts, blockType es] wanted).1 hty
      exact ⟨h _ (by simp), h _ (by simp), by simp⟩
    | false =>
      obtain rfl := hnil rfl _ _ _ hes
      exact ⟨hvalue rfl, hty, fun _ => hty⟩
  obtain ⟨hthenTy, helseTy, hvoid⟩ := htypes
  obtain ⟨ts', hts'⟩ := hthen _ _ _ hts hthenTy hadmitsThen
  obtain ⟨es', hes'⟩ := helse _ _ _ hes helseTy hadmitsElse
  exact ⟨_, runs_conditionalOf.2 ⟨c, ts', es', decided, left, hc,
    fun h => fits_some.2 (hvoid h), hts', hes', rfl⟩, rfl⟩

/-- There is nothing after a conditional without an `else`. -/
theorem checkElse_eq_nil {branches : List ElseIf} {hasElse : Bool}
    {elseBlock : Span → Check (List TypedExpr)}
    (hnil : hasElse = false → ∀ span frames es inner, Runs (elseBlock span) frames es inner →
      es = [])
    (h : (!branches.isEmpty || hasElse) = false) {frames inner : Frames} {es : List TypedExpr}
    (hrun : Runs (checkElse Γ branches hasElse none span elseBlock) frames es inner) : es = [] := by
  simp only [Bool.or_eq_false_iff, Bool.not_eq_false', List.isEmpty_iff] at h
  obtain ⟨rfl, rfl⟩ := h
  obtain ⟨left, hes, _⟩ := runs_checkElse_nil.1 hrun
  exact hnil rfl _ _ _ _ hes

theorem blockOf_eq_nil {block : List Term} {expected : Option Ty}
    {statements : Check (List TypedExpr)} (h : (!block.isEmpty) = false) {es : List TypedExpr}
    (hrun : Runs (blockOf Γ block expected span statements) frames es inner) : es = [] := by
  rcases runs_blockOf.1 hrun with ⟨_, _, hes, _⟩ | ⟨hne, _⟩
  · exact hes
  · simp [hne] at h

/-- A list takes over the element type if one list type is wanted. Otherwise its items are checked
as they were, and it takes the first wanted element type that contains them, if any does. -/
theorem checkExpr_list_wanted {items : List Term} {e : TypedExpr}
    (hitems : ∀ {element es}, element.Proper → Runs (checkItems Γ items none) frames es inner →
      (∀ e ∈ es, e.ty.isAssignable element = true) → (∀ e ∈ es, e.Admits element) →
      ∃ es', Runs (checkItems Γ items (some element)) frames es' inner)
    (hrun : Runs (checkExpr Γ (.list [] items span) none) frames e inner) (hwanted : wanted.Proper)
    (hty : e.ty.isAssignable wanted = true) (hadmits : e.Admits wanted) :
    ∃ e', Runs (checkExpr Γ (.list [] items span) (some wanted)) frames e' inner ∧
      e'.ty.isAssignable wanted = true := by
  rcases runs_checkExpr_list.1 hrun with ⟨_, _, hnone, _⟩ | ⟨es, _, hne, hes, rfl⟩
  · cases hnone
  by_cases hone : ∃ element, wantedElements (some wanted) = [element]
  · obtain ⟨element, hone⟩ := hone
    obtain ⟨hlist, helement⟩ :=
      isAssignable_of_mem_wantedElements hwanted (hone ▸ List.mem_singleton.2 rfl)
    obtain ⟨other, hother, heq⟩ := exists_equal_wantedElements hwanted hty
    obtain rfl : other = element := by simpa [hone] using hother
    have hitemTy : ∀ e ∈ es, e.ty.isAssignable other = true := fun e he =>
      Ty.isAssignable_trans (Ty.isAssignable_join_of_mem (List.mem_map_of_mem he))
        (Ty.isAssignable_of_equal heq)
    obtain ⟨es', hes'⟩ := hitems helement hes hitemTy (itemsAdmit_iff.1 (hadmits other hone))
    exact ⟨_, runs_checkExpr_list.2 (Or.inl ⟨other, es', hone, hes', rfl⟩), hlist⟩
  · rw [not_exists] at hone
    refine ⟨_, runs_checkExpr_list.2 (Or.inr ⟨es, hone, hne, hes, rfl⟩), ?_⟩
    cases hfind : (wantedElements (some wanted)).find?
        (Ty.join (es.map TypedExpr.ty)).containedIn with
    | none => exact hty
    | some element =>
      exact (isAssignable_of_mem_wantedElements hwanted (List.mem_of_find?_eq_some hfind)).1

/-! ## Along the checker -/

mutual

theorem checkTerm_wanted : ∀ (t : Term) {wanted : Ty} {frames inner : Frames} {e : TypedExpr},
    Runs (checkTerm Γ t none) frames e inner → wanted.Proper → e.ty.isAssignable wanted = true →
    e.Admits wanted → ∃ e', Runs (checkTerm Γ t (some wanted)) frames e' inner
  | ⟨head, [], span⟩, _, _, _, _, h, hwanted, hty, hadmits => by
    obtain ⟨e', he', hty'⟩ := checkExpr_wanted head (runs_checkTerm_head.1 h).1 hwanted hty hadmits
    exact ⟨e', runs_checkTerm_head.2 ⟨he', fits_some.2 hty'⟩⟩
  | ⟨head, link :: links, span⟩, _, _, _, e, h, _, hty, _ => by
    obtain ⟨first, left, hfirst, hlinks, _⟩ := runs_checkTerm_chain.1 h
    exact ⟨e, runs_checkTerm_chain.2 ⟨first, left, hfirst,
      refines_checkLinks_wanted _ _ _ _ _ hlinks, fits_some.2 hty⟩⟩

theorem checkExpr_wanted : ∀ (head : Expr) {wanted : Ty} {frames inner : Frames} {e : TypedExpr},
    Runs (checkExpr Γ head none) frames e inner → wanted.Proper → e.ty.isAssignable wanted = true →
    e.Admits wanted →
    ∃ e', Runs (checkExpr Γ head (some wanted)) frames e' inner ∧ e'.ty.isAssignable wanted = true
  | .literal value span, _, _, _, e, h, _, hty, _ =>
    ⟨e, runs_checkExpr_literal.2 (runs_checkExpr_literal.1 h), hty⟩
  | .reference name none span, _, _, _, e, h, _, hty, _ =>
    ⟨e, runs_checkExpr_reference.2 (runs_checkExpr_reference.1 h), hty⟩
  | .reference name (some args) span, _, _, _, e, h, _, hty, _ => by
    obtain ⟨subject, hsubject, hcall⟩ := runs_checkExpr_call.1 h
    exact ⟨e, runs_checkExpr_call.2 ⟨subject, hsubject, refines_checkCall_wanted _ _ _ hcall⟩, hty⟩
  | .lambda lambda, _, _, _, _, h, hwanted, hty, hadmits => by
    obtain ⟨shape, f, ⟨-, rfl⟩ | ⟨_, _, hnone, _⟩, hf, rfl⟩ := runs_checkExpr_lambda.1 h
    · obtain ⟨F, hF, hagrees⟩ := hadmits
      refine ⟨.function f, checkExpr_lambda_wanted hf hF ?_, hty⟩
      rcases hagrees with rfl | hagrees
      · refine Signature.agrees_self (normal_of_mem_functionMembers (hwanted.normal _) ?_)
        rw [hF]
        exact List.mem_singleton.2 rfl
      · exact hagrees
    · cases hnone
  | .declaration ⟨name, some type, _, value, _⟩, _, _, _, e, h, _, hty, _ =>
    ⟨e, runs_checkExpr_annotated.2 (runs_checkExpr_annotated.1 h), hty⟩
  | .declaration ⟨name, none, _, value, _⟩, _, _, _, e, h, _, hty, _ =>
    ⟨e, runs_checkExpr_declaration.2 (runs_checkExpr_declaration.1 h), hty⟩
  | .conditional ⟨condition, thenBlock, elseIfs, elseBlock, span⟩, wanted, _, _, _, h, hwanted, hty,
      hadmits => by
    have helse : ∀ span, Follows wanted
        (blockOf Γ elseBlock none span (checkStatements Γ elseBlock none))
        (blockOf Γ elseBlock (some wanted) span (checkStatements Γ elseBlock (some wanted))) :=
      fun span => .blockOf fun hne => follows_checkStatements elseBlock hwanted hne
    have hnil : (!elseBlock.isEmpty) = false → ∀ span frames es inner,
        Runs (blockOf Γ elseBlock none span (checkStatements Γ elseBlock none)) frames es inner →
        es = [] := fun h _ _ _ _ => blockOf_eq_nil h
    obtain ⟨e', he', hty'⟩ := conditionalOf_wanted
      (.blockOf fun hne => follows_checkStatements thenBlock hwanted hne)
      (follows_checkElse elseIfs hwanted hnil helse) (fun h _ _ _ => checkElse_eq_nil hnil h)
      (runs_checkExpr_conditional.1 h) hty hadmits
    refine ⟨e', runs_checkExpr_conditional.2 he', ?_⟩
    rw [hty']
    exact Ty.isAssignable_refl wanted
  | .list [] items span, _, _, _, _, h, hwanted, hty, hadmits =>
    checkExpr_list_wanted (fun helement hes => checkItems_wanted items hes helement) h hwanted hty
      hadmits
  | .list [type] items span, _, _, _, e, h, _, hty, _ =>
    ⟨e, runs_checkExpr_list_of.2 (runs_checkExpr_list_of.1 h), hty⟩
  | .list (_ :: _ :: _) items span, _, _, _, _, h, _, _, _ => (not_runs_checkExpr_list_many h).elim
  | .when ⟨subject, arms, other, span⟩, wanted, _, inner, _, h, hwanted, hty, hadmits => by
    obtain ⟨s, cases, otherBlock, coverage, final, left, middle, hs, harms, hother, hfinal, rfl⟩ :=
      runs_checkExpr_when.1 h
    obtain ⟨hcases, hadmitsOther⟩ := hadmits
    -- the inferred type is the union of what the arms yield, in whatever order they are listed
    have htypes := (Ty.isAssignable_join_iff _ wanted).1 hty
    have hcaseTypes : ∀ c ∈ cases, (blockType c.block).isAssignable wanted = true := fun c hc =>
      htypes _ (List.mem_append_left _ (List.mem_map.2 ⟨c, mem_sortOrdered.2 hc, rfl⟩))
    obtain ⟨cases', harms'⟩ := checkArms_wanted arms harms hwanted hcaseTypes
      fun c hc => casesAdmit_iff.1 hcases c (mem_sortOrdered.2 hc)
    have hother' : ∃ otherBlock', OtherRun Γ (some wanted) coverage middle other otherBlock' final
        inner := by
      cases hother with
      | none => exact ⟨none, .none⟩
      | @some name body span origin block _ hblock =>
        obtain ⟨block', hblock'⟩ := Follows.armBody
          (.blockOf fun hne => follows_checkStatements body hwanted hne) _ _ _ hblock
          (htypes _ (by simp)) hadmitsOther
        exact ⟨some block', .some hblock'⟩
    obtain ⟨otherBlock', hother'⟩ := hother'
    exact ⟨_, runs_checkExpr_when.2 ⟨s, cases', otherBlock', coverage, final, left, middle, hs,
      harms', hother', hfinal, rfl⟩, Ty.isAssignable_refl wanted⟩

theorem follows_checkStatements : ∀ (ts : List Term) {wanted : Ty}, wanted.Proper → ts ≠ [] →
    Follows wanted (checkStatements Γ ts none) (checkStatements Γ ts (some wanted))
  | [], _, _, hne => (hne rfl).elim
  | [t], _, hwanted, _ => by
    intro frames es inner h hty hadmits
    obtain ⟨e, left, rest, he, hrest, rfl⟩ := runs_checkStatements_cons.1 h
    obtain ⟨rfl, rfl⟩ := runs_checkStatements_nil.1 hrest
    obtain ⟨e', he'⟩ := checkTerm_wanted t he hwanted hty hadmits
    exact ⟨_, runs_checkStatements_cons.2 ⟨e', inner, [], he',
      runs_checkStatements_nil.2 ⟨rfl, rfl⟩, rfl⟩⟩
  | t :: u :: ts, _, hwanted, _ => by
    intro frames es inner h hty hadmits
    obtain ⟨e, left, rest, he, hrest, rfl⟩ := runs_checkStatements_cons.1 h
    obtain ⟨_, _, _, _, _, rfl⟩ := runs_checkStatements_cons.1 hrest
    obtain ⟨rest', hrest'⟩ :=
      follows_checkStatements (u :: ts) hwanted (by simp) _ _ _ hrest hty hadmits
    exact ⟨_, runs_checkStatements_cons.2 ⟨e, left, rest', he, hrest', rfl⟩⟩

theorem checkItems_wanted : ∀ (ts : List Term) {element : Ty} {frames inner : Frames}
    {es : List TypedExpr}, Runs (checkItems Γ ts none) frames es inner → element.Proper →
    (∀ e ∈ es, e.ty.isAssignable element = true) → (∀ e ∈ es, e.Admits element) →
    ∃ es', Runs (checkItems Γ ts (some element)) frames es' inner
  | [], _, _, _, _, h, _, _, _ => ⟨[], runs_checkItems_nil.2 ⟨rfl, (runs_checkItems_nil.1 h).2⟩⟩
  | t :: ts, _, _, _, _, h, helement, hty, hadmits => by
    obtain ⟨e, left, rest, he, hrest, rfl⟩ := runs_checkItems_cons.1 h
    rw [List.forall_mem_cons] at hty hadmits
    obtain ⟨e', he'⟩ := checkTerm_wanted t he helement hty.1 hadmits.1
    obtain ⟨rest', hrest'⟩ := checkItems_wanted ts hrest helement hty.2 hadmits.2
    exact ⟨_, runs_checkItems_cons.2 ⟨e', left, rest', he', hrest', rfl⟩⟩

theorem follows_checkElse : ∀ (branches : List ElseIf) {wanted : Ty} {hasElse : Bool} {span : Span}
    {elseBlock elseBlock' : Span → Check (List TypedExpr)}, wanted.Proper →
    (hasElse = false → ∀ span frames es inner, Runs (elseBlock span) frames es inner → es = []) →
    (∀ span, Follows wanted (elseBlock span) (elseBlock' span)) →
    Follows wanted (checkElse Γ branches hasElse none span elseBlock)
      (checkElse Γ branches hasElse (some wanted) span elseBlock')
  | [], _, _, _, _, _, _, _, helse => by
    intro frames es inner h hty hadmits
    obtain ⟨left, hes, rfl⟩ := runs_checkElse_nil.1 h
    obtain ⟨es', hes'⟩ := helse _ _ _ _ hes hty hadmits
    exact ⟨es', runs_checkElse_nil.2 ⟨left, hes', rfl⟩⟩
  | ⟨condition, thenBlock, span⟩ :: branches, _, _, _, _, _, hwanted, hnil, helse => by
    intro frames es inner h hty hadmits
    obtain ⟨e, he, rfl⟩ := runs_checkElse_cons.1 h
    obtain ⟨e', he', _⟩ := conditionalOf_wanted
      (.blockOf fun hne => follows_checkStatements thenBlock hwanted hne)
      (follows_checkElse branches hwanted hnil helse) (fun h _ _ _ => checkElse_eq_nil hnil h)
      he hty hadmits
    exact ⟨_, runs_checkElse_cons.2 ⟨e', he', rfl⟩⟩

theorem checkArms_wanted : ∀ (arms : List Arm) {wanted : Ty} {coverage final : Coverage}
    {frames inner : Frames} {cases : List TypedCase},
    Runs (checkArms Γ arms coverage none) frames (cases, final) inner → wanted.Proper →
    (∀ c ∈ cases, (blockType c.block).isAssignable wanted = true) →
    (∀ c ∈ cases, blockAdmits c.block wanted) →
    ∃ cases', Runs (checkArms Γ arms coverage (some wanted)) frames (cases', final) inner
  | [], _, _, _, _, _, _, h, _, _, _ =>
    ⟨[], runs_checkArms_nil.2 ⟨rfl, (runs_checkArms_nil.1 h).2⟩⟩
  | ⟨name, type, body, span, origin⟩ :: arms, _, _, _, _, _, _, h, hwanted, hty, hadmits => by
    obtain ⟨t, test, consumed, block, left, rest, ht, htest, hconsumed, hblock, hrest, rfl⟩ :=
      runs_checkArms_cons.1 h
    rw [List.forall_mem_cons] at hty hadmits
    obtain ⟨block', hblock'⟩ := Follows.armBody
      (.blockOf fun hne => follows_checkStatements body hwanted hne) _ _ _ hblock hty.1 hadmits.1
    obtain ⟨rest', hrest'⟩ := checkArms_wanted arms hrest hwanted hty.2 hadmits.2
    exact ⟨_, runs_checkArms_cons.2 ⟨t, test, consumed, block', left, rest', ht, htest, hconsumed,
      hblock', hrest', rfl⟩⟩

end

/-! ## At the own type -/

/-- A check at the type that was inferred finds no other type. -/
theorem checkExpr_own_ty {head : Expr} {e e' : TypedExpr} {inner' : Frames}
    (h : Runs (checkExpr Γ head none) frames e inner)
    (h' : Runs (checkExpr Γ head (some e.ty)) frames e' inner') : e'.ty = e.ty := by
  match head with
  | .literal value span => rw [(runs_checkExpr_literal.1 h).1, (runs_checkExpr_literal.1 h').1]
  | .reference name none span =>
    rw [((runs_checkExpr_reference.1 h).unique (runs_checkExpr_reference.1 h')).1]
  | .reference name (some args) span =>
    obtain ⟨subject, hsubject, hcall⟩ := runs_checkExpr_call.1 h
    obtain ⟨subject', hsubject', hcall'⟩ := runs_checkExpr_call.1 h'
    obtain ⟨rfl, -⟩ := hsubject.unique hsubject'
    rw [((refines_checkCall_wanted _ _ _ hcall).unique hcall').1]
  | .lambda lambda =>
    obtain ⟨shape, f, ⟨-, rfl⟩ | ⟨_, _, hnone, _⟩, hf, rfl⟩ := runs_checkExpr_lambda.1 h
    · obtain ⟨shape', f', _, hf', rfl⟩ := runs_checkExpr_lambda.1 h'
      rw [(checkLambda_unique hf hf').1]
    · cases hnone
  | .declaration ⟨name, some type, _, value, _⟩ =>
    obtain ⟨_, _, _, _, _, _, _, rfl⟩ := runs_checkExpr_annotated.1 h
    obtain ⟨_, _, _, _, _, _, _, rfl⟩ := runs_checkExpr_annotated.1 h'
    rfl
  | .declaration ⟨name, none, _, value, _⟩ =>
    obtain ⟨_, _, _, _, _, rfl⟩ := runs_checkExpr_declaration.1 h
    obtain ⟨_, _, _, _, _, rfl⟩ := runs_checkExpr_declaration.1 h'
    rfl
  | .conditional ⟨condition, thenBlock, elseIfs, elseBlock, span⟩ =>
    obtain ⟨_, _, _, _, _, _, _, _, _, rfl⟩ :=
      runs_conditionalOf.1 (runs_checkExpr_conditional.1 h')
    rfl
  | .list [] items span =>
    obtain ⟨_, _, hnone, _⟩ | ⟨es, _, _, _, rfl⟩ := runs_checkExpr_list.1 h
    · cases hnone
    · obtain ⟨element, es', hone, _, rfl⟩ | ⟨es', hmany, _⟩ := runs_checkExpr_list.1 h'
      · cases hone
        rfl
      · exact (hmany _ rfl).elim
  | .list [type] items span =>
    rw [(h.unique (runs_checkExpr_list_of.2 (runs_checkExpr_list_of.1 h'))).1]
  | .list (_ :: _ :: _) items span => exact (not_runs_checkExpr_list_many h).elim
  | .when ⟨subject, arms, other, span⟩ =>
    obtain ⟨_, _, _, _, _, _, _, _, _, _, _, rfl⟩ := runs_checkExpr_when.1 h'
    rfl

theorem checkTerm_own_ty {t : Term} {e e' : TypedExpr} {inner' : Frames}
    (h : Runs (checkTerm Γ t none) frames e inner)
    (h' : Runs (checkTerm Γ t (some e.ty)) frames e' inner') : e'.ty = e.ty := by
  match t with
  | ⟨head, [], span⟩ =>
    exact checkExpr_own_ty (runs_checkTerm_head.1 h).1 (runs_checkTerm_head.1 h').1
  | ⟨head, link :: links, span⟩ =>
    obtain ⟨first, left, hfirst, hlinks, _⟩ := runs_checkTerm_chain.1 h
    obtain ⟨first', left', hfirst', hlinks', _⟩ := runs_checkTerm_chain.1 h'
    obtain ⟨rfl, rfl⟩ := hfirst.unique hfirst'
    rw [((refines_checkLinks_wanted _ _ _ _ _ hlinks).unique hlinks').1]

/-- **Inference and checking agree.** What a term has without a wanted type, it has as well where
this type is wanted, if the lambdas and the conditionals without an `else` allow it. -/
theorem checkTerm_at_own_type {t : Term} {e : TypedExpr}
    (h : Runs (checkTerm Γ t none) frames e inner) (hproper : e.ty.Proper)
    (hadmits : e.Admits e.ty) :
    ∃ e', Runs (checkTerm Γ t (some e.ty)) frames e' inner ∧ e'.ty = e.ty := by
  obtain ⟨e', he'⟩ := checkTerm_wanted t h hproper (Ty.isAssignable_refl _) hadmits
  exact ⟨e', he', checkTerm_own_ty h he'⟩

end Check

/-! ## Lists of lambdas -/

open Check

/-- `(param: type): Int => value`. -/
def toInt (param type : String) (value : Term) : Term :=
  .lambda [] [(param, some (.named type []))] (some (.named "Int" [])) [value]

/-- `if true { [(x: Int): Int => x] } else { [(y: Int): Int => 1] }`. -/
def steps : Term :=
  .conditional (.literal (.bool true)) [.list none [toInt "x" "Int" (.var "x")]] []
    [.list none [toInt "y" "Int" (.literal (.int 1))]]

/-- `[(x: Int): Int => x, (y: String): Int => 1]`. -/
def mixed : Term :=
  .list none [toInt "x" "Int" (.var "x"), toInt "y" "String" (.literal (.int 1))]

/-- The type of a function to `Int`. -/
def fromTy (param : String) (type : Ty) : Signature := ⟨[], [(param, type)], .int⟩

def stepsTree : TypedExpr :=
  .conditional (.list (fromTy "x" .int).toTy) (.literal (.bool true) .boolean)
    [.list (fromTy "x" .int).toTy
      [.function ⟨fromTy "x" .int, ["x"], [.reference .int none "x"]⟩]]
    [.list (fromTy "y" .int).toTy
      [.function ⟨fromTy "y" .int, ["y"], [.literal (.int 1) .int]⟩]]

theorem proper_list_fromTy : (Ty.list (fromTy "x" .int).toTy).Proper := by
  have hint : Ty.int.Proper := .named (by decide) (by simp)
  refine .named (fun _ => rfl) ?_
  simp only [List.mem_singleton, forall_eq]
  exact .fn (by simpa [fromTy] using hint) hint

theorem admits_stepsTree : stepsTree.Admits stepsTree.ty := by
  refine ⟨by simp, fun element helement => ?_, fun element helement => ?_⟩
  · cases helement
    exact ⟨⟨_, rfl, Or.inl rfl⟩, trivial⟩
  · cases helement
    exact ⟨⟨_, rfl, Or.inr ⟨rfl, .cons (by decide) .nil, by decide⟩⟩, trivial⟩

theorem checkTerm_at_own_type_steps :
    Runs (checkTerm ⟨.empty "main", "main", []⟩ steps none) .initial stepsTree .initial ∧
      stepsTree.ty.Proper ∧ stepsTree.Admits stepsTree.ty ∧
      ∃ e', Runs (checkTerm ⟨.empty "main", "main", []⟩ steps (some stepsTree.ty)) .initial e'
        .initial ∧ e'.ty = stepsTree.ty := by
  have h : Runs (checkTerm ⟨.empty "main", "main", []⟩ steps none) .initial stepsTree .initial := by
    with_unfolding_all rfl
  exact ⟨h, proper_list_fromTy, admits_stepsTree,
    checkTerm_at_own_type h proper_list_fromTy admits_stepsTree⟩

/-- A list of two lambdas of different types is accepted, but not where its own type is wanted. -/
theorem checkTerm_mixed_not_at_own_type :
    ∃ e, Runs (checkTerm ⟨.empty "main", "main", []⟩ mixed none) .initial e .initial ∧
      e.ty = .list (.union [(fromTy "x" .int).toTy, (fromTy "y" .string).toTy]) ∧
      ∀ e' frames', ¬ Runs (checkTerm ⟨.empty "main", "main", []⟩ mixed (some e.ty)) .initial e'
        frames' := by
  refine ⟨_, by with_unfolding_all rfl, by with_unfolding_all rfl, fun e' frames' h => ?_⟩
  have hfails : ∃ failure, checkTerm ⟨.empty "main", "main", []⟩ mixed
      (some (.list (.union [(fromTy "x" .int).toTy, (fromTy "y" .string).toTy]))) .initial =
        (Except.error failure, .initial) := ⟨_, by with_unfolding_all rfl⟩
  obtain ⟨failure, hfails⟩ := hfails
  cases hfails.symm.trans h

end UnionChecker
