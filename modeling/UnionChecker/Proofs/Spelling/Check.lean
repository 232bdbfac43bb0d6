import UnionChecker.Proofs.Check.Simulated
import UnionChecker.Proofs.Spelling.Scope
/-!
# The checker does not see how generics are spelled

A respelling says which types, written types and generics of two checks correspond
(`Respelling.likeness`), and a term is like its respelled copy (`like_respell`). Where the scopes
correspond too, the two are checked alike: both are refused, or both are accepted at types that are
spelled differently (`follows_respells`). So it is with declarations.
-/

namespace UnionChecker

open Syntax Check

namespace Respelling

variable {S : Respelling}

/-! ## Likeness -/

/-- What a respelling changes. Of typed trees only their types are compared, and of failures whether
they wait for the type of a name. -/
def likeness (S : Respelling) : Likeness where
  type := S.Spells
  name := S.SpellsName
  expr e e' := S.Spells e.ty e'.ty
  test _ _ := True
  cause c c' := ∀ (Γ Γ' : Context) (span : Span), (Γ.failure c span).Resembles (Γ'.failure c' span)
  written w w' := w.Uses S.wording ∧ w' = w.respell S.spell
  binder x x' := S.generic x.text ∧ x' = x.respell S.spell
  origin := Eq

theorem spells_builtin {name : String}
    (h : (⟨⟨"", name⟩, [], true⟩, []) ∈ Library.defaultTypes) :
    S.Spells (.builtin name) (.builtin name) :=
  spells_named.2 ⟨S.builtin h, _, .nil, rfl⟩

theorem spells_list {t t' : Ty} (ht : S.Spells t t') : S.Spells (.list t) (.list t') := by
  have hlist : (⟨⟨"", "List"⟩, ["T"], true⟩, [.var "T"]) ∈ Library.defaultTypes := by
    simp [Library.defaultTypes]
  exact spells_named.2 ⟨S.builtin hlist, _, .cons ht .nil, rfl⟩

theorem spells_literalType (value : Literal) : S.Spells (literalType value) (literalType value) := by
  cases value <;> exact spells_builtin (by simp [Library.defaultTypes])

theorem isHole_respell (f : String → String) : ∀ type : TypeExpr,
    isHole (type.respell f) = isHole type
  | ⟨[], _⟩ => rfl
  | ⟨[.hole _], _⟩ => rfl
  | ⟨[.named _ _], _⟩ => rfl
  | ⟨[.fn _ _ _ _], _⟩ => rfl
  | ⟨_ :: _ :: _, _⟩ => by
    rw [TypeExpr.respell, respellAlternatives, respellAlternatives]
    simp [isHole]

theorem likeness_lawful (S : Respelling) : S.likeness.Lawful where
  beq := SpellsName.beq
  binder h := ⟨h.1, congrArg Name.text h.2⟩
  hole h := h.2 ▸ isHole_respell _ _
  span {w _} h := by
    obtain ⟨-, rfl⟩ := h
    cases w
    rfl
  form h := by
    cases h.form with
    | var => exact .var
    | named _ hargs => exact .named hargs
    | fn hgs hps hr => exact .fn ⟨hgs, hps, hr⟩
    | union hms => exact .union hms
  var h := spells_var.2 ⟨_, h, rfl⟩
  fn h := spells_fn.2 ⟨_, _, _, h.generics, h.params, h.result, rfl⟩
  literal := spells_literalType
  list := spells_list
  join := spells_join
  resolve := Spells.resolve
  assignable := Spells.isAssignable
  equal := Spells.equal
  contained := Spells.containedIn
  le := Spells.le
  mentions ht hgs := mentionsAny_spells ht hgs
  infer hx ht hu := (infer_spells hx ht _ _ hu).imp (fun _ _ _ _ _ _ => rfl) fun _ _ h => h
  missing _ _ _ _ := rfl
  cause h _ _ _ := by cases h <;> rfl
  node h := by
    cases h with
    | literal ht => exact ht
    | access ht => exact ht
    | invocation ht => exact ht
    | function h => exact spells_fn.2 ⟨_, _, _, h.signature.generics, h.signature.params,
        h.signature.result, rfl⟩
    | declaration => exact spells_literalType .null
    | conditional ht => exact ht
    | list ht => exact spells_list ht
    | choice ht => exact ht
  ty h := h

/-! ## Respelled terms -/

theorem like_respellTypes : ∀ {types : List TypeExpr}, typesUse S.wording types →
    List.Forall₂ S.likeness.written types (respellTypes S.spell types)
  | [], _ => .nil
  | _ :: _, hu => .cons ⟨hu.1, rfl⟩ (like_respellTypes hu.2)

theorem like_respellOption : ∀ {type : Option TypeExpr}, optionUses S.wording type →
    Option.Rel S.likeness.written type (type.map (·.respell S.spell))
  | none, _ => .none
  | some _, hu => .some ⟨hu _ rfl, rfl⟩

theorem like_respellNames {names : List Name} (hu : S.wording.Binds names) :
    List.Forall₂ S.likeness.binder names (names.map (·.respell S.spell)) :=
  forall₂_iff_map.2 ⟨hu, rfl⟩

theorem like_respellParams {params : List Parameter}
    (hu : ∀ p ∈ params, optionUses S.wording p.type) :
    List.Forall₂ S.likeness.ParameterLike params (params.map (·.respell S.spell)) :=
  List.forall₂_map_right_iff.2 (List.forall₂_same.2 fun p hp => ⟨rfl, like_respellOption (hu p hp)⟩)

mutual

/-- **A term is like its respelled copy.** -/
theorem like_respell : ∀ t : Term, t.Uses S.wording → S.likeness.TermLike t (t.respell S.spell)
  | ⟨head, chain, _⟩, hu => .mk (like_respellExpr head hu.1) (like_respellLinks chain hu.2)

theorem like_respellLinks : ∀ links : List Link, linksUse S.wording links →
    List.Forall₂ S.likeness.LinkLike links (respellLinks S.spell links)
  | [], _ => .nil
  | ⟨_, none, _⟩ :: links, hu => .cons (.mk .none) (like_respellLinks links hu)
  | ⟨_, some args, _⟩ :: links, hu =>
    .cons (.mk (.some (like_respellArguments args hu.1))) (like_respellLinks links hu.2)

theorem like_respellArguments : ∀ args : Arguments, args.Uses S.wording →
    S.likeness.ArgumentsLike args (args.respell S.spell)
  | ⟨_, items, _⟩, hu => .mk (like_respellTypes hu.1) (like_respellItems items hu.2)

theorem like_respellItems : ∀ items : List Argument, itemsUse S.wording items →
    List.Forall₂ S.likeness.ArgumentLike items (respellItems S.spell items)
  | [], _ => .nil
  | ⟨_, value, _⟩ :: items, hu =>
    .cons (.mk (like_respell value hu.1)) (like_respellItems items hu.2)

theorem like_respellExpr : ∀ head : Expr, head.Uses S.wording →
    S.likeness.ExprLike head (head.respell S.spell)
  | .literal value span, _ => .literal value span
  | .reference _ none _, _ => .reference .none
  | .reference _ (some args) _, hu => .reference (.some (like_respellArguments args hu))
  | .lambda function, hu => .lambda (like_respellLambda function hu)
  | .declaration ⟨_, _, _, value, _⟩, hu =>
    .declaration (like_respellOption hu.1) (like_respell value hu.2.2)
  | .conditional ⟨condition, thenBlock, elseIfs, elseBlock, _⟩, hu =>
    .conditional (like_respell condition hu.1) (like_respellTerms thenBlock hu.2.1)
      (like_respellElseIfs elseIfs hu.2.2.1) (like_respellTerms elseBlock hu.2.2.2)
  | .list _ items _, hu => .list (like_respellTypes hu.1) (like_respellTerms items hu.2)
  | .when ⟨subject, arms, none, _⟩, hu =>
    .when (like_respell subject hu.1) (like_respellArms arms hu.2) .none
  | .when ⟨subject, arms, some ⟨_, body, _, _⟩, _⟩, hu =>
    .when (like_respell subject hu.1) (like_respellArms arms hu.2.1)
      (.some (.mk (like_respellTerms body hu.2.2) rfl))

theorem like_respellLambda : ∀ function : Lambda, function.Uses S.wording →
    S.likeness.LambdaLike function (function.respell S.spell)
  | ⟨_, _, _, body, _⟩, hu =>
    .mk (like_respellNames hu.1) (like_respellParams hu.2.1) (like_respellOption hu.2.2.1)
      (like_respellTerms body hu.2.2.2)

theorem like_respellTerms : ∀ ts : List Term, termsUse S.wording ts →
    List.Forall₂ S.likeness.TermLike ts (respellTerms S.spell ts)
  | [], _ => .nil
  | t :: ts, hu => .cons (like_respell t hu.1) (like_respellTerms ts hu.2)

theorem like_respellElseIfs : ∀ branches : List ElseIf, elseIfsUse S.wording branches →
    List.Forall₂ S.likeness.ElseIfLike branches (respellElseIfs S.spell branches)
  | [], _ => .nil
  | ⟨condition, thenBlock, _⟩ :: branches, hu =>
    .cons (.mk (like_respell condition hu.1) (like_respellTerms thenBlock hu.2.1))
      (like_respellElseIfs branches hu.2.2)

theorem like_respellArms : ∀ arms : List Arm, armsUse S.wording arms →
    List.Forall₂ S.likeness.ArmLike arms (respellArms S.spell arms)
  | [], _ => .nil
  | ⟨_, _, body, _, _⟩ :: arms, hu =>
    .cons (.mk ⟨hu.1, rfl⟩ (like_respellTerms body hu.2.1) rfl) (like_respellArms arms hu.2.2)

end

theorem like_respellDeclaration {d : Declaration} (hu : d.Uses S.wording) :
    S.likeness.DeclarationLike d (d.respell S.spell) := by
  obtain ⟨name, type, exit, value, span⟩ := d
  exact ⟨rfl, like_respellOption hu.1, like_respell value hu.2.2⟩

/-! ## Scopes -/

section

variable {frames frames' : Frames} (h : List.Forall₂ S.SpellsFrame frames frames')
include h

theorem spellsFrames_pop : List.Forall₂ S.SpellsFrame frames.pop frames'.pop := by
  cases h with
  | nil => exact .nil
  | cons hframe h =>
    cases h with
    | nil => exact .cons hframe .nil
    | cons hframe' h => exact .cons hframe' h

theorem spellsFrame_innermost : S.SpellsFrame frames.innermost frames'.innermost := by
  cases h with
  | nil => exact ⟨.nil, .nil⟩
  | cons hframe _ => exact hframe

theorem spellsFrames_modifyInnermost {f g : Frame → Frame}
    (hfg : ∀ frame frame', S.SpellsFrame frame frame' → S.SpellsFrame (f frame) (g frame')) :
    List.Forall₂ S.SpellsFrame (frames.modifyInnermost f) (frames'.modifyInnermost g) := by
  cases h with
  | nil => exact .cons (hfg _ _ ⟨.nil, .nil⟩) .nil
  | cons hframe h => exact .cons (hfg _ _ hframe) h

end

theorem forall₂_put {x : String} {t t' : Ty} (ht : S.Spells t t') {l l' : List (String × Ty)}
    (h : List.Forall₂ S.SpellsParam l l') : List.Forall₂ S.SpellsParam (put x t l) (put x t' l') :=
  .cons ⟨rfl, ht⟩ (forall₂_filter h fun p p' hp => by rw [hp.1])

theorem hasKey_spells {x : String} {l l' : List (String × Ty)}
    (h : List.Forall₂ S.SpellsParam l l') : hasKey x l' = hasKey x l := by
  unfold hasKey
  rcases lookup_related h with ⟨hnone, hnone'⟩ | ⟨t, t', hsome, hsome', -⟩
  · rw [hnone, hnone']
  · rw [hsome, hsome']
    rfl

theorem defineValue_spells {frames frames' : Frames} (h : List.Forall₂ S.SpellsFrame frames frames')
    (x : String) {t t' : Ty} (ht : S.Spells t t') :
    Option.Rel (List.Forall₂ S.SpellsFrame) (frames.defineValue x t) (frames'.defineValue x t') := by
  unfold Frames.defineValue
  rw [hasKey_spells (spellsFrame_innermost h).values]
  split
  · exact .some h
  split
  · exact .none
  · exact .some (spellsFrames_modifyInnermost h fun _ _ h => ⟨forall₂_put ht h.values, h.generics⟩)

theorem defineGeneric_spells {frames frames' : Frames}
    (h : List.Forall₂ S.SpellsFrame frames frames') {x : String} (hx : S.generic x) :
    Option.Rel (List.Forall₂ S.SpellsFrame) (frames.defineGeneric x)
      (frames'.defineGeneric (S.spell x)) := by
  unfold Frames.defineGeneric
  rw [contains_spell (S.written_of_generic hx) (spellsFrame_innermost h).generics]
  split
  · exact .none
  · exact .some (spellsFrames_modifyInnermost h fun _ _ h =>
      ⟨h.values, .cons ⟨hx, rfl⟩ h.generics⟩)

theorem resolveValue_spells {Γ Γ' : Context} (hΓ : S.SpellsContext Γ Γ') {frames frames' : Frames}
    (h : List.Forall₂ S.SpellsFrame frames frames') (x : String) :
    Alike Eq (fun r r' => S.Spells r.type r'.type) (Γ.resolveValue frames x)
      (Γ'.resolveValue frames' x) := by
  have hlocal := value?_spells h x
  have hvalue := lookup_related (x := x) hΓ.table.values
  simp only [Context.resolveValue, hΓ.file, hΓ.pending, hΓ.table.fileValues]
  generalize frames.value? x = found, frames'.value? x = found' at hlocal
  cases hlocal with
  | some ht => exact .ok ht
  | none =>
    cases himported : Γ.table.fileValues.lookup (Γ.file, x) with
    | some imported =>
      dsimp only
      exact .ok (hΓ.table.imported _ (mem_of_lookup_eq_some himported))
    | none =>
      dsimp only
      split
      · exact .error rfl
      · rcases hvalue with ⟨hnone, hnone'⟩ | ⟨t, t', hsome, hsome', ht⟩
        · rw [hnone, hnone']
          exact .error rfl
        · rw [hsome, hsome']
          exact .ok ht

/-! ## Checks -/

/-- Scopes with other names for generics. -/
def respells (S : Respelling) : Simulation where
  frames := List.Forall₂ S.SpellsFrame
  step _ _ := True
  inner _ _ := True
  failure := Failure.Resembles
  excused _ := False

variable {Γ Γ' : Context}

theorem reads_respells (hΓ : S.SpellsContext Γ Γ') : S.respells.Reads S.likeness Γ Γ' where
  likeness := S.likeness_lawful
  refl _ := trivial
  trans _ _ := trivial
  failure hcause span := .inr (hcause Γ Γ' span)
  type := by
    rintro frames frames' hframes gs gs' hgs type _ ⟨hu, rfl⟩
    exact .inr (resolveType_spells hΓ hframes type hu hgs)

theorem simulates_identifier (hΓ : S.SpellsContext Γ Γ') (name : Name) :
    Simulates S.respells S.likeness.expr (identifier Γ name) (identifier Γ' name) := by
  intro frames frames' hframes
  have hresolved := resolveValue_spells hΓ hframes name.text
  refine .inr ?_
  simp only [identifier, ExceptT.run, StateT.run]
  generalize Γ.resolveValue frames name.text = r, Γ'.resolveValue frames' name.text = r' at hresolved
  cases hresolved with
  | ok h => exact ⟨.ok h, hframes, trivial⟩
  | @error e e' h =>
    cases h
    cases e <;> exact ⟨.error rfl, hframes, trivial⟩

theorem resembles_residualFailure (origin : Origin) {f f' : Failure} (h : f.Resembles f') :
    (residualFailure origin f).Resembles (residualFailure origin f') := by
  have hcause : ∀ f, (residualFailure origin f).isUndetermined = f.isUndetermined := fun f => by
    unfold residualFailure
    split <;> rfl
  unfold Failure.Resembles
  rw [hcause, hcause]
  exact h

/-- **Respelled terms are checked as the terms themselves.** -/
theorem follows_respells (hΓ : S.SpellsContext Γ Γ') : S.respells.Follows S.likeness Γ Γ' where
  toReads := reads_respells hΓ
  inner_refl _ := trivial
  inner_trans _ _ := trivial
  inner_of_step _ := trivial
  step_of_inner _ := trivial
  push hframes := .cons ⟨.nil, .nil⟩ hframes
  pop := spellsFrames_pop
  relabel horigin _ _ hf := horigin ▸ resembles_residualFailure _ hf
  excuse h _ := h
  identifier := simulates_identifier hΓ
  define name _ _ ht := simulates_change (reads_respells hΓ) (fun _ _ _ => rfl)
    (fun hframes => defineValue_spells hframes name.text ht) fun _ => trivial
  generic := by
    rintro x _ ⟨hx, rfl⟩
    exact simulates_change (reads_respells hΓ) (fun _ _ _ => rfl)
      (fun hframes => defineGeneric_spells hframes hx) fun _ => trivial
  fields {decl args args'} ht := by
    obtain ⟨hdecl, _, hargs, heq⟩ := spells_named.1 ht
    cases heq
    have hfields := hΓ.table.fieldsOf decl args args' hdecl hargs
    simp only [Table.fieldsOf, hΓ.table.fields] at hfields ⊢
    exact hfields
  tests ht := by
    rw [hΓ.table.matchFields]
    exact (testAlike_of_spells ht .arm).imp (fun _ _ _ _ _ _ => rfl) fun _ _ h => h

theorem spellsFrames_initial : List.Forall₂ S.SpellsFrame Frames.initial Frames.initial :=
  .cons ⟨.nil, .nil⟩ .nil

/-- At the start of a declaration the scopes correspond. -/
theorem alike_atTopLevel {α β : Type} {Q : α → β → Prop} {c : Check α} {c' : Check β}
    (h : Simulates S.respells Q c c') :
    Alike Failure.Resembles Q (atTopLevel c) (atTopLevel c') := by
  rcases h .initial .initial spellsFrames_initial with ⟨_, _, hexcused⟩ | ⟨hresult, -⟩
  · exact hexcused.elim
  · exact hresult

theorem inferDeclaration_spells (hΓ : S.SpellsContext Γ Γ') {d : Declaration}
    (hu : d.Uses S.wording) :
    Alike Failure.Resembles S.Spells (atTopLevel (inferDeclaration Γ d))
      (atTopLevel (inferDeclaration Γ' (d.respell S.spell))) :=
  alike_atTopLevel
    (simulates_inferDeclaration (follows_respells hΓ) (like_respellDeclaration hu))

theorem checkDeclaration_spells (hΓ : S.SpellsContext Γ Γ') {d : Declaration}
    (hu : d.Uses S.wording) {t t' : Ty} (ht : S.Spells t t') :
    Alike Failure.Resembles (fun d d' => S.Spells d.value.ty d'.value.ty)
      (atTopLevel (checkDeclaration Γ d t)) (atTopLevel (checkDeclaration Γ' (d.respell S.spell) t')) :=
  alike_atTopLevel
    (simulates_checkDeclaration (follows_respells hΓ) (like_respellDeclaration hu) ht)

end Respelling

end UnionChecker
