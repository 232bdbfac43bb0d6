import UnionChecker.Proofs.Coverage
import UnionChecker.Proofs.Spelling.Order
import UnionChecker.Proofs.Ty.Assignability
import UnionChecker.Proofs.Ty.Inference
/-!
# Operations on types do not see how generics are spelled

`S.Spells t t'` says that `t` is a type over the vocabulary of the respelling `S`, and `t'` the same
type with the other names. Every operation on types takes related types to related ones, and every
question about them gets the same answer: unions are sorted alike since the order of names is kept,
and everything else compares generics only for equality.
-/

namespace UnionChecker

/-- Failures of the type algebra, which only name types. -/
abbrev anyFailure {ε : Type} (_ _ : ε) : Prop := True

/-! ## Related types -/

namespace Respelling

variable (S : Respelling)

/-- A generic, and what it is called instead. -/
def SpellsName (x x' : String) : Prop := S.generic x ∧ x' = S.spell x

/-- A type, and the same type with the other names. -/
def Spells (t t' : Ty) : Prop := t.Over S.toVocabulary ∧ t' = t.respell S.spell

/-- Parameters, whose names stay. -/
def SpellsParam (p p' : String × Ty) : Prop := p.1 = p'.1 ∧ S.Spells p.2 p'.2

/-- Entries of a substitution. -/
abbrev SpellsEntry : String × Ty → String × Ty → Prop :=
  Substitution.RelEntry S.SpellsName S.Spells

variable {S} {t t' u u' : Ty} {x x' y y' : String}

theorem forall₂_spellsName {gs gs' : List String} :
    List.Forall₂ S.SpellsName gs gs' ↔ (∀ g ∈ gs, S.generic g) ∧ gs' = gs.map S.spell :=
  forall₂_iff_map

theorem forall₂_spells {ts ts' : List Ty} : List.Forall₂ S.Spells ts ts' ↔
    (∀ t ∈ ts, t.Over S.toVocabulary) ∧ ts' = ts.map (·.respell S.spell) :=
  forall₂_iff_map

theorem forall₂_spellsParam {ps ps' : List (String × Ty)} : List.Forall₂ S.SpellsParam ps ps' ↔
    (∀ p ∈ ps, p.2.Over S.toVocabulary) ∧ ps' = ps.map fun p => (p.1, p.2.respell S.spell) := by
  rw [← forall₂_iff_map]
  refine ⟨List.Forall₂.imp fun p p' h => ⟨h.2.1, Prod.ext h.1.symm h.2.2⟩,
    List.Forall₂.imp fun p p' h => ?_⟩
  obtain ⟨h, rfl⟩ := h
  exact ⟨rfl, h, rfl⟩

/-! ## By constructors -/

theorem spells_var : S.Spells (.var x) t' ↔ ∃ x', S.SpellsName x x' ∧ t' = .var x' := by
  simp [Spells, SpellsName]

theorem spells_named {decl : Nominal} {args : List Ty} : S.Spells (.named decl args) t' ↔
    S.decl decl ∧ ∃ args', List.Forall₂ S.Spells args args' ∧ t' = .named decl args' := by
  simp only [Spells, Ty.over_named, Ty.respell_named, forall₂_spells]
  constructor
  · rintro ⟨⟨hdecl, hargs⟩, rfl⟩
    exact ⟨hdecl, _, ⟨hargs, rfl⟩, rfl⟩
  · rintro ⟨hdecl, _, ⟨hargs, rfl⟩, rfl⟩
    exact ⟨⟨hdecl, hargs⟩, rfl⟩

theorem spells_fn {gs : List String} {ps : List (String × Ty)} {r : Ty} :
    S.Spells (.fn gs ps r) t' ↔ ∃ gs' ps' r', List.Forall₂ S.SpellsName gs gs' ∧
      List.Forall₂ S.SpellsParam ps ps' ∧ S.Spells r r' ∧ t' = .fn gs' ps' r' := by
  simp only [forall₂_spellsName, forall₂_spellsParam, Spells, Ty.over_fn, Ty.respell_fn]
  constructor
  · rintro ⟨⟨hgs, hps, hr⟩, rfl⟩
    exact ⟨_, _, _, ⟨hgs, rfl⟩, ⟨hps, rfl⟩, ⟨hr, rfl⟩, rfl⟩
  · rintro ⟨_, _, _, ⟨hgs, rfl⟩, ⟨hps, rfl⟩, ⟨hr, rfl⟩, rfl⟩
    exact ⟨⟨hgs, hps, hr⟩, rfl⟩

theorem spells_union {ms : List Ty} :
    S.Spells (.union ms) t' ↔ ∃ ms', List.Forall₂ S.Spells ms ms' ∧ t' = .union ms' := by
  simp only [Spells, Ty.over_union, Ty.respell_union, forall₂_spells]
  constructor
  · rintro ⟨hms, rfl⟩
    exact ⟨_, ⟨hms, rfl⟩, rfl⟩
  · rintro ⟨_, ⟨hms, rfl⟩, rfl⟩
    exact ⟨hms, rfl⟩

/-- A type and its respelling have the same form. -/
inductive SpellsForm (S : Respelling) : Ty → Ty → Prop
  | var {x x' : String} (hx : S.SpellsName x x') : SpellsForm S (.var x) (.var x')
  | named {decl : Nominal} {args args' : List Ty} (hdecl : S.decl decl)
      (hargs : List.Forall₂ S.Spells args args') : SpellsForm S (.named decl args) (.named decl args')
  | fn {gs gs' : List String} {ps ps' : List (String × Ty)} {r r' : Ty}
      (hgs : List.Forall₂ S.SpellsName gs gs') (hps : List.Forall₂ S.SpellsParam ps ps')
      (hr : S.Spells r r') : SpellsForm S (.fn gs ps r) (.fn gs' ps' r')
  | union {ms ms' : List Ty} (hms : List.Forall₂ S.Spells ms ms') :
      SpellsForm S (.union ms) (.union ms')

theorem Spells.form (h : S.Spells t t') : S.SpellsForm t t' := by
  cases t with
  | var => obtain ⟨_, hx, rfl⟩ := spells_var.1 h; exact .var hx
  | named => obtain ⟨hdecl, _, hargs, rfl⟩ := spells_named.1 h; exact .named hdecl hargs
  | fn => obtain ⟨_, _, _, hgs, hps, hr, rfl⟩ := spells_fn.1 h; exact .fn hgs hps hr
  | union => obtain ⟨_, hms, rfl⟩ := spells_union.1 h; exact .union hms

/-! ## Names -/

theorem spell_beq (hx : S.written x) (hy : S.SpellsName y y') : (S.spell x == y') = (x == y) := by
  obtain ⟨hy, rfl⟩ := hy
  rw [Bool.eq_iff_iff, beq_iff_eq, beq_iff_eq]
  exact ⟨S.spell_inj hx (S.written_of_generic hy), congrArg S.spell⟩

theorem contains_spell {gs gs' : List String} (hx : S.written x)
    (h : List.Forall₂ S.SpellsName gs gs') : gs'.contains (S.spell x) = gs.contains x := by
  rw [List.contains_eq_any_beq, List.contains_eq_any_beq]
  exact any_eq_of_forall₂ h fun a _ b hab => spell_beq hx hab

theorem SpellsName.beq (hx : S.SpellsName x x') (hy : S.SpellsName y y') :
    (x' == y') = (x == y) := by
  obtain ⟨hx, rfl⟩ := hx
  exact spell_beq (S.written_of_generic hx) hy

theorem SpellsName.contains {gs gs' : List String} (hx : S.SpellsName x x')
    (h : List.Forall₂ S.SpellsName gs gs') : gs'.contains x' = gs.contains x := by
  obtain ⟨hx, rfl⟩ := hx
  exact contains_spell (S.written_of_generic hx) h

theorem spellsName_positional (depth index : Nat) :
    S.SpellsName (Ty.positional depth index) (Ty.positional depth index) :=
  ⟨S.positional depth index, (S.spell_positional depth index).symm⟩

/-! ## Views -/

theorem Spells.members (h : S.Spells t t') : List.Forall₂ S.Spells t.members t'.members := by
  cases h.form with
  | union hms => exact hms
  | _ => exact .cons h .nil

theorem Spells.flatten (h : S.Spells t t') : List.Forall₂ S.Spells t.flatten t'.flatten := by
  induction t generalizing t' with
  | union ms ih =>
    obtain ⟨ms', hms, rfl⟩ := spells_union.1 h
    simp only [Ty.flatten, Ty.flattenAll_eq_flatMap, List.flatMap]
    exact List.rel_flatten (forall₂_map hms ih)
  | _ =>
    cases h.form
    exact .cons h .nil

theorem forall₂_flattenAll {ts ts' : List Ty} (h : List.Forall₂ S.Spells ts ts') :
    List.Forall₂ S.Spells (Ty.flattenAll ts) (Ty.flattenAll ts') := by
  rw [Ty.flattenAll_eq_flatMap, Ty.flattenAll_eq_flatMap]
  exact List.rel_flatten (forall₂_map h fun _ _ _ => Spells.flatten)

theorem Spells.name_lt (ht : S.Spells t t') (hu : S.Spells u u') :
    t'.name < u'.name ↔ t.name < u.name := by
  obtain ⟨ht, rfl⟩ := ht
  obtain ⟨hu, rfl⟩ := hu
  exact (S.name_lt_iff ht hu).symm

theorem Spells.le (ht : S.Spells t t') (hu : S.Spells u u') : t'.le u' = t.le u := by
  obtain ⟨ht, rfl⟩ := ht
  obtain ⟨hu, rfl⟩ := hu
  exact S.le_respell ht hu

/-! ## Positional names -/

theorem forall₂_positionals {gs gs' : List String} (h : List.Forall₂ S.SpellsName gs gs')
    (depth : Nat) :
    List.Forall₂ S.SpellsName (Ty.positionals depth gs) (Ty.positionals depth gs') := by
  rw [Ty.positionals, Ty.positionals, ← h.length_eq, List.forall₂_map_left_iff,
    List.forall₂_map_right_iff, List.forall₂_same]
  exact fun index _ => spellsName_positional depth index

theorem forall₂_enter {gs gs' : List String} (h : List.Forall₂ S.SpellsName gs gs') (depth : Nat)
    {ρ ρ' : List (String × String)}
    (hρ : List.Forall₂ (fun e e' => S.SpellsName e.1 e'.1 ∧ S.SpellsName e.2 e'.2) ρ ρ') :
    List.Forall₂ (fun e e' => S.SpellsName e.1 e'.1 ∧ S.SpellsName e.2 e'.2)
      (Ty.enter depth gs ρ) (Ty.enter depth gs' ρ') := by
  refine List.rel_append (List.rel_reverse ?_) hρ
  exact forall₂_zip h (forall₂_positionals h depth)

/-! ## Unions and equality -/

section

variable {eq eq' : Ty → Ty → Bool}
  (heq : ∀ a a' b b', S.Spells a a' → S.Spells b b' → eq' a' b' = eq a b)
include heq

theorem forall₂_insertMember (ht : S.Spells t t') {ms ms' : List Ty}
    (h : List.Forall₂ S.Spells ms ms') :
    List.Forall₂ S.Spells (Ty.insertMember eq ms t) (Ty.insertMember eq' ms' t') := by
  induction h with
  | nil => exact .cons ht .nil
  | cons hm h ih =>
    simp only [Ty.insertMember, heq _ _ _ _ hm ht, ht.name_lt hm]
    split
    · refine .cons ?_ h
      split
      · exact ht
      · exact hm
    · exact .cons hm ih

theorem spells_unionWith {ts ts' : List Ty} (h : List.Forall₂ S.Spells ts ts') :
    S.Spells (Ty.unionWith eq ts) (Ty.unionWith eq' ts') := by
  have hmembers : List.Forall₂ S.Spells (Ty.distinctMembers eq ts) (Ty.distinctMembers eq' ts') :=
    List.rel_foldl (P := List.Forall₂ S.Spells) (R := S.Spells)
      (fun _ _ hms _ _ ht => forall₂_insertMember heq ht hms) .nil (forall₂_flattenAll h)
  have hunion : ∀ {ms ms' : List Ty}, List.Forall₂ S.Spells ms ms' →
      S.Spells (.union (sortOrdered Ty.le ms)) (.union (sortOrdered Ty.le ms')) := fun hms =>
    spells_union.2 ⟨_, forall₂_sortOrdered (fun _ _ _ _ h h' => h.le h') hms, rfl⟩
  unfold Ty.unionWith
  revert hmembers
  generalize Ty.distinctMembers eq ts = ms, Ty.distinctMembers eq' ts' = ms'
  intro hms
  match ms, ms', hms with
  | _, _, .nil => exact hunion .nil
  | _, _, .cons hm .nil => exact hm
  | _, _, .cons hm (.cons hm' h) => exact hunion (.cons hm (.cons hm' h))

/-- The renaming to positional names of related types. -/
theorem spells_renameWith : ∀ {t t' : Ty} (_ : S.Spells t t') (depth : Nat)
    {ρ ρ' : List (String × String)},
    List.Forall₂ (fun e e' => S.SpellsName e.1 e'.1 ∧ S.SpellsName e.2 e'.2) ρ ρ' →
    S.Spells (Ty.renameWith eq depth ρ t) (Ty.renameWith eq' depth ρ' t') := by
  intro t
  induction t with
  | var x =>
    intro t' h depth ρ ρ' hρ
    obtain ⟨x', hx, rfl⟩ := spells_var.1 h
    refine spells_var.2 ⟨_, ?_, rfl⟩
    exact rel_getD (rel_lookup hx.beq hρ) hx
  | named decl args ih =>
    intro t' h depth ρ ρ' hρ
    obtain ⟨hdecl, args', hargs, rfl⟩ := spells_named.1 h
    simp only [Ty.renameWith, Ty.renameAllWith_eq_map]
    exact spells_named.2 ⟨hdecl, _, forall₂_map hargs fun a ha a' h => ih a ha h depth hρ, rfl⟩
  | fn gs ps r ihps ihr =>
    intro t' h depth ρ ρ' hρ
    obtain ⟨gs', ps', r', hgs, hps, hr, rfl⟩ := spells_fn.1 h
    have hρ := forall₂_enter hgs depth hρ
    simp only [Ty.renameWith, Ty.renameParamsWith_eq_map]
    refine spells_fn.2 ⟨_, _, _, ?_, ?_, ihr hr _ hρ, rfl⟩
    · exact forall₂_positionals hgs depth
    · exact forall₂_map hps fun p hp p' h => ⟨h.1, ihps p hp h.2 _ hρ⟩
  | union ms ih =>
    intro t' h depth ρ ρ' hρ
    obtain ⟨ms', hms, rfl⟩ := spells_union.1 h
    simp only [Ty.renameWith, Ty.renameAllWith_eq_map]
    exact spells_unionWith heq (forall₂_map hms fun a ha a' h => ih a ha h depth hρ)

theorem pairwise_spells {as as' bs bs' : List Ty} (ha : List.Forall₂ S.Spells as as') :
    List.Forall₂ S.Spells bs bs' → Ty.pairwise eq' as' bs' = Ty.pairwise eq as bs := by
  induction ha generalizing bs bs' with
  | nil =>
    intro hb
    cases hb <;> rfl
  | cons ha _ ih =>
    intro hb
    cases hb with
    | nil => rfl
    | cons hb h => simp only [Ty.pairwise, heq _ _ _ _ ha hb, ih h]

theorem sameMembers_spells {as as' bs bs' : List Ty} (ha : List.Forall₂ S.Spells as as')
    (hb : List.Forall₂ S.Spells bs bs') :
    Ty.sameMembers eq' as' bs' = Ty.sameMembers eq as bs := by
  have hab : ∀ a a', S.Spells a a' → ∀ b b', S.Spells b b' → eq' a' b' = eq a b :=
    fun a a' ha b b' hb => heq a a' b b' ha hb
  unfold Ty.sameMembers
  rw [all_eq_of_forall₂ ha fun a _ a' h => any_eq_of_forall₂ hb fun b _ b' h' => hab a a' h b b' h',
    all_eq_of_forall₂ hb fun b _ b' h' => any_eq_of_forall₂ ha fun a _ a' h => hab a a' h b b' h']

theorem compareWith_spells (ht : S.Spells t t') (hu : S.Spells u u') :
    Ty.compareWith eq' t' u' = Ty.compareWith eq t u := by
  have hmembers := sameMembers_spells heq ht.members hu.members
  cases ht.form with
  | union => exact hmembers
  | var hx =>
    cases hu.form with
    | union => exact hmembers
    | var hy => exact hx.beq hy
    | _ => rfl
  | named _ has =>
    cases hu.form with
    | union => exact hmembers
    | named _ hbs => simp only [Ty.compareWith, pairwise_spells heq has hbs]
    | _ => rfl
  | fn hgs hps hr =>
    cases hu.form with
    | union => exact hmembers
    | fn hhs hqs hs =>
      have hgs' := forall₂_enter hgs 0 .nil
      have hhs' := forall₂_enter hhs 0 .nil
      have hparams := pairwise_spells heq
        (forall₂_map hps fun p _ p' hp => spells_renameWith heq hp.2 1 hgs')
        (forall₂_map hqs fun q _ q' hq => spells_renameWith heq hq.2 1 hhs')
      simp only [Ty.compareWith, hparams, hgs.length_eq, hhs.length_eq, heq _ _ _ _
        (spells_renameWith heq hr 1 hgs') (spells_renameWith heq hs 1 hhs')]
    | _ => rfl

end

theorem equalWithin_spells : ∀ (n : Nat) (t t' u u' : Ty), S.Spells t t' → S.Spells u u' →
    Ty.equalWithin n t' u' = Ty.equalWithin n t u
  | 0, _, _, _, _, _, _ => rfl
  | n + 1, t, t', u, u', ht, hu => by
    rw [Ty.equalWithin_succ, Ty.equalWithin_succ]
    exact compareWith_spells (equalWithin_spells n) ht hu

/-- **Types with other names are equal exactly when the types are.** -/
theorem Spells.equal (ht : S.Spells t t') (hu : S.Spells u u') : t'.equal u' = t.equal u := by
  let n := t.size + u.size + (t'.size + u'.size)
  rw [← Ty.equalWithin_eq_equal n t' u' (by omega), ← Ty.equalWithin_eq_equal n t u (by omega)]
  exact equalWithin_spells n t t' u u' ht hu

theorem spells_join {ts ts' : List Ty} (h : List.Forall₂ S.Spells ts ts') :
    S.Spells (.join ts) (.join ts') :=
  spells_unionWith (fun _ _ _ _ ha hb => ha.equal hb) h

theorem Spells.isAssignable (ht : S.Spells t t') (hu : S.Spells u u') :
    t'.isAssignable u' = t.isAssignable u := by
  have h : ∀ a b : Ty, a.isAssignable b = a.flatten.all fun m => b.flatten.any fun n => m.equal n :=
    fun a b => by
      rw [Bool.eq_iff_iff, Ty.isAssignable_iff]
      simp
  rw [h, h]
  exact all_eq_of_forall₂ ht.flatten fun _ _ _ hm =>
    any_eq_of_forall₂ hu.flatten fun _ _ _ hn => hm.equal hn

theorem Spells.containedIn (ht : S.Spells t t') (hu : S.Spells u u') :
    t'.containedIn u' = t.containedIn u :=
  all_eq_of_forall₂ ht.members fun _ _ _ hm =>
    any_eq_of_forall₂ hu.members fun _ _ _ hn => hn.equal hm

/-! ## Substitutions -/

section

variable {σ σ' τ τ' : Substitution} {gs gs' : List String}

theorem forall₂_without (hσ : List.Forall₂ S.SpellsEntry σ σ')
    (hgs : List.Forall₂ S.SpellsName gs gs') :
    List.Forall₂ S.SpellsEntry (σ.without gs) (σ'.without gs') :=
  forall₂_filter hσ fun e e' he => by rw [he.1.contains hgs]

theorem forall₂_ofLists {ts ts' : List Ty} (hgs : List.Forall₂ S.SpellsName gs gs')
    (hts : List.Forall₂ S.Spells ts ts') :
    List.Forall₂ S.SpellsEntry (Substitution.ofLists gs ts) (Substitution.ofLists gs' ts') :=
  Substitution.rel_ofLists SpellsName.beq hgs hts

theorem spells_substitute : ∀ {t t' : Ty} (_ : S.Spells t t') {σ σ' : Substitution},
    List.Forall₂ S.SpellsEntry σ σ' → S.Spells (t.substitute σ) (t'.substitute σ') := by
  intro t
  induction t with
  | var x =>
    intro t' h σ σ' hσ
    obtain ⟨x', hx, rfl⟩ := spells_var.1 h
    exact rel_getD (rel_lookup hx.beq hσ) h
  | named decl args ih =>
    intro t' h σ σ' hσ
    obtain ⟨hdecl, args', hargs, rfl⟩ := spells_named.1 h
    simp only [Ty.substitute, Ty.substituteAll_eq_map]
    exact spells_named.2 ⟨hdecl, _, forall₂_map hargs fun a ha a' h => ih a ha h hσ, rfl⟩
  | fn gs ps r ihps ihr =>
    intro t' h σ σ' hσ
    obtain ⟨gs', ps', r', hgs, hps, hr, rfl⟩ := spells_fn.1 h
    have hσ := forall₂_without hσ hgs
    simp only [Ty.substitute, Ty.substituteParams_eq_map, isEmpty_eq_of_forall₂ hσ]
    split
    · exact h
    · refine spells_fn.2 ⟨_, _, _, hgs, ?_, ihr hr hσ, rfl⟩
      exact forall₂_map hps fun p hp p' h => ⟨h.1, ihps p hp h.2 hσ⟩
  | union ms ih =>
    intro t' h σ σ' hσ
    obtain ⟨ms', hms, rfl⟩ := spells_union.1 h
    simp only [Ty.substitute, Ty.substituteAll_eq_map]
    exact spells_join (forall₂_map hms fun a ha a' h => ih a ha h hσ)

theorem Spells.resolve (ht : S.Spells t t') (hσ : List.Forall₂ S.SpellsEntry σ σ') :
    S.Spells (t.resolve σ) (t'.resolve σ') := by
  rw [Ty.resolve, Ty.resolve, isEmpty_eq_of_forall₂ hσ]
  split
  · exact ht
  · exact spells_substitute ht hσ

theorem mentionsAny_spells : ∀ {t t' : Ty} (_ : S.Spells t t') {gs gs' : List String},
    List.Forall₂ S.SpellsName gs gs' → t'.mentionsAny gs' = t.mentionsAny gs := by
  intro t
  induction t with
  | var x =>
    intro t' h gs gs' hgs
    obtain ⟨x', hx, rfl⟩ := spells_var.1 h
    exact hx.contains hgs
  | named decl args ih =>
    intro t' h gs gs' hgs
    obtain ⟨-, args', hargs, rfl⟩ := spells_named.1 h
    simp only [Ty.mentionsAny, Ty.mentionsAnyOf_eq_any]
    exact any_eq_of_forall₂ hargs fun a ha a' h => ih a ha h hgs
  | fn bound ps r ihps ihr =>
    intro t' h gs gs' hgs
    obtain ⟨bound', ps', r', hbound, hps, hr, rfl⟩ := spells_fn.1 h
    have hfree : List.Forall₂ S.SpellsName (gs.filter fun g => !bound.contains g)
        (gs'.filter fun g => !bound'.contains g) :=
      forall₂_filter hgs fun x x' hx => by rw [hx.contains hbound]
    simp only [Ty.mentionsAny, Ty.mentionsAnyOfParams_eq_any]
    rw [ihr hr hfree, any_eq_of_forall₂ hps fun p hp p' h => ihps p hp h.2 hfree]
  | union ms ih =>
    intro t' h gs gs' hgs
    obtain ⟨ms', hms, rfl⟩ := spells_union.1 h
    simp only [Ty.mentionsAny, Ty.mentionsAnyOf_eq_any]
    exact any_eq_of_forall₂ hms fun a ha a' h => ih a ha h hgs

end

/-! ## Inference -/

theorem mergeInference_spells {found found' : Option Ty} (hfound : Option.Rel S.Spells found found')
    (ht : S.Spells t t') :
    Alike anyFailure S.Spells (mergeInference x found t) (mergeInference x' found' t') := by
  cases hfound with
  | none => exact .ok ht
  | some hprevious =>
    simp only [mergeInference, hprevious.containedIn ht]
    split
    · exact .ok ht
    · exact .error trivial

theorem mergeOptional_spells {found found' next next' : Option Ty}
    (hfound : Option.Rel S.Spells found found') (hnext : Option.Rel S.Spells next next') :
    Alike anyFailure (Option.Rel S.Spells) (mergeOptional x found next)
      (mergeOptional x' found' next') := by
  cases hnext with
  | none => exact .ok hfound
  | some ht => exact (mergeInference_spells hfound ht).map fun _ _ h => .some h

/-- Parameters from which the same is inferred. -/
def InferAlike (S : Respelling) (x x' : String) (p p' : Ty) : Prop :=
  ∀ u u', S.Spells u u' → Alike anyFailure (Option.Rel S.Spells) (p.infer x u) (p'.infer x' u')

theorem inferAll_spells {ps ps' : List Ty} (hps : List.Forall₂ (S.InferAlike x x') ps ps') :
    ∀ {as as' : List Ty} {found found' : Option Ty}, List.Forall₂ S.Spells as as' →
    Option.Rel S.Spells found found' → Alike anyFailure (Option.Rel S.Spells)
      (Ty.inferAll x ps as found) (Ty.inferAll x' ps' as' found') := by
  induction hps with
  | nil =>
    intro as as' found found' has hfound
    simp only [Ty.inferAll]
    exact .ok hfound
  | cons hp _ ih =>
    intro as as' found found' has hfound
    cases has with
    | nil =>
      simp only [Ty.inferAll]
      exact .ok hfound
    | cons ha has =>
      rw [Ty.inferAll, Ty.inferAll]
      refine (hp _ _ ha).bind fun next next' hnext => ?_
      exact (mergeOptional_spells hfound hnext).bind fun merged merged' hmerged => ih has hmerged

/-- **Inference does not see how generics are spelled.** -/
theorem infer_spells (hx : S.SpellsName x x') : ∀ {t t' : Ty} (_ : S.Spells t t'),
    S.InferAlike x x' t t' := by
  intro t
  induction t with
  | var y =>
    intro t' h u u' hu
    obtain ⟨y', hy, rfl⟩ := spells_var.1 h
    simp only [Ty.infer, hy.beq hx]
    split
    · exact .ok (.some hu)
    · exact .ok .none
  | named decl ps ih =>
    intro t' h u u' hu
    obtain ⟨-, ps', hps, rfl⟩ := spells_named.1 h
    cases hu.form with
    | named _ has =>
      simp only [Ty.infer, ← hps.length_eq, ← has.length_eq]
      split
      · exact inferAll_spells (forall₂_imp_of_mem hps fun p hp p' _ h => ih p hp h) has .none
      · exact .ok .none
    | _ =>
      simp only [Ty.infer]
      exact .ok .none
  | fn gs ps r ihps ihr =>
    intro t' h u u' hu
    obtain ⟨gs', ps', r', hgs, hps, hr, rfl⟩ := spells_fn.1 h
    cases hu.form with
    | fn _ hqs hs =>
      simp only [Ty.infer, hx.contains hgs, ← hps.length_eq, ← hqs.length_eq]
      split
      · exact .ok .none
      split
      · have hparams := forall₂_imp_of_mem hps fun p hp p' _ h => ihps p hp h.2
        rw [Ty.inferParams_eq, Ty.inferParams_eq]
        refine (inferAll_spells (by simpa using hparams)
          (by simpa using hqs.imp fun _ _ h => h.2) .none).bind fun found found' hfound => ?_
        exact (ihr hr _ _ hs).bind fun last last' hlast => mergeOptional_spells hfound hlast
      · exact .ok .none
    | _ =>
      simp only [Ty.infer, ite_self]
      exact .ok .none
  | union ms ih =>
    intro t' h u u' hu
    obtain ⟨ms', hms, rfl⟩ := spells_union.1 h
    have hrest : List.Forall₂ S.Spells (u.members.filter fun a => !ms.any fun p => p.equal a)
        (u'.members.filter fun a => !ms'.any fun p => p.equal a) :=
      forall₂_filter hu.members fun a a' ha => by
        rw [any_eq_of_forall₂ hms fun p _ p' hp => hp.equal ha]
    simp only [Ty.infer, isEmpty_eq_of_forall₂ hrest]
    split
    · exact .ok .none
    · rw [Ty.inferEach_eq, Ty.inferEach_eq]
      exact inferAll_spells (forall₂_imp_of_mem hms fun p hp p' _ h => ih p hp h)
        (List.forall₂_map_left_iff.2 (List.forall₂_map_right_iff.2
          (hms.imp fun _ _ _ => spells_join hrest))) .none

/-! ## Tests -/

/-- Types of which both or neither can be tested. -/
def TestAlike (fields : MatchFields) (t t' : Ty) : Prop :=
  ∀ position, Alike anyFailure (fun _ _ => True) (Discriminator.synthesize fields position t)
    (Discriminator.synthesize fields position t')

section

variable {fields : MatchFields}

theorem synthesizeAll_spells {ts ts' : List Ty} (h : List.Forall₂ (TestAlike fields) ts ts') :
    Alike anyFailure (fun _ _ => True) (Discriminator.synthesizeAll fields ts)
      (Discriminator.synthesizeAll fields ts') := by
  induction h with
  | nil =>
    simp only [Discriminator.synthesizeAll]
    exact .ok trivial
  | cons ht _ ih =>
    rw [Discriminator.synthesizeAll, Discriminator.synthesizeAll]
    exact (ht .arm).bind fun _ _ _ => ih.bind fun _ _ _ => .ok trivial

theorem synthesizeWitnesses_spells (decl : Nominal) {ts ts' : List Ty}
    (h : List.Forall₂ (TestAlike fields) ts ts') :
    ∀ (witnesses : List (Option String)) (formals : List String),
    Alike anyFailure (fun _ _ => True)
      (Discriminator.synthesizeWitnesses fields decl witnesses formals ts)
      (Discriminator.synthesizeWitnesses fields decl witnesses formals ts') := by
  induction h with
  | nil =>
    intro witnesses formals
    simp only [Discriminator.synthesizeWitnesses]
    exact .ok trivial
  | cons ht _ ih =>
    intro witnesses formals
    simp only [Discriminator.synthesizeWitnesses]
    split
    · exact .error trivial
    · exact (ht .generic).bind fun _ _ _ => (ih _ _).bind fun _ _ _ => .ok trivial

theorem testAlike_of_spells : ∀ {t t' : Ty}, S.Spells t t' → TestAlike fields t t' := by
  intro t
  induction t with
  | var x =>
    intro t' h position
    obtain ⟨x', -, rfl⟩ := spells_var.1 h
    simp only [Discriminator.synthesize]
    exact .error trivial
  | fn gs ps r =>
    intro t' h position
    obtain ⟨gs', ps', r', -, -, -, rfl⟩ := spells_fn.1 h
    simp only [Discriminator.synthesize]
    exact .error trivial
  | union ms ih =>
    intro t' h position
    obtain ⟨ms', hms, rfl⟩ := spells_union.1 h
    cases position with
    | generic =>
      simp only [Discriminator.synthesize]
      exact .error trivial
    | arm =>
      simp only [Discriminator.synthesize]
      exact (synthesizeAll_spells (forall₂_imp_of_mem hms fun m hm m' _ h => ih m hm h)).map
        fun _ _ _ => trivial
  | named decl args ih =>
    intro t' h position
    obtain ⟨-, args', hargs, rfl⟩ := spells_named.1 h
    have htests := forall₂_imp_of_mem hargs fun a ha a' _ h => ih a ha h
    have hwitnesses := synthesizeWitnesses_spells decl htests
    cases htests with
    | nil =>
      simp only [Discriminator.synthesize]
      split
      · exact .ok trivial
      split
      · exact .error trivial
      · exact (hwitnesses _ _).map fun _ _ _ => trivial
    | cons hfirst _ =>
      simp only [Discriminator.synthesize]
      split
      · exact .ok trivial
      split
      · exact (hfirst .arm).map fun _ _ _ => trivial
      · exact (hwitnesses _ _).map fun _ _ _ => trivial

end

end Respelling

end UnionChecker
