import UnionChecker.Proofs.Spelling.Types
import UnionChecker.Proofs.Syntax.Names
import UnionChecker.Scope.TypeExpr
/-!
# Written types do not depend on how generics are spelled

What is in scope is related by a respelling `S` if generics have their other names, types of values
are spelled alike, and names of types stand for the same things (`SpellsContext`, `SpellsFrame`). Then
written types that are respelled stand for respelled types (`resolveType_spells`).
-/

namespace UnionChecker

open Syntax

/-- Failures of which both or neither wait for the type of a name. -/
def Failure.Resembles (f f' : Failure) : Prop := f'.isUndetermined = f.isUndetermined

namespace Respelling

variable (S : Respelling)

/-- The wording that a respelling is for. -/
def wording : Wording := ⟨S.generic, S.written⟩

/-- What the name `x` of a type stands for, with either spelling. -/
inductive SpellsSymbol (x : String) : TypeSymbol → TypeSymbol → Prop
  | named {decl : Nominal} {args args' : List Ty} (h : S.decl decl) :
      SpellsSymbol x (.named decl args) (.named decl args')
  | synonym {gs gs' : List String} {t t' : Ty} (hgs : List.Forall₂ S.SpellsName gs gs')
      (ht : S.Spells t t') : SpellsSymbol x (.synonym gs t) (.synonym gs' t')
  | generic (h : S.generic x) : SpellsSymbol x .generic .generic

/-- Related frames. -/
structure SpellsFrame (frame frame' : Frame) : Prop where
  values : List.Forall₂ S.SpellsParam frame.values frame'.values
  generics : List.Forall₂ S.SpellsName frame.generics frame'.generics

/-- Related tables. Only types of package values are spelled with other names. -/
structure SpellsTable (table table' : Table) : Prop where
  types : table'.types = table.types
  fileTypes : table'.fileTypes = table.fileTypes
  fileValues : table'.fileValues = table.fileValues
  fields : table'.fields = table.fields
  matchFields : table'.matchFields = table.matchFields
  values : List.Forall₂ S.SpellsParam table.values table'.values
  imported : ∀ entry ∈ table.fileValues, S.Spells entry.2.type entry.2.type
  symbol : ∀ file x, S.written x →
    Option.Rel (S.SpellsSymbol x) (Context.lookupType { table, file } [] x)
      (Context.lookupType { table, file } [] (S.spell x))
  fieldsOf : ∀ decl args args', S.decl decl → List.Forall₂ S.Spells args args' →
    Option.Rel (List.Forall₂ S.SpellsParam) (table.fieldsOf decl args) (table.fieldsOf decl args')

/-- Related contexts. -/
structure SpellsContext (Γ Γ' : Context) : Prop where
  table : S.SpellsTable Γ.table Γ'.table
  file : Γ'.file = Γ.file
  pending : Γ'.pending = Γ.pending

variable {S} {Γ Γ' : Context} {frames frames' : Frames} {gs gs' : List String}

/-! ## Names in scope -/

theorem hasGeneric_spells {x : String} (hframes : List.Forall₂ S.SpellsFrame frames frames')
    (hx : S.written x) : frames'.hasGeneric (S.spell x) = frames.hasGeneric x :=
  any_eq_of_forall₂ hframes fun _ _ _ h => contains_spell hx h.generics

theorem generic_of_contains {x : String} (hgs : List.Forall₂ S.SpellsName gs gs')
    (h : gs.contains x = true) : S.generic x :=
  (forall₂_spellsName.1 hgs).1 x (List.contains_iff_mem.1 h)

theorem generic_of_hasGeneric {x : String} (hframes : List.Forall₂ S.SpellsFrame frames frames')
    (h : frames.hasGeneric x = true) : S.generic x := by
  obtain ⟨frame, hframe, hx⟩ := List.any_eq_true.1 h
  obtain ⟨frame', -, h⟩ := forall₂_mem_left hframes hframe
  exact generic_of_contains h.generics hx

theorem lookupType_spells {x : String} (hΓ : S.SpellsContext Γ Γ')
    (hframes : List.Forall₂ S.SpellsFrame frames frames') (hx : S.written x) :
    Option.Rel (S.SpellsSymbol x) (Γ.lookupType frames x) (Γ'.lookupType frames' (S.spell x)) := by
  have hsymbol := hΓ.table.symbol Γ.file x hx
  simp only [Context.lookupType, Frames.hasGeneric, List.any_nil, Bool.false_eq_true, if_false]
    at hsymbol
  rw [Context.lookupType, Context.lookupType, hasGeneric_spells hframes hx, hΓ.file,
    hΓ.table.types, hΓ.table.fileTypes]
  split
  · rename_i h
    exact .some (.generic (generic_of_hasGeneric hframes h))
  · exact hsymbol

theorem value?_spells (hframes : List.Forall₂ S.SpellsFrame frames frames') (x : String) :
    Option.Rel S.Spells (frames.value? x) (frames'.value? x) := by
  induction hframes with
  | nil => exact .none
  | @cons frame frame' _ _ h _ ih =>
    simp only [Frames.value?, List.findSome?_cons]
    rcases lookup_related h.values with ⟨hnone, hnone'⟩ | ⟨t, t', hsome, hsome', ht⟩
    · rw [hnone, hnone']
      exact ih
    · rw [hsome, hsome']
      exact .some ht

/-! ## Written types -/

theorem genericAt_spells {name : Name} {args args' : List Ty} (hname : S.generic name.text)
    (hargs : List.Forall₂ S.Spells args args') :
    Alike Failure.Resembles S.Spells (Γ.genericAt name args)
      (Γ'.genericAt (name.respell S.spell) args') := by
  cases hargs with
  | nil => exact .ok (spells_var.2 ⟨_, ⟨hname, rfl⟩, rfl⟩)
  | cons _ _ => exact .error rfl

theorem typeAt_spells {name : Name} {args args' : List Ty} (hΓ : S.SpellsContext Γ Γ')
    (hframes : List.Forall₂ S.SpellsFrame frames frames')
    (hgs : List.Forall₂ S.SpellsName gs gs') (hname : S.written name.text)
    (hargs : List.Forall₂ S.Spells args args') :
    Alike Failure.Resembles S.Spells (Γ.typeAt frames gs name args)
      (Γ'.typeAt frames' gs' (name.respell S.spell) args') := by
  simp only [Context.typeAt, Name.text_respell, contains_spell hname hgs]
  split
  · rename_i h
    exact genericAt_spells (generic_of_contains hgs h) hargs
  have hsymbol := lookupType_spells hΓ hframes hname
  generalize Γ.lookupType frames name.text = symbol,
    Γ'.lookupType frames' (S.spell name.text) = symbol' at hsymbol
  cases hsymbol with
  | none => exact .error rfl
  | some hsymbol =>
    cases hsymbol with
    | generic h => exact genericAt_spells h hargs
    | named hdecl =>
      simp only [hargs.length_eq]
      split
      · exact .ok (spells_named.2 ⟨hdecl, _, hargs, rfl⟩)
      · exact .error rfl
    | synonym hformals ht =>
      simp only [hargs.length_eq, hformals.length_eq]
      split
      · exact .ok (ht.resolve (forall₂_ofLists hformals hargs))
      · exact .error rfl

theorem forall₂_names {names : List Name} (h : S.wording.Binds names) :
    List.Forall₂ S.SpellsName (names.map (·.text))
      ((names.map (·.respell S.spell)).map (·.text)) := by
  rw [forall₂_spellsName]
  exact ⟨List.forall_mem_map.2 h, by simp [Function.comp_def]⟩

section

set_option linter.unusedSectionVars false

variable (hΓ : S.SpellsContext Γ Γ') (hframes : List.Forall₂ S.SpellsFrame frames frames')
include hΓ hframes

mutual

/-- **Respelled written types stand for respelled types.** -/
theorem resolveType_spells : ∀ (type : TypeExpr), type.Uses S.wording → ∀ {gs gs' : List String},
    List.Forall₂ S.SpellsName gs gs' → Alike Failure.Resembles S.Spells
      (Γ.resolveType frames gs type) (Γ'.resolveType frames' gs' (type.respell S.spell))
  | ⟨alternatives, _⟩, hu, gs, gs', hgs => by
    rw [TypeExpr.Uses] at hu
    rw [TypeExpr.respell, Context.resolveType, Context.resolveType]
    exact (resolveAlternatives_spells alternatives hu hgs).map fun _ _ => spells_join

theorem resolveAlternative_spells : ∀ (a : Alternative), a.Uses S.wording → ∀ {gs gs' : List String},
    List.Forall₂ S.SpellsName gs gs' → Alike Failure.Resembles S.Spells
      (Γ.resolveAlternative frames gs a) (Γ'.resolveAlternative frames' gs' (a.respell S.spell))
  | .hole span, _, _, _, _ => by
    rw [Alternative.respell, Context.resolveAlternative, Context.resolveAlternative]
    exact .error rfl
  | .named name args, hu, gs, gs', hgs => by
    rw [Alternative.Uses] at hu
    rw [Alternative.respell, Context.resolveAlternative, Context.resolveAlternative]
    refine (resolveTypes_spells args hu.2 hgs).bind fun ts ts' hts => ?_
    exact typeAt_spells hΓ hframes hgs hu.1 hts
  | .fn bound params result span, hu, gs, gs', hgs => by
    rw [Alternative.Uses] at hu
    have hbound := forall₂_names hu.1
    have hinner := List.rel_append hgs hbound
    rw [Alternative.respell, Context.resolveAlternative, Context.resolveAlternative]
    refine (resolveParams_spells params hu.2.1 hinner).bind fun ps ps' hps => ?_
    refine (resolveType_spells result hu.2.2 hinner).bind fun r r' hr => ?_
    exact .ok (spells_fn.2 ⟨_, _, _, hbound, hps, hr, rfl⟩)

theorem resolveAlternatives_spells : ∀ (as : List Alternative), alternativesUse S.wording as →
    ∀ {gs gs' : List String}, List.Forall₂ S.SpellsName gs gs' → Alike Failure.Resembles (List.Forall₂ S.Spells)
      (Γ.resolveAlternatives frames gs as)
      (Γ'.resolveAlternatives frames' gs' (respellAlternatives S.spell as))
  | [], _, _, _, _ => by
    rw [respellAlternatives, Context.resolveAlternatives, Context.resolveAlternatives]
    exact .ok .nil
  | a :: as, hu, gs, gs', hgs => by
    rw [alternativesUse] at hu
    rw [respellAlternatives, Context.resolveAlternatives, Context.resolveAlternatives]
    refine (resolveAlternative_spells a hu.1 hgs).bind fun t t' ht => ?_
    exact (resolveAlternatives_spells as hu.2 hgs).bind fun ts ts' hts =>
      .ok (.cons ht hts)

theorem resolveTypes_spells : ∀ (types : List TypeExpr), typesUse S.wording types →
    ∀ {gs gs' : List String}, List.Forall₂ S.SpellsName gs gs' → Alike Failure.Resembles (List.Forall₂ S.Spells)
      (Γ.resolveTypes frames gs types) (Γ'.resolveTypes frames' gs' (respellTypes S.spell types))
  | [], _, _, _, _ => by
    rw [respellTypes, Context.resolveTypes, Context.resolveTypes]
    exact .ok .nil
  | type :: types, hu, gs, gs', hgs => by
    rw [typesUse] at hu
    rw [respellTypes, Context.resolveTypes, Context.resolveTypes]
    refine (resolveType_spells type hu.1 hgs).bind fun t t' ht => ?_
    exact (resolveTypes_spells types hu.2 hgs).bind fun ts ts' hts =>
      .ok (.cons ht hts)

theorem resolveParams_spells : ∀ (params : List (Option Name × TypeExpr)), paramsUse S.wording params →
    ∀ {gs gs' : List String}, List.Forall₂ S.SpellsName gs gs' →
    Alike Failure.Resembles (List.Forall₂ S.SpellsParam) (Γ.resolveParams frames gs params)
      (Γ'.resolveParams frames' gs' (respellParams S.spell params))
  | [], _, _, _, _ => by
    rw [respellParams, Context.resolveParams, Context.resolveParams]
    exact .ok .nil
  | (name, type) :: params, hu, gs, gs', hgs => by
    rw [paramsUse] at hu
    rw [respellParams, Context.resolveParams, Context.resolveParams]
    refine (resolveType_spells type hu.1 hgs).bind fun t t' ht => ?_
    exact (resolveParams_spells params hu.2 hgs).bind fun ps ps' hps =>
      .ok (.cons ⟨rfl, ht⟩ hps)

end

end

end Respelling

end UnionChecker
