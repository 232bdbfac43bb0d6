import UnionChecker.Check.Expr
import UnionChecker.Proofs.Binding.Rounds
/-!
# Checks depend on what a context finds

Two contexts of one file may be built differently. When they find the same for every name, each
check is the same in both (`checkTerm_congr`): its result, the frames it leaves and its failure. So
it is with tables that differ in the order of their entries only (`Table.Agrees.same`).
-/

namespace UnionChecker

/-! ## Contexts that find the same -/

/-- `Γ.Same Γ'` iff the contexts belong to one file and find the same everywhere. -/
structure Context.Same (Γ Γ' : Context) : Prop where
  file : Γ'.file = Γ.file
  types : ∀ frames name, Γ'.lookupType frames name = Γ.lookupType frames name
  values : ∀ frames name, Γ'.resolveValue frames name = Γ.resolveValue frames name
  fields : ∀ decl args, Γ'.table.fieldsOf decl args = Γ.table.fieldsOf decl args
  tests : ∀ t, Discriminator.ofTy Γ'.table.matchFields t = Discriminator.ofTy Γ.table.matchFields t

namespace Context.Same

variable {Γ Γ' : Context} (h : Γ.Same Γ')
include h

theorem failure (cause : Cause) (span : Syntax.Span) :
    Γ'.failure cause span = Γ.failure cause span := by
  rw [Context.failure, Context.failure, h.file]

theorem typeAt (frames : Frames) (generics : List String) (name : Syntax.Name) (args : List Ty) :
    Γ'.typeAt frames generics name args = Γ.typeAt frames generics name args := by
  simp only [Context.typeAt, Context.genericAt, Context.wrongCount, h.types, h.failure]

theorem resolveType (frames : Frames) (generics : List String) (type : Syntax.TypeExpr) :
    Γ'.resolveType frames generics type = Γ.resolveType frames generics type :=
  resolveType_congr (h.typeAt frames) h.file generics type

end Context.Same

/-! ## Tables that find the same -/

namespace Discriminator

variable {m m' : MatchFields}

mutual

theorem synthesize_congr (h : SameEntries m m') : ∀ (position : Position) (t : Ty),
    synthesize m' position t = synthesize m position t
  | .arm, .union ms => by rw [synthesize, synthesize, synthesizeAll_congr ms h]
  | .generic, .union _ => by rw [synthesize, synthesize]
  | _, .var _ => by rw [synthesize, synthesize]
  | _, .fn _ _ _ => by rw [synthesize, synthesize]
  | _, .named decl [] => by simp only [synthesize, synthesizeWitnesses]
  | _, .named decl (t :: ts) => by
    simp only [synthesize, h decl.ref, synthesize_congr h .arm t,
      synthesizeWitnesses_congr h (t :: ts)]

theorem synthesizeAll_congr : ∀ ts : List Ty, SameEntries m m' →
    synthesizeAll m' ts = synthesizeAll m ts
  | [], _ => by rw [synthesizeAll, synthesizeAll]
  | t :: ts, h => by
    simp only [synthesizeAll, synthesize_congr h .arm t, synthesizeAll_congr ts h]

theorem synthesizeWitnesses_congr (h : SameEntries m m') : ∀ (ts : List Ty) (decl : Nominal)
    (fields : List (Option String)) (formals : List String),
    synthesizeWitnesses m' decl fields formals ts = synthesizeWitnesses m decl fields formals ts
  | [], _, _, _ => by rw [synthesizeWitnesses, synthesizeWitnesses]
  | t :: ts, _, _, _ => by
    simp only [synthesizeWitnesses, synthesize_congr h .generic t, synthesizeWitnesses_congr h ts]

end

end Discriminator

namespace Table

/-- `t.Agrees t'` iff both tables have the same entries, perhaps in another order. -/
structure Agrees (t t' : Table) : Prop where
  package : t'.package = t.package
  types : SameEntries t.types t'.types
  values : SameEntries t.values t'.values
  fileTypes : SameEntries t.fileTypes t'.fileTypes
  fileValues : SameEntries t.fileValues t'.fileValues
  fields : SameEntries t.fields t'.fields
  typeAliases : SameEntries t.typeAliases t'.typeAliases
  constructors : SameEntries t.constructors t'.constructors
  natives : SameEntries t.natives t'.natives
  nativePackages : SameEntries t.nativePackages t'.nativePackages
  matchFields : SameEntries t.matchFields t'.matchFields

namespace Agrees

variable {t t' t'' : Table}

theorem refl (t : Table) : t.Agrees t :=
  ⟨rfl, .refl _, .refl _, .refl _, .refl _, .refl _, .refl _, .refl _, .refl _, .refl _, .refl _⟩

theorem trans (h : t.Agrees t') (h' : t'.Agrees t'') : t.Agrees t'' where
  package := h'.package.trans h.package
  types := h.types.trans h'.types
  values := h.values.trans h'.values
  fileTypes := h.fileTypes.trans h'.fileTypes
  fileValues := h.fileValues.trans h'.fileValues
  fields := h.fields.trans h'.fields
  typeAliases := h.typeAliases.trans h'.typeAliases
  constructors := h.constructors.trans h'.constructors
  natives := h.natives.trans h'.natives
  nativePackages := h.nativePackages.trans h'.nativePackages
  matchFields := h.matchFields.trans h'.matchFields

theorem hasPackageName (h : t.Agrees t') (name : String) :
    t'.hasPackageName name = t.hasPackageName name := by
  rw [Table.hasPackageName, Table.hasPackageName, h.types.hasKey, h.values.hasKey]

theorem same (h : t.Agrees t') (file : String) {pending pending' : List String}
    (hpending : ∀ x, x ∈ pending' ↔ x ∈ pending) :
    Context.Same ⟨t, file, pending⟩ ⟨t', file, pending'⟩ where
  file := rfl
  types frames name := by
    simp only [Context.lookupType, h.types name, h.fileTypes (file, name)]
  values frames name := by
    simp only [Context.resolveValue, h.fileValues (file, name), h.values name, h.package,
      List.contains_iff_mem, hpending]
  fields decl args := by simp only [fieldsOf, h.fields decl.ref]
  tests := Discriminator.synthesize_congr h.matchFields .arm

end Agrees

end Table

namespace Check

open Syntax

variable {Γ Γ' : Context}

/-! ## Checks that are the same -/

theorem eq_of_repeats {α : Type} {c c' : Check α} (h : Repeats (fun _ => False) c c') : c' = c := by
  funext frames
  rcases h frames with ⟨_, _, hexcused⟩ | heq
  · exact hexcused.elim
  · exact heq

theorem repeats_of_same (h : Γ.Same Γ') : Γ.Repeats (fun _ => False) Γ' where
  failure cause span := .inr (h.failure cause span)
  relabel _ _ hexcused := hexcused
  type frames generics type := .inr (h.resolveType frames generics type)
  identifier name frames := .inr (by
    show identifier Γ' name frames = identifier Γ name frames
    simp only [identifier, h.values, h.failure])
  fields := h.fields
  tests := h.tests

theorem checkTerm_congr (h : Γ.Same Γ') (t : Term) (expected : Option Ty) :
    checkTerm Γ' t expected = checkTerm Γ t expected :=
  eq_of_repeats (repeats_checkTerm (repeats_of_same h) t expected)

theorem inferDeclaration_congr (h : Γ.Same Γ') (d : Declaration) :
    inferDeclaration Γ' d = inferDeclaration Γ d :=
  eq_of_repeats (repeats_inferDeclaration (repeats_of_same h) d)

theorem checkDeclaration_congr (h : Γ.Same Γ') (d : Declaration) (ty : Ty) :
    checkDeclaration Γ' d ty = checkDeclaration Γ d ty := by
  simp only [checkDeclaration, checkTerm_congr h]

end Check

end UnionChecker
