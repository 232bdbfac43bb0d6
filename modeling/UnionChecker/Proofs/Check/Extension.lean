import UnionChecker.Proofs.Check.Inversion
import UnionChecker.Proofs.Check.Repeats
/-!
# Checks in a larger context

A context may learn the types of further package-level names. What was accepted before is accepted
then, with the same tree (`refines_checkTerm`): no check succeeds because something is unknown.
-/

namespace UnionChecker

/-- `Γ.Le Γ'` iff everything that `Γ` finds is the same in `Γ'`. -/
structure Context.Le (Γ Γ' : Context) : Prop where
  type : ∀ {frames : Frames} {generics : List String} {type : Syntax.TypeExpr} {t : Ty},
    Γ.resolveType frames generics type = .ok t → Γ'.resolveType frames generics type = .ok t
  value : ∀ {frames : Frames} {name : String} {found : Resolved},
    Γ.resolveValue frames name = .ok found → Γ'.resolveValue frames name = .ok found
  fields : ∀ decl args, Γ'.table.fieldsOf decl args = Γ.table.fieldsOf decl args
  matchFields : Γ'.table.matchFields = Γ.table.matchFields

namespace Check

open Syntax

variable {α β : Type}

/-- Whatever the first check comes to, the second one comes to as well. -/
def Refines (c c' : Check α) : Prop :=
  ∀ frames a frames', Runs c frames a frames' → Runs c' frames a frames'

theorem Refines.refl (c : Check α) : Refines c c := fun _ _ _ h => h

theorem Refines.bind {c c' : Check α} {f f' : α → Check β} (hc : Refines c c')
    (hf : ∀ a, Refines (f a) (f' a)) : Refines (c >>= f) (c' >>= f') := by
  intro frames b frames' h
  obtain ⟨a, inner, ha, hb⟩ := runs_bind.1 h
  exact runs_bind.2 ⟨a, inner, hc _ _ _ ha, hf a _ _ _ hb⟩

/-- A check refines another one iff it repeats it with every failure excused. -/
theorem refines_iff_repeats {c c' : Check α} : Refines c c' ↔ Repeats (fun _ => True) c c' := by
  constructor
  · intro h frames
    rcases hrun : c.run.run frames with ⟨f | a, inner⟩
    · exact .inl ⟨f, congrArg Prod.fst hrun, trivial⟩
    · exact .inr (h frames a inner hrun)
  · intro h frames a frames' hrun
    rcases h frames with ⟨f, hf, -⟩ | heq
    · cases hf.symm.trans (congrArg Prod.fst hrun)
    · exact heq.trans hrun

variable {Γ Γ' : Context}

theorem repeats_of_le (hΓ : Γ.Le Γ') : Γ.Repeats (fun _ => True) Γ' where
  failure _ _ := .inl trivial
  relabel _ _ _ := trivial
  type frames generics type := by
    cases h : Γ.resolveType frames generics type with
    | error f => exact .inl ⟨f, rfl, trivial⟩
    | ok t => exact .inr (hΓ.type h)
  identifier name := refines_iff_repeats.1 fun frames e frames' h => by
    obtain ⟨found, hfound, rfl, rfl⟩ := runs_identifier.1 h
    exact runs_identifier.2 ⟨found, hΓ.value hfound, rfl, rfl⟩
  fields := hΓ.fields
  tests _ := by rw [hΓ.matchFields]

theorem refines_checkTerm (hΓ : Γ.Le Γ') (t : Term) (expected : Option Ty) :
    Refines (checkTerm Γ t expected) (checkTerm Γ' t expected) :=
  refines_iff_repeats.2 (repeats_checkTerm (repeats_of_le hΓ) t expected)

theorem refines_checkCall (hΓ : Γ.Le Γ') (args : Arguments) (subject : TypedExpr)
    (expected : Option Ty) (span : Span) :
    Refines (checkCall Γ args subject expected span) (checkCall Γ' args subject expected span) :=
  refines_iff_repeats.2 (repeats_checkCall (repeats_of_le hΓ) args subject expected span)

end Check

end UnionChecker
