import UnionChecker.Proofs.Check.Simulated
/-!
# Checks in two contexts

`Repeats excused c c'` says that the check `c'` does what `c` does, with the same result, the same
frames and the same failure, unless `c` fails in an excused way. What the checker does in one context
is repeated in another that finds the same (`repeats_checkTerm`, `repeats_inferDeclaration`).

What is excused is up to the use: nothing for contexts that find exactly the same, every failure for
a context that may find more, and a name that is not known yet while types are inferred.
-/

namespace UnionChecker

namespace Check

open Syntax

variable {α : Type} {excused : Failure → Prop}

/-- `c'` does what `c` does, unless `c` fails in an excused way. -/
def Repeats (excused : Failure → Prop) (c c' : Check α) : Prop :=
  ∀ frames, (∃ f, Fails c frames f ∧ excused f) ∨ c'.run.run frames = c.run.run frames

/-- Everything is the same unless it is excused. -/
def Simulation.repeats (excused : Failure → Prop) : Simulation where
  frames := Eq
  step _ _ := True
  inner _ _ := True
  failure := Eq
  excused := excused

theorem repeats_iff_simulates {c c' : Check α} :
    Repeats excused c c' ↔ Simulates (.repeats excused) Eq c c' := by
  constructor
  · rintro h frames _ rfl
    refine (h frames).imp id fun heq => ?_
    rw [heq]
    exact ⟨Alike.refl (fun _ => rfl) (fun _ => rfl) _, rfl, trivial⟩
  · intro h frames
    refine (h frames frames rfl).imp id fun ⟨hresult, hinner, _⟩ => Prod.ext ?_ hinner.symm
    generalize (c.run.run frames).1 = r, (c'.run.run frames).1 = r' at hresult
    cases hresult with
    | ok h => rw [h]
    | error h => rw [show _ = _ from h]

end Check

/-- What a context finds, another one of the same file finds too, unless the search ends in an
excused failure. -/
structure Context.Repeats (excused : Failure → Prop) (Γ Γ' : Context) : Prop where
  failure : ∀ cause span, excused (Γ.failure cause span) ∨
    Γ'.failure cause span = Γ.failure cause span
  relabel : ∀ origin f, excused f → excused (Check.residualFailure origin f)
  type : ∀ frames generics type,
    (∃ f, Γ.resolveType frames generics type = .error f ∧ excused f) ∨
      Γ'.resolveType frames generics type = Γ.resolveType frames generics type
  identifier : ∀ name, Check.Repeats excused (Check.identifier Γ name) (Check.identifier Γ' name)
  fields : ∀ decl args, Γ'.table.fieldsOf decl args = Γ.table.fieldsOf decl args
  tests : ∀ t, Discriminator.ofTy Γ'.table.matchFields t = Discriminator.ofTy Γ.table.matchFields t

namespace Check

open Syntax Likeness

variable {excused : Failure → Prop} {Γ Γ' : Context}

theorem reads_repeats (h : Γ.Repeats excused Γ') :
    (Simulation.repeats excused).Reads (.exact Eq) Γ Γ' where
  likeness := exact_lawful Eq
  refl _ := trivial
  trans _ _ := trivial
  failure := by
    rintro cause _ rfl span
    exact (h.failure cause span).imp id Eq.symm
  type := by
    rintro frames _ rfl gs gs' hgs type _ rfl
    obtain rfl : gs = gs' := eq_of_forall₂ id hgs
    refine (h.type frames gs type).imp id fun heq => ?_
    rw [heq]
    exact Alike.refl (fun _ => rfl) (fun _ => rfl) _

theorem follows_repeats (h : Γ.Repeats excused Γ') :
    (Simulation.repeats excused).Follows (.exact Eq) Γ Γ' where
  toReads := reads_repeats h
  inner_refl _ := trivial
  inner_trans _ _ := trivial
  inner_of_step _ := trivial
  step_of_inner _ := trivial
  push := congrArg Frames.push
  pop := congrArg Frames.pop
  relabel horigin _ _ hf := congrArg₂ residualFailure horigin hf
  excuse hf origin := h.relabel origin _ hf
  identifier name := repeats_iff_simulates.1 (h.identifier name)
  define _ _ _ ht := ht ▸ simulates_sameChange (reads_repeats h) rfl fun _ => trivial
  generic hx := hx ▸ simulates_sameChange (reads_repeats h) rfl fun _ => trivial
  fields := rel_fieldsOf h.fields
  tests := alike_tests h.tests

/-- **Checking a term comes to the same** in a context that finds the same. -/
theorem repeats_checkTerm (h : Γ.Repeats excused Γ') (t : Term) (expected : Option Ty) :
    Repeats excused (checkTerm Γ t expected) (checkTerm Γ' t expected) :=
  repeats_iff_simulates.2
    (simulates_checkTerm (follows_repeats h) t (.refl t) (rel_refl (fun _ => rfl) expected))

theorem repeats_checkCall (h : Γ.Repeats excused Γ') (args : Arguments) (subject : TypedExpr)
    (expected : Option Ty) (span : Span) :
    Repeats excused (checkCall Γ args subject expected span)
      (checkCall Γ' args subject expected span) :=
  repeats_iff_simulates.2 (simulates_checkCall (follows_repeats h) args (.refl args) rfl
    (rel_refl (fun _ => rfl) expected))

/-- **Inferring the type of a declaration comes to the same** in a context that finds the same. -/
theorem repeats_inferDeclaration (h : Γ.Repeats excused Γ') (d : Declaration) :
    Repeats excused (inferDeclaration Γ d) (inferDeclaration Γ' d) :=
  repeats_iff_simulates.2
    (simulates_inferDeclaration (follows_repeats h) ⟨rfl, rel_refl (fun _ => rfl) _, .refl _⟩)

end Check

end UnionChecker
