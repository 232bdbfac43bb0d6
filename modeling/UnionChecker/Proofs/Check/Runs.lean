import UnionChecker.Proofs.Check.Yields
/-!
# Runs of checks

`Runs c frames a frames'` says that the check `c`, started in `frames`, succeeds with `a` and leaves
`frames'`. There is one equivalence for each way of building a check. `Fails c frames f` says that
it fails with `f`.
-/

namespace UnionChecker.Check

open Syntax

variable {α β : Type} {Γ : Context} {frames frames' : Frames} {span : Span} {expected : Option Ty}

/-- A successful run of a check. -/
def Runs (c : Check α) (frames : Frames) (a : α) (frames' : Frames) : Prop :=
  c.run.run frames = (.ok a, frames')

theorem Runs.unique {c : Check α} {a b : α} {inner : Frames} (ha : Runs c frames a inner)
    (hb : Runs c frames b frames') : a = b ∧ inner = frames' := by
  have h : (Except.ok a, inner) = (Except.ok b, frames') := ha.symm.trans hb
  cases h
  exact ⟨rfl, rfl⟩

/-! ## Ways of building checks -/

@[simp] theorem runs_pure {a b : α} :
    Runs (pure a) frames b frames' ↔ b = a ∧ frames' = frames := by
  constructor
  · intro h
    cases h
    exact ⟨rfl, rfl⟩
  · rintro ⟨rfl, rfl⟩
    rfl

@[simp] theorem not_runs_fail {cause : Cause} {a : α} :
    ¬ Runs (fail Γ cause span) frames a frames' := by
  intro h
  cases h

@[simp] theorem runs_bind {c : Check α} {f : α → Check β} {b : β} :
    Runs (c >>= f) frames b frames' ↔
      ∃ a inner, Runs c frames a inner ∧ Runs (f a) inner b frames' := by
  rw [Runs, run_bind]
  constructor
  · intro h
    split at h
    · exact ⟨_, _, ‹_›, h⟩
    · cases h
  · rintro ⟨a, inner, ha, hb⟩
    rw [ha]
    exact hb

/-- A check whose result is only given another form. -/
theorem runs_bind_pure {c : Check α} {g : α → β} {b : β} :
    Runs (c >>= fun a => pure (g a)) frames b frames' ↔
      ∃ a, Runs c frames a frames' ∧ b = g a := by
  simp only [runs_bind, runs_pure]
  constructor
  · rintro ⟨a, _, ha, rfl, rfl⟩
    exact ⟨a, ha, rfl⟩
  · rintro ⟨a, ha, rfl⟩
    exact ⟨a, _, ha, rfl, rfl⟩

theorem runs_ite {p : Prop} [Decidable p] {c d : Check α} {a : α} :
    Runs (if p then c else d) frames a frames' ↔
      p ∧ Runs c frames a frames' ∨ ¬ p ∧ Runs d frames a frames' := by
  split <;> simp [*]

@[simp] theorem runs_ofExcept {result : Except Failure α} {a : α} :
    Runs (ofExcept result) frames a frames' ↔ result = .ok a ∧ frames' = frames := by
  constructor
  · intro h
    cases h
    exact ⟨rfl, rfl⟩
  · rintro ⟨rfl, rfl⟩
    rfl

theorem mapError_eq_ok {ε ε' : Type} {f : ε → ε'} {result : Except ε α} {a : α} :
    result.mapError f = .ok a ↔ result = .ok a := by
  cases result with
  | error e => exact iff_of_false (fun h => by cases h) (fun h => by cases h)
  | ok b => exact ⟨fun h => by cases h; rfl, fun h => by cases h; rfl⟩

@[simp] theorem runs_ofAlgebra {result : Except TyError α} {a : α} :
    Runs (ofAlgebra Γ span result) frames a frames' ↔ result = .ok a ∧ frames' = frames := by
  rw [ofAlgebra, runs_ofExcept, mapError_eq_ok]

@[simp] theorem runs_inFrame {c : Check α} {a : α} :
    Runs (inFrame c) frames a frames' ↔
      ∃ inner, Runs c frames.push a inner ∧ frames' = inner.pop := by
  show ((c.run.run frames.push).1, Frames.pop (c.run.run frames.push).2) = _ ↔ _
  constructor
  · intro h
    obtain ⟨hresult, hframes⟩ := Prod.mk.inj h
    exact ⟨_, Prod.ext hresult rfl, hframes.symm⟩
  · rintro ⟨inner, hinner, rfl⟩
    rw [hinner]

@[simp] theorem runs_mapFailure {f : Failure → Failure} {c : Check α} {a : α} :
    Runs (mapFailure f c) frames a frames' ↔ Runs c frames a frames' := by
  show ((c.run.run frames).1.mapError f, (c.run.run frames).2) = _ ↔ c.run.run frames = _
  rw [Prod.mk.injEq, mapError_eq_ok, Prod.ext_iff]

@[simp] theorem runs_resolve {type : TypeExpr} {t : Ty} :
    Runs (resolve Γ type) frames t frames' ↔
      Γ.resolveType frames [] type = .ok t ∧ frames' = frames := by
  show (Γ.resolveType frames [] type, frames) = _ ↔ _
  rw [Prod.mk.injEq, eq_comm (a := frames)]

@[simp] theorem runs_define {name : Name} {ty : Ty} {u : Unit} :
    Runs (define Γ name ty) frames u frames' ↔ frames.defineValue name.text ty = some frames' := by
  simp only [Runs, define, ExceptT.run, StateT.run]
  cases frames.defineValue name.text ty with
  | none => exact iff_of_false (fun h => by cases h) (fun h => by cases h)
  | some inner => exact ⟨fun h => by cases h; rfl, fun h => by cases h; rfl⟩

@[simp] theorem runs_defineGeneric {name : Name} {u : Unit} :
    Runs (defineGeneric Γ name) frames u frames' ↔
      frames.defineGeneric name.text = some frames' := by
  simp only [Runs, defineGeneric, ExceptT.run, StateT.run]
  cases frames.defineGeneric name.text with
  | none => exact iff_of_false (fun h => by cases h) (fun h => by cases h)
  | some inner => exact ⟨fun h => by cases h; rfl, fun h => by cases h; rfl⟩

/-- A type may stand where something is wanted, or nothing is wanted. -/
def Fits (t : Ty) (expected : Option Ty) : Prop :=
  ∀ wanted ∈ expected, t.isAssignable wanted = true

@[simp] theorem fits_none (t : Ty) : Fits t none := by simp [Fits]

@[simp] theorem fits_some {t wanted : Ty} : Fits t (some wanted) ↔ t.isAssignable wanted = true := by
  simp [Fits]

@[simp] theorem runs_requireAssignable {found wanted : Ty} {u : Unit} :
    Runs (requireAssignable Γ found wanted span) frames u frames' ↔
      found.isAssignable wanted = true ∧ frames' = frames := by
  simp [requireAssignable, runs_ite]

@[simp] theorem runs_requireExpected {found : Ty} {u : Unit} :
    Runs (requireExpected Γ found expected span) frames u frames' ↔
      Fits found expected ∧ frames' = frames := by
  cases expected <;> simp [requireExpected]

/-! ## Failed runs -/

/-- A failed run of a check. -/
def Fails (c : Check α) (frames : Frames) (f : Failure) : Prop := (c.run.run frames).1 = .error f

theorem Fails.bind {c : Check α} {f : Failure} (h : Fails c frames f) (k : α → Check β) :
    Fails (c >>= k) frames f := by
  rw [Fails, run_bind]
  unfold Fails at h
  split
  · rename_i hrun
    rw [hrun] at h
    cases h
  · rename_i hrun
    rw [hrun] at h
    cases h
    rfl

theorem Runs.bind_fails {c : Check α} {k : α → Check β} {a : α} {f : Failure}
    (h : Runs c frames a frames') (hk : Fails (k a) frames' f) : Fails (c >>= k) frames f := by
  rw [Fails, run_bind, h]
  exact hk

theorem fails_fail {cause : Cause} : Fails (fail Γ cause span : Check α) frames
    (Γ.failure cause span) := rfl

theorem Fails.inFrame {c : Check α} {f : Failure} (h : Fails c frames.push f) :
    Fails (inFrame c) frames f := h

theorem Fails.mapFailure {c : Check α} {f : Failure} (h : Fails c frames f)
    (g : Failure → Failure) : Fails (mapFailure g c) frames (g f) := by
  show (c.run.run frames).1.mapError g = _
  rw [show (c.run.run frames).1 = _ from h]
  rfl

end UnionChecker.Check
