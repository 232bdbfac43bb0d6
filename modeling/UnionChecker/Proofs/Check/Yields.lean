import UnionChecker.Check.Monad
/-!
# What a check yields

`Yields c Q` says that whatever the frames, a result of the check `c` has the property `Q`; a check
that fails has no result. What a check yields after another follows from what the two yield, with no
look at frames.
-/

namespace UnionChecker.Check

variable {α β : Type} {P Q : α → Prop}

/-- Every result of a check has a property. -/
def Yields (c : Check α) (Q : α → Prop) : Prop :=
  ∀ frames a frames', c.run.run frames = (.ok a, frames') → Q a

theorem Yields.mono {c : Check α} (h : Yields c P) (hPQ : ∀ a, P a → Q a) : Yields c Q :=
  fun frames a frames' hr => hPQ a (h frames a frames' hr)

theorem yields_true (c : Check α) : Yields c fun _ => True := fun _ _ _ _ => trivial

theorem yields_pure {a : α} (h : Q a) : Yields (pure a) Q := by
  intro frames b frames' hr
  cases hr
  exact h

theorem yields_fail {Γ : Context} {cause : Cause} {span : Syntax.Span} :
    Yields (fail Γ cause span) Q := by
  intro frames b frames' hr
  cases hr

theorem run_bind (c : Check α) (f : α → Check β) (frames : Frames) :
    (c >>= f).run.run frames =
      match c.run.run frames with
      | (.ok a, frames') => (f a).run.run frames'
      | (.error e, frames') => (.error e, frames') := by
  show ExceptT.bindCont f (c.run.run frames).1 (c.run.run frames).2 = _
  rcases c.run.run frames with ⟨_ | _, frames'⟩ <;> rfl

theorem Yields.bind {c : Check α} {f : α → Check β} {R : β → Prop} (hc : Yields c P)
    (hf : ∀ a, P a → Yields (f a) R) : Yields (c >>= f) R := by
  intro frames b frames' hr
  rw [run_bind] at hr
  split at hr
  · rename_i a inner ha
    exact hf a (hc frames a inner ha) inner b frames' hr
  · cases hr

end UnionChecker.Check
