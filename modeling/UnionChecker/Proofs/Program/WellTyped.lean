import UnionChecker.Proofs.Check.Accepted
import UnionChecker.Syntax.Construct
/-!
# Well-typed trees

Whatever the checker accepts is well typed at every node (`TypedExpr.WellTyped`), and has the type
that was wanted (`checkTerm_wellTyped`): being well typed is one of the things that the checker sees
to at every node it makes.
-/

namespace UnionChecker

open Syntax

namespace Check

theorem makes_wellTyped (Γ : Context) (names : List String) :
    Makes Γ (fun _ => True) names TypedExpr.WellTyped where
  frames := Frames.closed_true
  reference _ _ := trivial
  node _ hsound := hsound.types

/-- All nodes are well typed, and the expression has the type that is wanted. -/
theorem typed_checkTerm (Γ : Context) (t : Term) {expected : Option Ty} {frames frames' : Frames}
    {e : TypedExpr} (h : Runs (checkTerm Γ t expected) frames e frames') :
    e.Everywhere TypedExpr.WellTyped ∧ Fits e.ty expected :=
  (made_checkTerm (makes_wellTyped Γ t.binders) (List.Subset.refl _) trivial h).1

/-- **What the checker accepts is well typed at every node.** In every scope, for every term and
whatever is wanted of it: all nodes of the typed tree fit together, and the tree has the wanted
type. -/
theorem checkTerm_wellTyped {Γ : Context} {t : Term} {expected : Option Ty}
    {frames frames' : Frames} {e : TypedExpr}
    (h : (checkTerm Γ t expected).run.run frames = (.ok e, frames')) :
    (∀ n ∈ e.nodes, n.WellTyped) ∧
      ∀ wanted, expected = some wanted → e.ty.isAssignable wanted = true :=
  typed_checkTerm Γ t h

/-- `(b: Boolean) => [if b { 1 } else if false { } else { "one" }]`. -/
def numeralTerm : Term :=
  .lambda [] [("b", some (.named "Boolean" []))] none
    [.list none [.conditional (.var "b") [.literal (.int 1)] [(.literal (.bool false), [])]
      [.literal (.string "one")]]]

/-- The type that is wanted of it. -/
def numeralType : Ty := .fn [] [("flag", .boolean)] (.list (.union [.int, .string, .void]))

/-- Its typed tree. Both conditionals take over the wanted element type. -/
def numeralTree : TypedExpr :=
  let element : Ty := .union [.int, .string, .void]
  .function ⟨⟨[], [("b", .boolean)], .list element⟩, ["b"],
    [.list element [.conditional element (.reference .boolean none "b") [.literal (.int 1) .int]
      [.conditional element (.literal (.bool false) .boolean) []
        [.literal (.string "one") .string]]]]⟩

theorem checkTerm_wellTyped_numeral :
    (∀ n ∈ numeralTree.nodes, n.WellTyped) ∧ numeralTree.ty.isAssignable numeralType = true := by
  have hrun : (checkTerm ⟨.empty "main", "a", []⟩ numeralTerm (some numeralType)).run.run .initial =
      (.ok numeralTree, .initial) := by
    with_unfolding_all rfl
  obtain ⟨hnodes, hty⟩ := checkTerm_wellTyped hrun
  exact ⟨hnodes, hty numeralType rfl⟩

end Check

end UnionChecker
