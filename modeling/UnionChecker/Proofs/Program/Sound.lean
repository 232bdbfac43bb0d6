import UnionChecker.Proofs.Check.Inversion
import UnionChecker.Proofs.Program.Nodes
import UnionChecker.Proofs.Syntax.Binders
import UnionChecker.Proofs.Ty.Order
/-!
# Sound nodes

At every node that the checker makes it has seen to several things (`TypedExpr.Sound`): the parts have
types that fit the node, a choice by type is as it should be, and the names that are bound are bound
in the source.

Conditionals and choices take the wanted type as their own, so what they promise rests on every block
below them having been checked at it.
-/

namespace UnionChecker

open Syntax

/-! ## Sound nodes -/

/-- The names that a node binds. -/
def TypedExpr.binders : TypedExpr → List String
  | .function f => f.params
  | .declaration name _ => [name]
  | .choice _ _ cases _ otherName => cases.flatMap (·.name.toList) ++ otherName.toList
  | _ => []

/-- A declaration is not called like a literal, and all other nodes bind given names only. -/
def TypedExpr.BindsAmong (names : List String) : TypedExpr → Prop
  | .declaration name _ => ¬ Reserved name
  | e => e.binders ⊆ names

/-- The parts of an expression have types that fit the expression. A conditional without an `else`
yields nothing, whatever its first block yields. -/
def TypedExpr.WellTyped : TypedExpr → Prop
  | .conditional type condition thenBlock elseBlock =>
    condition.ty.isAssignable .boolean = true ∧
      ((blockType thenBlock).isAssignable type = true ∧
          (blockType elseBlock).isAssignable type = true ∨
        elseBlock = [] ∧ type = .void)
  | .list element items => ∀ item ∈ items, item.ty.isAssignable element = true
  | .choice type _ cases other _ =>
    (∀ c ∈ cases, (blockType c.block).isAssignable type = true) ∧
      ∀ block ∈ other, (blockType block).isAssignable type = true
  | .function f => f.block ≠ [] ∧ (blockType f.block).isAssignable f.signature.result = true
  | _ => True

/-- What the checker sees to at every node that is not a variable. -/
structure TypedExpr.Sound (matchFields : MatchFields) (names : List String) (e : TypedExpr) :
    Prop where
  choice : e.ChoiceOk matchFields
  binds : e.BindsAmong names
  types : e.WellTyped

def TypedExpr.isReference : TypedExpr → Bool
  | .reference _ _ _ => true
  | _ => false

namespace Check

variable {Γ : Context} {expected : Option Ty}

theorem blockType_cons {e : TypedExpr} {es : List TypedExpr} (h : es ≠ []) :
    blockType (e :: es) = blockType es := by
  obtain ⟨f, fs, rfl⟩ := List.exists_cons_of_ne_nil h
  simp [blockType, List.getLast?_cons_cons]

/-- What is wanted, or else the type found for it, is above all that fits. -/
theorem Fits.getD {t other : Ty} (h : Fits t expected)
    (hnone : expected = none → t.isAssignable other = true) :
    t.isAssignable (expected.getD other) = true := by
  cases expected with
  | none => exact hnone rfl
  | some wanted => exact h wanted rfl

/-- A conditional is well typed when its blocks yield what is wanted, and nothing comes after it in
case it has no `else`. -/
theorem wellTyped_conditional {hasElse : Bool} {c : TypedExpr} {ts es : List TypedExpr}
    (hc : Fits c.ty (some .boolean)) (hts : Fits (blockType ts) expected)
    (hes : Fits (blockType es) expected) (helse : hasElse = false → es = []) :
    (TypedExpr.conditional (conditionalType hasElse expected ts es) c ts es).WellTyped := by
  refine ⟨fits_some.1 hc, ?_⟩
  cases hasElse with
  | true =>
    refine Or.inl ⟨hts.getD fun _ => ?_, hes.getD fun _ => ?_⟩
    · exact Ty.isAssignable_join_of_mem (by simp)
    · exact Ty.isAssignable_join_of_mem (by simp)
  | false =>
    cases expected with
    | none => exact Or.inr ⟨helse rfl, rfl⟩
    | some wanted => exact Or.inl ⟨hts wanted rfl, hes wanted rfl⟩

theorem conditionalType_fits {hasElse : Bool} {ts es : List TypedExpr} :
    Fits (conditionalType hasElse expected ts es) expected := by
  cases expected with
  | none => exact fits_none _
  | some wanted => exact fits_some.2 (Ty.isAssignable_refl wanted)

theorem wellTyped_choice {s : TypedExpr} {cases : List TypedCase} {other : Option (List TypedExpr)}
    {name : Option String} (hcases : ∀ c ∈ cases, Fits (blockType c.block) expected)
    (hother : ∀ block ∈ other, Fits (blockType block) expected) :
    (TypedExpr.choice (choiceType expected cases other) s cases other name).WellTyped := by
  refine ⟨fun c hc => (hcases c hc).getD fun _ => Ty.isAssignable_join_of_mem ?_,
    fun block hblock => (hother block hblock).getD fun _ => Ty.isAssignable_join_of_mem ?_⟩
  · exact List.mem_append_left _ (List.mem_map_of_mem hc)
  · exact List.mem_append_right _ (List.mem_map_of_mem (by simpa using hblock))

/-- A list without a written element type takes a wanted one that its items fit, or their own. -/
theorem wellTyped_list {items : List TypedExpr} :
    (TypedExpr.list (((wantedElements expected).find?
      (Ty.join (items.map TypedExpr.ty)).containedIn).getD (Ty.join (items.map TypedExpr.ty)))
      items).WellTyped := by
  intro item hi
  have hjoin := Ty.isAssignable_join_of_mem (List.mem_map_of_mem (f := TypedExpr.ty) hi)
  cases hfind : (wantedElements expected).find? (Ty.join (items.map TypedExpr.ty)).containedIn with
  | none => exact hjoin
  | some element =>
    exact Ty.isAssignable_trans hjoin (Ty.isAssignable_of_containedIn (List.find?_some hfind))

end Check

end UnionChecker
