import UnionChecker.Program.Tree
import UnionChecker.Proofs.Lists
/-!
# The nodes of a typed program

The nodes of a typed expression are the expression and all expressions inside it, and `Everywhere`
says that all of them have a property, with one equivalence for each kind of expression. A choice by
type is as it should be (`TypedExpr.ChoiceOk`) if its tests are the tests for the types of its cases
and if, without an `other` case, these types cover the type of the subject.
-/

namespace UnionChecker

open Syntax

/-! ## Nodes -/

mutual

/-- A typed expression and all expressions inside it. -/
def TypedExpr.nodes : TypedExpr → List TypedExpr
  | .literal value type => [.literal value type]
  | .reference type package name => [.reference type package name]
  | .access type subject field => .access type subject field :: subject.nodes
  | .invocation type subject generics args =>
    .invocation type subject generics args :: (subject.nodes ++ nodesAll args)
  | .function function => .function function :: function.nodes
  | .declaration name value => .declaration name value :: value.nodes
  | .conditional type condition thenBlock elseBlock =>
    .conditional type condition thenBlock elseBlock ::
      (condition.nodes ++ nodesAll thenBlock ++ nodesAll elseBlock)
  | .list element items => .list element items :: nodesAll items
  | .choice type subject cases other otherName =>
    .choice type subject cases other otherName ::
      (subject.nodes ++ nodesCases cases ++ nodesOther other)

def TypedFunction.nodes : TypedFunction → List TypedExpr
  | ⟨_, _, block⟩ => nodesAll block

def TypedCase.nodes : TypedCase → List TypedExpr
  | ⟨_, _, _, block⟩ => nodesAll block

def nodesAll : List TypedExpr → List TypedExpr
  | [] => []
  | e :: es => e.nodes ++ nodesAll es

def nodesCases : List TypedCase → List TypedExpr
  | [] => []
  | c :: cs => c.nodes ++ nodesCases cs

def nodesOther : Option (List TypedExpr) → List TypedExpr
  | none => []
  | some block => nodesAll block

end

theorem nodesAll_eq_flatMap : ∀ es : List TypedExpr, nodesAll es = es.flatMap TypedExpr.nodes
  | [] => rfl
  | e :: es => by simp [nodesAll, nodesAll_eq_flatMap es]

theorem nodesCases_eq_flatMap : ∀ cs : List TypedCase,
    nodesCases cs = cs.flatMap fun c => c.block.flatMap TypedExpr.nodes
  | [] => rfl
  | ⟨_, _, _, block⟩ :: cs => by
    simp [nodesCases, TypedCase.nodes, nodesAll_eq_flatMap, nodesCases_eq_flatMap cs]

/-- All expressions inside a program. -/
def Program.nodes (p : Program) : List TypedExpr := p.declarations.flatMap fun d => d.value.nodes

/-! ## Properties of all nodes -/

/-- The expression and all expressions inside it have a property. -/
def TypedExpr.Everywhere (P : TypedExpr → Prop) (e : TypedExpr) : Prop := ∀ n ∈ e.nodes, P n

namespace TypedExpr

variable {P : TypedExpr → Prop}

theorem forall_mem_nodesAll {es : List TypedExpr} :
    (∀ n ∈ nodesAll es, P n) ↔ ∀ e ∈ es, e.Everywhere P := by
  rw [nodesAll_eq_flatMap, List.forall_mem_flatMap]
  rfl

theorem forall_mem_nodesCases {cases : List TypedCase} :
    (∀ n ∈ nodesCases cases, P n) ↔ ∀ c ∈ cases, ∀ e ∈ c.block, e.Everywhere P := by
  simp only [nodesCases_eq_flatMap, List.forall_mem_flatMap]
  rfl

theorem forall_mem_nodesOther {other : Option (List TypedExpr)} :
    (∀ n ∈ nodesOther other, P n) ↔ ∀ block ∈ other, ∀ e ∈ block, e.Everywhere P := by
  cases other with
  | none => exact iff_of_true (fun _ h => nomatch h) fun _ h => nomatch h
  | some block => simp [nodesOther, forall_mem_nodesAll]

@[simp] theorem everywhere_literal {value : Literal} {type : Ty} :
    (literal value type).Everywhere P ↔ P (.literal value type) :=
  List.forall_mem_singleton

@[simp] theorem everywhere_reference {type : Ty} {package : Option String} {name : String} :
    (reference type package name).Everywhere P ↔ P (.reference type package name) :=
  List.forall_mem_singleton

@[simp] theorem everywhere_access {type : Ty} {subject : TypedExpr} {field : String} :
    (access type subject field).Everywhere P ↔
      P (.access type subject field) ∧ subject.Everywhere P :=
  List.forall_mem_cons

@[simp] theorem everywhere_invocation {type : Ty} {subject : TypedExpr} {generics : List Ty}
    {args : List TypedExpr} :
    (invocation type subject generics args).Everywhere P ↔
      P (.invocation type subject generics args) ∧ subject.Everywhere P ∧
        ∀ arg ∈ args, arg.Everywhere P := by
  refine List.forall_mem_cons.trans (and_congr_right' ?_)
  rw [List.forall_mem_append, forall_mem_nodesAll]
  rfl

@[simp] theorem everywhere_function {f : TypedFunction} :
    (function f).Everywhere P ↔ P (.function f) ∧ ∀ e ∈ f.block, e.Everywhere P := by
  obtain ⟨_, _, block⟩ := f
  exact List.forall_mem_cons.trans (and_congr_right' forall_mem_nodesAll)

@[simp] theorem everywhere_declaration {name : String} {value : TypedExpr} :
    (declaration name value).Everywhere P ↔ P (.declaration name value) ∧ value.Everywhere P :=
  List.forall_mem_cons

@[simp] theorem everywhere_conditional {type : Ty} {condition : TypedExpr}
    {thenBlock elseBlock : List TypedExpr} :
    (conditional type condition thenBlock elseBlock).Everywhere P ↔
      P (.conditional type condition thenBlock elseBlock) ∧ condition.Everywhere P ∧
        (∀ e ∈ thenBlock, e.Everywhere P) ∧ ∀ e ∈ elseBlock, e.Everywhere P := by
  refine List.forall_mem_cons.trans (and_congr_right' ?_)
  rw [List.forall_mem_append, List.forall_mem_append, forall_mem_nodesAll, forall_mem_nodesAll,
    and_assoc]
  rfl

@[simp] theorem everywhere_list {element : Ty} {items : List TypedExpr} :
    (list element items).Everywhere P ↔
      P (.list element items) ∧ ∀ item ∈ items, item.Everywhere P :=
  List.forall_mem_cons.trans (and_congr_right' forall_mem_nodesAll)

@[simp] theorem everywhere_choice {type : Ty} {subject : TypedExpr} {cases : List TypedCase}
    {other : Option (List TypedExpr)} {name : Option String} :
    (choice type subject cases other name).Everywhere P ↔
      P (.choice type subject cases other name) ∧ subject.Everywhere P ∧
        (∀ c ∈ cases, ∀ e ∈ c.block, e.Everywhere P) ∧
        ∀ block ∈ other, ∀ e ∈ block, e.Everywhere P := by
  refine List.forall_mem_cons.trans (and_congr_right' ?_)
  rw [List.forall_mem_append, List.forall_mem_append, forall_mem_nodesCases, forall_mem_nodesOther,
    and_assoc]
  rfl

end TypedExpr

/-! ## Choices -/

/-- The tests of a choice are those for the types of its cases. Without an `other` case, every member
of the type of the subject is equal to a member of the type of a case. -/
def TypedExpr.ChoiceOk (matchFields : MatchFields) : TypedExpr → Prop
  | .choice _ subject cases other _ =>
    (∀ c ∈ cases, Discriminator.ofTy matchFields c.type = .ok c.test) ∧
      (other = none → ∀ m ∈ subject.ty.members, ∃ c ∈ cases, ∃ n ∈ c.type.members, m.equal n = true)
  | _ => True

/-- Neither a variable nor a choice. -/
def TypedExpr.isPlain : TypedExpr → Bool
  | .reference _ _ _ => false
  | .choice _ _ _ _ _ => false
  | _ => true

end UnionChecker
