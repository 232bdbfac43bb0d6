import UnionChecker.Proofs.Program.Nodes
/-!
# The types that a tree records

A typed tree records the types of literals, variables, fields and calls, the generics of calls, the
signatures of functions, the types of conditionals and choices, the element types of lists and the
types of cases. Each of them is read where it stands, with the generics of the functions around it in
scope.
-/

namespace UnionChecker

open Syntax

mutual

/-- The types recorded in an expression, each with the generics in scope at its place. -/
def TypedExpr.recorded (gs : List String) : TypedExpr → List (List String × Ty)
  | .literal _ type => [(gs, type)]
  | .reference type _ _ => [(gs, type)]
  | .access type subject _ => (gs, type) :: subject.recorded gs
  | .invocation type subject generics args =>
    (gs, type) :: (generics.map (gs, ·) ++ subject.recorded gs ++ recordedAll gs args)
  | .function function => function.recorded gs
  | .declaration _ value => value.recorded gs
  | .conditional type condition thenBlock elseBlock =>
    (gs, type) ::
      (condition.recorded gs ++ recordedAll gs thenBlock ++ recordedAll gs elseBlock)
  | .list element items => (gs, element) :: recordedAll gs items
  | .choice type subject cases other _ =>
    (gs, type) :: (subject.recorded gs ++ recordedCases gs cases ++ recordedOther gs other)

/-- The generics of a function are in scope in its block. -/
def TypedFunction.recorded (gs : List String) : TypedFunction → List (List String × Ty)
  | ⟨signature, _, block⟩ =>
    (gs, signature.toTy) :: recordedAll (signature.generics ++ gs) block

def TypedCase.recorded (gs : List String) : TypedCase → List (List String × Ty)
  | ⟨_, type, _, block⟩ => (gs, type) :: recordedAll gs block

def recordedAll (gs : List String) : List TypedExpr → List (List String × Ty)
  | [] => []
  | e :: es => e.recorded gs ++ recordedAll gs es

def recordedCases (gs : List String) : List TypedCase → List (List String × Ty)
  | [] => []
  | c :: cs => c.recorded gs ++ recordedCases gs cs

def recordedOther (gs : List String) : Option (List TypedExpr) → List (List String × Ty)
  | none => []
  | some block => recordedAll gs block

end

theorem recordedAll_eq_flatMap (gs : List String) : ∀ es : List TypedExpr,
    recordedAll gs es = es.flatMap (TypedExpr.recorded gs)
  | [] => rfl
  | e :: es => by simp [recordedAll, recordedAll_eq_flatMap gs es]

theorem recordedCases_eq_flatMap (gs : List String) : ∀ cs : List TypedCase,
    recordedCases gs cs = cs.flatMap fun c => (gs, c.type) :: recordedAll gs c.block
  | [] => rfl
  | ⟨_, _, _, _⟩ :: cs => by
    simp [recordedCases, TypedCase.recorded, recordedCases_eq_flatMap gs cs]

/-- All recorded types have a property, relative to the generics in scope. -/
def TypedExpr.Records (P : List String → Ty → Prop) (gs : List String) (e : TypedExpr) : Prop :=
  ∀ r ∈ e.recorded gs, P r.1 r.2

namespace TypedExpr

variable {P : List String → Ty → Prop} {gs : List String}

/-- All types recorded in a block have a property. -/
def RecordsAll (P : List String → Ty → Prop) (gs : List String) (es : List TypedExpr) : Prop :=
  ∀ e ∈ es, e.Records P gs

theorem recordsAll_iff {es : List TypedExpr} :
    RecordsAll P gs es ↔ ∀ r ∈ recordedAll gs es, P r.1 r.2 := by
  simp only [RecordsAll, Records, recordedAll_eq_flatMap, List.mem_flatMap]
  exact ⟨fun h r ⟨e, he, hr⟩ => h e he r hr, fun h e he r hr => h r ⟨e, he, hr⟩⟩

@[simp] theorem recordsAll_nil : RecordsAll P gs [] := by simp [RecordsAll]

@[simp] theorem recordsAll_cons {e : TypedExpr} {es : List TypedExpr} :
    RecordsAll P gs (e :: es) ↔ e.Records P gs ∧ RecordsAll P gs es :=
  List.forall_mem_cons

@[simp] theorem records_literal {value : Literal} {type : Ty} :
    (literal value type).Records P gs ↔ P gs type :=
  List.forall_mem_singleton

@[simp] theorem records_reference {type : Ty} {package : Option String} {name : String} :
    (reference type package name).Records P gs ↔ P gs type :=
  List.forall_mem_singleton

@[simp] theorem records_access {type : Ty} {subject : TypedExpr} {field : String} :
    (access type subject field).Records P gs ↔ P gs type ∧ subject.Records P gs :=
  List.forall_mem_cons

@[simp] theorem records_invocation {type : Ty} {subject : TypedExpr} {generics : List Ty}
    {args : List TypedExpr} :
    (invocation type subject generics args).Records P gs ↔
      P gs type ∧ (∀ t ∈ generics, P gs t) ∧ subject.Records P gs ∧ RecordsAll P gs args := by
  refine List.forall_mem_cons.trans (and_congr_right' ?_)
  rw [List.forall_mem_append, List.forall_mem_append, List.forall_mem_map, ← recordsAll_iff,
    and_assoc]
  rfl

@[simp] theorem records_function {f : TypedFunction} :
    (function f).Records P gs ↔
      P gs f.signature.toTy ∧ RecordsAll P (f.signature.generics ++ gs) f.block := by
  obtain ⟨signature, params, block⟩ := f
  exact List.forall_mem_cons.trans (and_congr_right' recordsAll_iff.symm)

@[simp] theorem records_declaration {name : String} {value : TypedExpr} :
    (declaration name value).Records P gs ↔ value.Records P gs :=
  Iff.rfl

@[simp] theorem records_conditional {type : Ty} {condition : TypedExpr}
    {thenBlock elseBlock : List TypedExpr} :
    (conditional type condition thenBlock elseBlock).Records P gs ↔
      P gs type ∧ condition.Records P gs ∧ RecordsAll P gs thenBlock ∧
        RecordsAll P gs elseBlock := by
  refine List.forall_mem_cons.trans (and_congr_right' ?_)
  rw [List.forall_mem_append, List.forall_mem_append, ← recordsAll_iff, ← recordsAll_iff, and_assoc]
  rfl

@[simp] theorem records_list {element : Ty} {items : List TypedExpr} :
    (list element items).Records P gs ↔ P gs element ∧ RecordsAll P gs items :=
  List.forall_mem_cons.trans (and_congr_right' recordsAll_iff.symm)

@[simp] theorem records_choice {type : Ty} {subject : TypedExpr} {cases : List TypedCase}
    {other : Option (List TypedExpr)} {name : Option String} :
    (choice type subject cases other name).Records P gs ↔
      P gs type ∧ subject.Records P gs ∧ (∀ c ∈ cases, P gs c.type ∧ RecordsAll P gs c.block) ∧
        ∀ block ∈ other, RecordsAll P gs block := by
  have hcases : (∀ r ∈ recordedCases gs cases, P r.1 r.2) ↔
      ∀ c ∈ cases, P gs c.type ∧ RecordsAll P gs c.block := by
    simp only [recordsAll_iff, recordedCases_eq_flatMap, List.forall_mem_flatMap,
      List.forall_mem_cons]
  have hother : (∀ r ∈ recordedOther gs other, P r.1 r.2) ↔
      ∀ block ∈ other, RecordsAll P gs block := by
    cases other with
    | none => simp [recordedOther]
    | some block => simp [recordedOther, recordsAll_iff]
  refine List.forall_mem_cons.trans (and_congr_right' ?_)
  rw [List.forall_mem_append, List.forall_mem_append, hcases, hother, and_assoc]
  rfl

end TypedExpr

end UnionChecker
