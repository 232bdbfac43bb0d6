import UnionChecker.Proofs.Lists
import UnionChecker.Proofs.Steps
import UnionChecker.Syntax.Desugar
/-!
# Short circuits nest

A block is expanded backwards: its statements are collected from the last one to the first, and a
short circuit takes in all that is collected so far. What comes out can be said forwards (`nest`): each
statement stands where it stood, and each short circuit is a `when` with everything behind it in the
arm that goes on. So the short circuits of a block are nested, the first one outermost, as deep as
there are short circuits (`desugarBlock_nests`).
-/

namespace UnionChecker.Syntax

variable {file : String}

/-! ## Short circuits -/

/-- Whether a head is a declaration with a short circuit. -/
def Expr.isShortCircuit : Expr → Bool
  | .declaration d => d.shortCircuit.isSome
  | _ => false

/-- The declaration of a statement that is a short circuit. -/
def Term.shortCircuit? (t : Term) : Option Declaration :=
  match t.head with
  | .declaration d => if d.shortCircuit.isSome then some d else none
  | _ => none

namespace Declaration

/-- The name that a short circuit binds. -/
def binding (d : Declaration) : Name :=
  if d.name.text == "_" then { d.name with text := unusedBinding } else d.name

/-- The type that leaves the block, if it is given. -/
def residual (d : Declaration) : Option TypeExpr := d.shortCircuit.bind (·.residual)

/-- At least one of the two types is given. -/
def Annotated (d : Declaration) : Prop := d.type.isSome = true ∨ d.residual.isSome = true

/-- The `when` that a short circuit stands for: the residual leaves the block with the value, and what
succeeds goes on with `rest`. Of two types one may be left to `other`. -/
def choice (d : Declaration) (rest : List Term) : Term :=
  let exit : List Term := [.ofName d.binding]
  let leave (type : TypeExpr) : Arm := ⟨some d.binding, type, exit, d.span, .shortCircuitResidual⟩
  let goOn (type : TypeExpr) : Arm := ⟨some d.binding, type, rest, d.span, .source⟩
  let other : Option Otherwise :=
    match d.type, d.residual with
    | none, some _ => some ⟨some d.binding, rest, d.span, .source⟩
    | some _, none => some ⟨some d.binding, exit, d.span, .shortCircuitResidual⟩
    | _, _ => none
  ⟨.when ⟨d.value, d.residual.toList.map leave ++ d.type.toList.map goOn, other, d.span⟩, [], d.span⟩

end Declaration

/-- If the statement is a short circuit, at least one of its types is given. -/
def Term.Annotated (t : Term) : Prop := ∀ d ∈ t.shortCircuit?, d.Annotated

theorem shortCircuitTerm_eq_ok {d : Declaration} {rest : List Term} {t : Term} :
    shortCircuitTerm file d.name d.type d.residual d.value rest d.span = .ok t ↔
      d.Annotated ∧ t = d.choice rest := by
  unfold shortCircuitTerm Declaration.Annotated Declaration.choice
  cases d.type <;> cases d.residual
  · simp
  all_goals
    constructor
    · intro h
      cases h
      exact ⟨by simp, rfl⟩
    · rintro ⟨-, rfl⟩
      rfl

theorem Term.shortCircuit?_eq_some {t : Term} {d : Declaration} :
    t.shortCircuit? = some d ↔ t.head = .declaration d ∧ d.shortCircuit.isSome = true := by
  unfold shortCircuit?
  split
  · rename_i d' hhead
    rw [hhead, Expr.declaration.injEq, Option.ite_none_right_eq_some, Option.some.injEq]
    constructor
    · rintro ⟨h, rfl⟩
      exact ⟨rfl, h⟩
    · rintro ⟨rfl, h⟩
      exact ⟨h, rfl⟩
  · rename_i hhead
    exact iff_of_false (by simp) fun h => hhead d h.1

theorem Term.shortCircuit?_eq_none {t : Term} :
    t.shortCircuit? = none ↔ t.head.isShortCircuit = false := by
  unfold shortCircuit?
  cases t.head <;> simp [Expr.isShortCircuit]

/-! ## Backwards and forwards -/

/-- Put a statement, already expanded, in front of the rest of its block. -/
def prependStatement (file : String) (statement : Term) (rest : List Term) :
    Except Failure (List Term) :=
  match statement.head with
  | .declaration ⟨name, type, some shortCircuit, value, span⟩ =>
    (shortCircuitTerm file name type shortCircuit.residual value rest span).map ([·])
  | _ => .ok (statement :: rest)

theorem prependStatement_of_plain {statement : Term} {rest : List Term}
    (h : statement.head.isShortCircuit = false) :
    prependStatement file statement rest = .ok (statement :: rest) := by
  unfold prependStatement
  split
  · rename_i hhead
    rw [hhead] at h
    cases h
  · rfl

/-- A short circuit takes the rest of its block in, any other statement is put in front of it. -/
theorem prependStatement_cases {statement : Term} {rest block : List Term}
    (h : prependStatement file statement rest = .ok block) :
    (statement.head.isShortCircuit = false ∧ block = statement :: rest) ∨
      ∃ name type circuit value span t,
        statement.head = .declaration ⟨name, type, some circuit, value, span⟩ ∧
          shortCircuitTerm file name type circuit.residual value rest span = .ok t ∧
            block = [t] := by
  obtain ⟨head, chain, place⟩ := statement
  cases hshort : head.isShortCircuit with
  | false =>
    rw [prependStatement_of_plain hshort] at h
    cases h
    exact .inl ⟨rfl, rfl⟩
  | true =>
    cases head with
    | declaration d =>
      obtain ⟨name, type, _ | circuit, value, span⟩ := d
      · cases hshort
      · obtain ⟨t, ht, rfl⟩ := map_eq_ok.1 h
        exact .inr ⟨name, type, circuit, value, span, t, rfl, ht, rfl⟩
    | _ => cases hshort

/-- To collect a statement after the reversed rest of its block is to put it in front of the rest. -/
theorem collectStatement_reverse (statement : Term) (rest : List Term) :
    (collectStatement file rest.reverse statement).map List.reverse =
      prependStatement file statement rest := by
  obtain ⟨head, chain, place⟩ := statement
  cases head with
  | declaration d =>
    obtain ⟨name, type, _ | short, value, span⟩ := d
    · simp [collectStatement, prependStatement, Except.map]
    · simp only [collectStatement, prependStatement, List.reverse_reverse]
      cases shortCircuitTerm file name type short.residual value rest span <;> rfl
  | _ => simp [collectStatement, prependStatement, Except.map]

theorem map_reverse_desugarBackwards (block : List Term) :
    (desugarBackwards file block).map List.reverse = desugarBlock file block := rfl

theorem desugarBlock_nil : desugarBlock file [] = .ok [] := rfl

/-- **A block is expanded as if from the front**: the rest of it, and then the statement before it. -/
theorem desugarBlock_cons (statement : Term) (rest : List Term) :
    desugarBlock file (statement :: rest) = (do
      let rest ← desugarBlock file rest
      let statement ← desugarTerm file statement
      prependStatement file statement rest) := by
  rw [desugarBlock, desugarBackwards, ← map_reverse_desugarBackwards]
  cases desugarBackwards file rest with
  | error e => rfl
  | ok later =>
    cases desugarTerm file statement with
    | error e => rfl
    | ok statement =>
      have h := @collectStatement_reverse file statement later.reverse
      rw [List.reverse_reverse] at h
      exact h

/-! ## Nested blocks -/

/-- The block with the given statements: each short circuit takes in everything behind it. -/
def nest : List Term → List Term
  | [] => []
  | statement :: rest =>
    match statement.shortCircuit? with
    | some d => [d.choice (nest rest)]
    | none => statement :: nest rest

theorem prependStatement_eq_ok {statement : Term} {rest block : List Term} :
    prependStatement file statement (nest rest) = .ok block ↔
      statement.Annotated ∧ block = nest (statement :: rest) := by
  rw [Term.Annotated, nest]
  cases h : statement.shortCircuit? with
  | some d =>
    obtain ⟨hhead, hshort⟩ := Term.shortCircuit?_eq_some.1 h
    obtain ⟨short, hshort⟩ := Option.isSome_iff_exists.1 hshort
    have hprepend : prependStatement file statement (nest rest) =
        (shortCircuitTerm file d.name d.type d.residual d.value (nest rest) d.span).map ([·]) := by
      obtain ⟨name, type, _, value, span⟩ := d
      obtain rfl : _ = some short := hshort
      rw [prependStatement, hhead]
      rfl
    rw [hprepend, map_eq_ok]
    simp [shortCircuitTerm_eq_ok, and_assoc]
  | none =>
    rw [prependStatement_of_plain (Term.shortCircuit?_eq_none.1 h)]
    simp [eq_comm]

theorem desugarBlock_eq_ok : ∀ {block block' : List Term},
    desugarBlock file block = .ok block' ↔ ∃ statements,
      List.Forall₂ (fun s s' => desugarTerm file s = .ok s' ∧ s'.Annotated) block statements ∧
        block' = nest statements
  | [], block' => by
    simp [desugarBlock_nil, nest, eq_comm]
  | statement :: rest, block' => by
    simp only [desugarBlock_cons, bind_eq_ok, desugarBlock_eq_ok]
    constructor
    · rintro ⟨_, ⟨statements, hstatements, rfl⟩, s, hs, h⟩
      obtain ⟨hannotated, rfl⟩ := prependStatement_eq_ok.1 h
      exact ⟨s :: statements, .cons ⟨hs, hannotated⟩ hstatements, rfl⟩
    · rintro ⟨_, h, rfl⟩
      obtain ⟨s, statements, ⟨hs, hannotated⟩, hstatements, rfl⟩ := List.forall₂_cons_left_iff.1 h
      exact ⟨_, ⟨statements, hstatements, rfl⟩, s, hs, prependStatement_eq_ok.2 ⟨hannotated, rfl⟩⟩

/-! ## Depth and order -/

/-- A statement: a short circuit, or anything else. Of a short circuit only the declaration counts:
links behind it, as in `(x ?= e).f()`, are dropped when it becomes a `when`. -/
def Term.kind (t : Term) : Declaration ⊕ Term :=
  match t.shortCircuit? with
  | some d => .inl d
  | none => .inr t

/-- A short circuit with the statements behind it, up to the next short circuit. -/
structure Segment where
  opening : Declaration
  body : List Term

namespace Segment

/-- The statements of a segment in order. -/
def statements (s : Segment) : List (Declaration ⊕ Term) := .inl s.opening :: s.body.map .inr

/-- The `when` of a segment, with `inner` after its own statements. -/
def around (s : Segment) (inner : List Term) : List Term := [s.opening.choice (s.body ++ inner)]

end Segment

/-- Statements are nested segment by segment, one level for each short circuit. -/
theorem nest_eq_segments : ∀ ss : List Term, ∃ (plain : List Term) (segments : List Segment),
    ss.map Term.kind = plain.map .inr ++ segments.flatMap Segment.statements ∧
      segments.map (·.opening) = ss.filterMap Term.shortCircuit? ∧
      nest ss = plain ++ segments.foldr Segment.around []
  | [] => ⟨[], [], rfl, rfl, rfl⟩
  | s :: ss => by
    obtain ⟨plain, segments, hkinds, hopenings, hnest⟩ := nest_eq_segments ss
    cases hs : s.shortCircuit? with
    | some d =>
      -- everything that stood in front becomes the body of a new segment
      refine ⟨[], ⟨d, plain⟩ :: segments, ?_, ?_, ?_⟩
      · simp [Term.kind, hs, Segment.statements, ← hkinds]
      · simp [hs, hopenings]
      · simp [nest, hs, hnest, Segment.around]
    | none =>
      refine ⟨s :: plain, segments, ?_, ?_, ?_⟩
      · simp [Term.kind, hs, ← hkinds]
      · simp [hs, hopenings]
      · simp [nest, hs, hnest]

/-- **Expanding backwards comes to nesting forwards.** A block can be expanded exactly when its
statements can and each short circuit among them has a type. Then its short circuits are nested in the
order in which they are written, one level for each of them, and between two of them stand the
statements that stood there. What is dropped are the links behind a short circuit (`Term.kind`). -/
theorem desugarBlock_nests (file : String) (block : List Term) :
    ((∃ block', desugarBlock file block = .ok block') ↔
      ∀ s ∈ block, ∃ s', desugarTerm file s = .ok s' ∧ s'.Annotated) ∧
    ∀ block', desugarBlock file block = .ok block' ↔ ∃ statements,
      List.Forall₂ (fun s s' => desugarTerm file s = .ok s' ∧ s'.Annotated) block statements ∧
      block' = nest statements ∧
      ∃ (plain : List Term) (segments : List Segment),
        statements.map Term.kind = plain.map .inr ++ segments.flatMap Segment.statements ∧
        segments.map (·.opening) = statements.filterMap Term.shortCircuit? ∧
        block' = plain ++ segments.foldr Segment.around [] := by
  refine ⟨⟨?_, fun h => ?_⟩, fun block' => ?_⟩
  · rintro ⟨_, h⟩ s hs
    obtain ⟨statements, hstatements, -⟩ := desugarBlock_eq_ok.1 h
    obtain ⟨s', -, hs'⟩ := forall₂_mem_left hstatements hs
    exact ⟨s', hs'⟩
  · obtain ⟨statements, hstatements⟩ := exists_forall₂ h
    exact ⟨_, desugarBlock_eq_ok.2 ⟨statements, hstatements, rfl⟩⟩
  · rw [desugarBlock_eq_ok]
    refine exists_congr fun statements => and_congr_right fun _ => ?_
    obtain ⟨plain, segments, hkinds, hopenings, hnest⟩ := nest_eq_segments statements
    refine ⟨fun h => ⟨h, plain, segments, hkinds, hopenings, h.trans hnest⟩, fun h => h.1⟩

end UnionChecker.Syntax
