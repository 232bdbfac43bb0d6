import UnionChecker.Proofs.Binding.Rounds
import UnionChecker.Proofs.Binding.Types
import UnionChecker.Proofs.PackageCheck
import UnionChecker.Syntax.Construct
/-!
# Bodies and other declarations

A declaration shows the others its name and its type. When the type is written down, or the value is
a lambda whose types all are, nothing else of the value is seen: another value in its place leaves
the table, the results of all other declarations and what checking says about them as they are
(`Bound.ofFiles_fill`).

Two runs of binding are followed side by side. At each moment their slots differ in one place, and
there they have the same face: both are typed, both wait or both have failed alike.
-/

namespace UnionChecker

open Syntax

/-! ## Faces -/

/-- The declarations show the same name and the same type: a written one, or that of a lambda whose
types are all written. -/
inductive SameFace : Declaration → Declaration → Prop
  | written {name : Name} {type : TypeExpr} {shortCircuit shortCircuit' : Option ShortCircuit}
      {value value' : Term} {span span' : Span} :
      SameFace ⟨name, some type, shortCircuit, value, span⟩
        ⟨name, some type, shortCircuit', value', span'⟩
  | lambda {name : Name} {shortCircuit shortCircuit' : Option ShortCircuit} {generics : List Name}
      {params : List Parameter} {result : TypeExpr} {body body' : List Term}
      {lambdaSpan lambdaSpan' valueSpan valueSpan' span span' : Span}
      (hparams : params.all (fun p => p.type.isSome) = true) :
      SameFace
        ⟨name, none, shortCircuit,
          ⟨.lambda ⟨generics, params, some result, body, lambdaSpan⟩, [], valueSpan⟩, span⟩
        ⟨name, none, shortCircuit',
          ⟨.lambda ⟨generics, params, some result, body', lambdaSpan'⟩, [], valueSpan'⟩, span'⟩

namespace SameFace

variable {d d' e e' : Declaration}

theorem name (h : SameFace d d') : d'.name = d.name := by cases h <;> rfl

theorem type (h : SameFace d d') : d'.type = d.type := by cases h <;> rfl

/-- Removing sugar leaves the face of a declaration. -/
theorem desugar {file : String} (h : SameFace d d') (hd : desugarTopDeclaration file d = .ok e)
    (hd' : desugarTopDeclaration file d' = .ok e') : SameFace e e' := by
  obtain ⟨value, hvalue, rfl⟩ := desugarTopDeclaration_eq_ok hd
  obtain ⟨value', hvalue', rfl⟩ := desugarTopDeclaration_eq_ok hd'
  cases h with
  | written => exact .written
  | lambda hparams =>
    simp only [desugarTerm, desugarExpr, desugarLinks, bind_assoc, bind_eq_ok] at hvalue hvalue'
    obtain ⟨body, -, _, hhead, h⟩ := hvalue
    obtain ⟨body', -, _, hhead', h'⟩ := hvalue'
    cases hhead
    cases hhead'
    cases h
    cases h'
    exact .lambda hparams

/-- The type of a declaration is inferred from its face. -/
theorem inferDeclaration (h : SameFace d d') (Γ : Context) :
    Check.inferDeclaration Γ d' = Check.inferDeclaration Γ d := by
  cases h with
  | written => rfl
  | lambda hparams =>
    simp only [Check.inferDeclaration, Check.writtenSignature, hparams, if_true, bind_assoc,
      pure_bind]

end SameFace

/-! ## Lists that differ in one place -/

/-- The lists are the same but for one place, where the elements are related. -/
inductive DifferAt {α : Type} (R : α → α → Prop) : List α → List α → Prop
  | here {a a' : α} {as : List α} (h : R a a') : DifferAt R (a :: as) (a' :: as)
  | there {a : α} {as as' : List α} (h : DifferAt R as as') : DifferAt R (a :: as) (a :: as')

namespace DifferAt

variable {α β : Type} {R : α → α → Prop} {as as' : List α}

theorem append {a a' : α} (h : R a a') (before after : List α) :
    DifferAt R (before ++ a :: after) (before ++ a' :: after) := by
  induction before with
  | nil => exact .here h
  | cons b before ih => exact .there ih

theorem exists_append (h : DifferAt R as as') : ∃ before a a' after,
    as = before ++ a :: after ∧ as' = before ++ a' :: after ∧ R a a' := by
  induction h with
  | here h => exact ⟨[], _, _, _, rfl, rfl, h⟩
  | @there b _ _ _ ih =>
    obtain ⟨before, a, a', after, rfl, rfl, h⟩ := ih
    exact ⟨b :: before, a, a', after, rfl, rfl, h⟩

theorem map {S : β → β → Prop} {f : α → β} (h : DifferAt R as as')
    (hf : ∀ a a', R a a' → S (f a) (f a')) : DifferAt S (as.map f) (as'.map f) := by
  induction h with
  | here h => exact .here (hf _ _ h)
  | there _ ih => exact .there ih

theorem filterMap_eq {f : α → Option β} (h : DifferAt R as as')
    (hf : ∀ a a', R a a' → f a' = f a) : as'.filterMap f = as.filterMap f := by
  induction h with
  | here h => rw [List.filterMap_cons, List.filterMap_cons, hf _ _ h]
  | there _ ih => rw [List.filterMap_cons, List.filterMap_cons, ih]

theorem foldl_eq {f : β → α → β} (h : DifferAt R as as') (hf : ∀ b a a', R a a' → f b a' = f b a)
    (b : β) : as'.foldl f b = as.foldl f b := by
  induction h generalizing b with
  | here h => rw [List.foldl_cons, List.foldl_cons, hf _ _ _ h]
  | there _ ih => exact ih _

theorem length_eq (h : DifferAt R as as') : as'.length = as.length := by
  induction h with
  | here _ => rfl
  | there _ ih => rw [List.length_cons, List.length_cons, ih]

end DifferAt

namespace Binding

/-! ## Slots -/

/-- Both declarations have failed alike, both wait, or both have the same type. -/
inductive BindingState.SameFace : BindingState → BindingState → Prop
  | failed {failure : Failure} : SameFace (.failed failure) (.failed failure)
  | waiting {d d' : Declaration} (h : UnionChecker.SameFace d d') :
      SameFace (.waiting d) (.waiting d')
  | typed {d d' : Declaration} {ty : Ty} : SameFace (.typed d ty) (.typed d' ty)

/-- Slots of declarations of one name that show the same to others. -/
structure Slot.SameFace (shown : Name) (s s' : Slot) : Prop where
  file : s'.file = s.file
  name : s.name = shown
  name' : s'.name = shown
  state : s.state.SameFace s'.state

variable {table : Table} {name : Name} {s s' : Slot} {slots slots' : List Slot}

theorem Slot.sameFace_ofDeclaration {file : String} {d d' e e' : Declaration}
    (h : UnionChecker.SameFace d d') (hd : desugarTopDeclaration file d = .ok e)
    (hd' : desugarTopDeclaration file d' = .ok e') :
    Slot.SameFace d.name (Slot.ofDeclaration file d) (Slot.ofDeclaration file d') := by
  refine ⟨rfl, rfl, h.name, ?_⟩
  unfold Slot.ofDeclaration
  rw [h.name, hd, hd']
  split
  · exact .failed
  · exact .waiting (h.desugar hd hd')

namespace Slot.SameFace

theorem isTyped (h : Slot.SameFace name s s') : s'.isTyped = s.isTyped := by
  have hstate := h.state
  unfold Slot.isTyped
  generalize s.state = state, s'.state = state' at hstate
  cases hstate <;> rfl

theorem annotate (h : Slot.SameFace name s s') :
    Slot.SameFace name (s.annotate table) (s'.annotate table) := by
  obtain ⟨file, _, span, state⟩ := s
  obtain ⟨_, _, span', state'⟩ := s'
  obtain ⟨rfl, rfl, rfl, hstate⟩ := h
  cases hstate with
  | failed => exact ⟨rfl, rfl, rfl, .failed⟩
  | typed => exact ⟨rfl, rfl, rfl, .typed⟩
  | waiting hface =>
    simp only [Slot.annotate, hface.type]
    split
    · exact ⟨rfl, rfl, rfl, .waiting hface⟩
    · split
      · exact ⟨rfl, rfl, rfl, .typed⟩
      · exact ⟨rfl, rfl, rfl, .failed⟩

theorem attempt (h : Slot.SameFace name s s') (pending : List String) (final : Bool) :
    Slot.SameFace name (s.attempt table pending final) (s'.attempt table pending final) := by
  obtain ⟨file, _, span, state⟩ := s
  obtain ⟨_, _, span', state'⟩ := s'
  obtain ⟨rfl, rfl, rfl, hstate⟩ := h
  cases hstate with
  | failed => exact ⟨rfl, rfl, rfl, .failed⟩
  | typed => exact ⟨rfl, rfl, rfl, .typed⟩
  | waiting hface =>
    simp only [Slot.attempt, hface.inferDeclaration]
    split
    · exact ⟨rfl, rfl, rfl, .typed⟩
    · split
      · exact ⟨rfl, rfl, rfl, .waiting hface⟩
      · exact ⟨rfl, rfl, rfl, .failed⟩

end Slot.SameFace

/-! ## Two runs side by side -/

theorem untypedNames_differ (h : DifferAt (Slot.SameFace name) slots slots') :
    untypedNames slots' = untypedNames slots := by
  induction h with
  | here h =>
    simp only [untypedNames, List.filter_cons, h.isTyped]
    split <;> simp [h.name, h.name']
  | there _ ih =>
    simp only [untypedNames, List.filter_cons] at ih ⊢
    split <;> simp [ih]

theorem recordSlots_differ (h : DifferAt (Slot.SameFace name) slots slots') :
    recordSlots table slots' = recordSlots table slots := by
  refine h.foldl_eq (fun t s s' hs => ?_) table
  have hstate := hs.state
  rw [hs.name, hs.name']
  generalize s.state = state, s'.state = state' at hstate
  cases hstate <;> rfl

theorem attempts_differ (h : DifferAt (Slot.SameFace name) slots slots') (table : Table)
    (pending : List String) (final : Bool) :
    DifferAt (Slot.SameFace name) (slots.map (Slot.attempt table pending final))
      (slots'.map (Slot.attempt table pending final)) :=
  h.map fun _ _ hs => hs.attempt pending final

/-- Every round sees the same names and the same types. -/
theorem inferenceRounds_differ : ∀ (rounds : Nat) {table : Table} {slots slots' : List Slot},
    DifferAt (Slot.SameFace name) slots slots' →
    (inferenceRounds rounds table slots').1 = (inferenceRounds rounds table slots).1 ∧
      DifferAt (Slot.SameFace name) (inferenceRounds rounds table slots).2
        (inferenceRounds rounds table slots').2
  | 0, _, _, _, h => by
    simp only [inferenceRounds, untypedNames_differ h, true_and]
    exact attempts_differ h _ _ _
  | rounds + 1, table, slots, _, h => by
    have hround := attempts_differ h table (untypedNames slots) false
    simp only [inferenceRounds, untypedNames_differ h, untypedNames_differ hround,
      recordSlots_differ hround]
    split
    · exact inferenceRounds_differ rounds hround
    · exact ⟨rfl, attempts_differ h _ _ _⟩

/-- A declaration of a file, and another one of the same face. The sugar of both can be removed. -/
structure Replaces (shown : Name) (d d' : String × Declaration) : Prop where
  file : d'.1 = d.1
  name : d.2.name = shown
  face : SameFace d.2 d'.2
  desugars : ∃ e, desugarTopDeclaration d.1 d.2 = .ok e
  desugars' : ∃ e', desugarTopDeclaration d.1 d'.2 = .ok e'

theorem collectSlots_differ {aliasNames : List String} {ds ds' : List (String × Declaration)}
    (h : DifferAt (Replaces name) ds ds') : ∀ seen : List String,
    Alike Eq (DifferAt (Slot.SameFace name)) (collectSlots table aliasNames ds seen)
      (collectSlots table aliasNames ds' seen) := by
  induction h with
  | @here d d' ds h =>
    intro seen
    obtain ⟨file, d⟩ := d
    obtain ⟨_, d'⟩ := d'
    obtain ⟨rfl, rfl, hface, ⟨e, he⟩, ⟨e', he'⟩⟩ := h
    have hname : d'.name = d.name := hface.name
    simp only [collectSlots, hname]
    cases Slot.requireNew table aliasNames _ d.name seen with
    | error => exact .error rfl
    | ok =>
      cases collectSlots table aliasNames ds (d.name.text :: seen) with
      | error => exact .error rfl
      | ok => exact .ok (.here (Slot.sameFace_ofDeclaration hface he he'))
  | @there d ds ds' _ ih =>
    intro seen
    simp only [collectSlots]
    cases Slot.requireNew table aliasNames d.1 d.2.name seen with
    | error => exact .error rfl
    | ok => exact (ih (d.2.name.text :: seen)).bind fun _ _ hslots => .ok (.there hslots)

/-- The declarations of one name have failed alike, or have the same type. -/
structure BoundDeclaration.SameFace (shown : Name) (b b' : BoundDeclaration) : Prop where
  file : b'.file = b.file
  name : b.name = shown
  name' : b'.name = shown
  result : Alike Eq (fun typed typed' => typed'.2 = typed.2) b.result b'.result

theorem Slot.SameFace.bound (h : Slot.SameFace name s s') :
    BoundDeclaration.SameFace name s.bound s'.bound := by
  refine ⟨h.file, h.name, h.name', ?_⟩
  have hstate := h.state
  unfold Slot.bound
  rw [h.file, h.name, h.name']
  generalize s.state = state, s'.state = state' at hstate
  cases hstate with
  | failed => exact .error rfl
  | waiting _ => exact .error rfl
  | typed => exact .ok rfl

theorem bindDeclarations_differ {aliasNames : List String} {files files' : List SourceFile}
    (h : DifferAt (Replaces name) (files.flatMap valueDeclarations)
      (files'.flatMap valueDeclarations)) :
    Alike Eq (fun r r' => r'.1 = r.1 ∧ DifferAt (BoundDeclaration.SameFace name) r.2 r'.2)
      (bindDeclarations table aliasNames files) (bindDeclarations table aliasNames files') := by
  refine (collectSlots_differ h []).bind fun slots slots' hslots => ?_
  have hannotated : DifferAt (Slot.SameFace name) (slots.map (Slot.annotate table))
      (slots'.map (Slot.annotate table)) := hslots.map fun _ _ hs => hs.annotate
  simp only [recordSlots_differ hannotated, hslots.length_eq]
  obtain ⟨htable, hrounds⟩ := inferenceRounds_differ slots.length hannotated
  exact .ok ⟨htable, hrounds.map fun _ _ hs => hs.bound⟩

end Binding

/-! ## A package with a hole -/

/-- A package without one of its declarations. -/
structure Hole where
  filesBefore : List SourceFile
  /-- The name of the file that lacks a declaration. -/
  file : String
  package : Package
  imports : List Import
  above : List TopLevel
  below : List TopLevel
  filesAfter : List SourceFile

namespace Hole

variable (hole : Hole) (d d' : Declaration)

/-- The file with a declaration in the hole. -/
def fillFile : SourceFile :=
  ⟨hole.file, hole.package, hole.imports, hole.above ++ .declaration d :: hole.below⟩

/-- The package with a declaration in the hole. -/
def fill : List SourceFile := hole.filesBefore ++ hole.fillFile d :: hole.filesAfter

/-- What is collected from each file, and does not look at the declaration in the hole. -/
theorem flatMap_fill {α : Type} {f : SourceFile → List α}
    (hf : f (hole.fillFile d') = f (hole.fillFile d)) :
    (hole.fill d').flatMap f = (hole.fill d).flatMap f := by
  simp only [fill, List.flatMap_append, List.flatMap_cons, hf]

theorem recordSites_fill :
    Binding.recordSites (hole.fill d') = Binding.recordSites (hole.fill d) := by
  refine hole.flatMap_fill d d' ?_
  simp only [fillFile, List.filterMap_append, List.filterMap_cons, Binding.RecordSite.ofTopLevel?]

theorem aliasSites_fill : Binding.aliasSites (hole.fill d') = Binding.aliasSites (hole.fill d) := by
  refine hole.flatMap_fill d d' ?_
  simp only [fillFile, List.filterMap_append, List.filterMap_cons, Binding.AliasSite.ofTopLevel?]

theorem packageName_fill :
    Binding.packageName (hole.fill d') = Binding.packageName (hole.fill d) := by
  unfold Binding.packageName fill
  cases hole.filesBefore <;> rfl

/-- The types of a package do not depend on its declarations of values. -/
theorem bindTypes_fill : Binding.bindTypes (hole.fill d') = Binding.bindTypes (hole.fill d) := by
  have hpackage (expected : String) : (hole.fill d').forM (Binding.requirePackage expected) =
      (hole.fill d).forM (Binding.requirePackage expected) := by
    simp only [fill, List.forM_eq_forM, List.forM_append, List.forM_cons]
    rfl
  have himports (aliasNames : List String) (table : Table) :
      (hole.fill d').foldlM (Binding.bindFileImports aliasNames) table =
        (hole.fill d).foldlM (Binding.bindFileImports aliasNames) table := by
    simp only [fill, List.foldlM_append, List.foldlM_cons]
    rfl
  simp only [Binding.bindTypes, recordSites_fill hole d d', aliasSites_fill hole d d',
    packageName_fill hole d d', hpackage, himports]

variable {d d'}

theorem valueDeclarations_fill (h : Binding.Replaces d.name (hole.file, d) (hole.file, d')) :
    DifferAt (Binding.Replaces d.name) ((hole.fill d).flatMap Binding.valueDeclarations)
      ((hole.fill d').flatMap Binding.valueDeclarations) := by
  have hsplit (d : Declaration) : (hole.fill d).flatMap Binding.valueDeclarations =
      (hole.filesBefore.flatMap Binding.valueDeclarations ++
        Binding.valueDeclarations ⟨hole.file, hole.package, hole.imports, hole.above⟩) ++
      (hole.file, d) ::
        (Binding.valueDeclarations ⟨hole.file, hole.package, hole.imports, hole.below⟩ ++
          hole.filesAfter.flatMap Binding.valueDeclarations) := by
    simp [fill, fillFile, Binding.valueDeclarations, List.filterMap_append]
  rw [hsplit d, hsplit d']
  exact .append h _ _

end Hole

theorem PackageCheck.unboundNames_differ {name : Name} {bound bound' : Bound}
    (h : DifferAt (Binding.BoundDeclaration.SameFace name) bound.declarations
      bound'.declarations) : unboundNames bound' = unboundNames bound := by
  refine h.filterMap_eq fun b b' hb => ?_
  have hresult := hb.result
  rw [hb.name, hb.name']
  generalize b.result = result, b'.result = result' at hresult
  cases hresult <;> rfl

/-- **The body of a declaration does not matter to the others.** With another declaration of the
same face in its place, the package is bound to the same table or fails in the same way, and all
other declarations have the same results and the same outcomes of checking. -/
theorem Bound.ofFiles_fill (hole : Hole) {d d' e e' : Declaration} (hface : SameFace d d')
    (hd : desugarTopDeclaration hole.file d = .ok e)
    (hd' : desugarTopDeclaration hole.file d' = .ok e') :
    Alike Eq (fun bound bound' =>
        bound'.table = bound.table ∧ ∃ before own own' after,
          bound.declarations = before ++ own :: after ∧
          bound'.declarations = before ++ own' :: after ∧
          Binding.BoundDeclaration.SameFace d.name own own' ∧
          ∀ other ∈ before ++ after,
            PackageCheck.checked bound'.table (PackageCheck.unboundNames bound') other =
              PackageCheck.checked bound.table (PackageCheck.unboundNames bound) other)
      (Bound.ofFiles (hole.fill d)) (Bound.ofFiles (hole.fill d')) := by
  have hreplaces : Binding.Replaces d.name (hole.file, d) (hole.file, d') :=
    ⟨rfl, rfl, hface, ⟨e, hd⟩, ⟨e', hd'⟩⟩
  have hvalues := hole.valueDeclarations_fill hreplaces
  rw [Bound.ofFiles_eq, Bound.ofFiles_eq, hole.bindTypes_fill d d']
  cases Binding.bindTypes (hole.fill d) with
  | error failure => exact .error rfl
  | ok types =>
    refine (Binding.bindDeclarations_differ hvalues).bind fun bound bound' hbound => .ok ?_
    obtain ⟨_, declarations⟩ := bound
    obtain ⟨table, declarations'⟩ := bound'
    obtain ⟨rfl, hdiffer⟩ := hbound
    have hunbound : PackageCheck.unboundNames ⟨table, declarations'⟩ =
        PackageCheck.unboundNames ⟨table, declarations⟩ :=
      PackageCheck.unboundNames_differ hdiffer
    obtain ⟨before, own, own', after, hown, hown', hsame⟩ := hdiffer.exists_append
    exact ⟨rfl, before, own, own', after, hown, hown', hsame, fun other _ => by rw [hunbound]⟩

/-! ## A function with another body -/

/-- A package without the function `next`. What stands before it calls it, and what stands after it
has no value. -/
def nextHole : Hole where
  filesBefore := []
  file := "next"
  package := ⟨[.plain "main"], .zero⟩
  imports := []
  above := [.declaration (.plain "two" none (.call "next" [] [.literal (.int 1)]))]
  below := [.declaration (.plain "lost" none (.var "missing"))]
  filesAfter := []

/-- The function `next`, with its types written down. -/
def nextDeclaration (body : List Term) : Declaration :=
  .plain "next" none (.lambda [] [("x", some (.named "Int" []))] (some (.named "Int" [])) body)

/-- A body that fits, and a body that does not. -/
theorem Bound.ofFiles_fill_next :
    SameFace (nextDeclaration [.var "x"]) (nextDeclaration [.literal (.string "no number")]) ∧
      ∃ bound bound',
        Bound.ofFiles (nextHole.fill (nextDeclaration [.var "x"])) = .ok bound ∧
        Bound.ofFiles (nextHole.fill (nextDeclaration [.literal (.string "no number")])) =
          .ok bound' ∧ bound'.table = bound.table := by
  have hface : SameFace (nextDeclaration [.var "x"])
      (nextDeclaration [.literal (.string "no number")]) := .lambda rfl
  have halike := Bound.ofFiles_fill nextHole hface rfl rfl
  have hbound : (Bound.ofFiles (nextHole.fill (nextDeclaration [.var "x"]))).isOk = true := by
    with_unfolding_all rfl
  refine ⟨hface, ?_⟩
  generalize Bound.ofFiles (nextHole.fill (nextDeclaration [.var "x"])) = result,
    Bound.ofFiles (nextHole.fill (nextDeclaration [.literal (.string "no number")])) = result'
    at halike hbound ⊢
  cases halike with
  | ok h => exact ⟨_, _, rfl, rfl, h.1⟩
  | error _ => cases hbound

end UnionChecker
