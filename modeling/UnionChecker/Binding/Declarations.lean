import UnionChecker.Binding.Types
import UnionChecker.Check.Expr
import UnionChecker.Syntax.Desugar
/-!
# Types of package-level declarations

A declaration with a written type is typed at once. The others are inferred in rounds, each against
what the rounds before know. A declaration that refers to a name without a type yet waits for the
next round; any other failure is final, and the name stays without a type. A round that types
nothing ends the inference, and who still waits fails.
-/

namespace UnionChecker.Binding

open Syntax

/-- How far the binding of a declaration has come. -/
inductive BindingState where
  | failed (failure : Failure)
  /-- The type is to be inferred. -/
  | waiting (declaration : Declaration)
  | typed (declaration : Declaration) (ty : Ty)

/-- A package-level declaration on its way. -/
structure Slot where
  file : String
  name : Name
  span : Span
  state : BindingState

namespace Slot

/-- Whether the type is known. -/
def isTyped (slot : Slot) : Bool :=
  match slot.state with
  | .typed _ _ => true
  | _ => false

/-- Require that the name of a declaration is new, given the names of the declarations before. -/
def requireNew (table : Table) (aliasNames : List String) (file : String) (name : Name)
    (seen : List String) : Except Failure Unit :=
  if table.hasPackageName name.text || aliasNames.contains name.text || seen.contains name.text
  then .error (.of (.duplicateVariable name.text) file name.span)
  else .ok ()

/-- The slot of a declaration, with its sugar removed. -/
def ofDeclaration (file : String) (d : Declaration) : Slot :=
  let desugared : Except Failure Declaration :=
    if d.name.text == "true" || d.name.text == "false" then
      .error (.of (.reservedName d.name.text) file d.name.span)
    else desugarTopDeclaration file d
  ⟨file, d.name, d.span,
    match desugared with
    | .ok d => .waiting d
    | .error failure => .failed failure⟩

end Slot

/-- The declarations of a file that bind a value. -/
def valueDeclarations (file : SourceFile) : List (String × Declaration) :=
  file.tree.declarations.filterMap fun
    | .declaration d => some (file.name, d)
    | _ => none

/-- The slots of declarations, given the names of the declarations before. -/
def collectSlots (table : Table) (aliasNames : List String) :
    List (String × Declaration) → (seen : List String) → Except Failure (List Slot)
  | [], _ => .ok []
  | (file, d) :: rest, seen => do
    Slot.requireNew table aliasNames file d.name seen
    let slots ← collectSlots table aliasNames rest (d.name.text :: seen)
    return .ofDeclaration file d :: slots

/-- Give a slot its written type, if it has one. -/
def Slot.annotate (table : Table) (slot : Slot) : Slot :=
  match slot.state with
  | .waiting d =>
    match d.type with
    | none => slot
    | some type =>
      match (fileContext table slot.file).resolveType .initial [] type with
      | .ok ty => { slot with state := .typed d ty }
      | .error failure => { slot with state := .failed failure }
  | _ => slot

/-- Record the types of slots as package values. -/
def recordSlots (table : Table) (slots : List Slot) : Table :=
  slots.foldl (fun table slot =>
    match slot.state with
    | .typed _ ty => { table with values := put slot.name.text ty table.values }
    | _ => table) table

/-- The names that have no type. -/
def untypedNames (slots : List Slot) : List String :=
  (slots.filter fun slot => !slot.isTyped).map (·.name.text)

/-- Try to infer the type of a waiting slot. A slot that is not ready stays as it is, unless the
inference is to end. -/
def Slot.attempt (table : Table) (pending : List String) (final : Bool) (slot : Slot) : Slot :=
  match slot.state with
  | .waiting d =>
    match Check.atTopLevel (Check.inferDeclaration ⟨table, slot.file, pending⟩ d) with
    | .ok ty => { slot with state := .typed d ty }
    | .error failure =>
      if failure.isUndetermined && !final then slot else { slot with state := .failed failure }
  | _ => slot

/-- Infer the types of waiting slots in at most `rounds` rounds, and end with a round in which
nothing waits any longer. Every round with progress types a slot, so as many rounds as there are
slots are enough. -/
def inferenceRounds : Nat → Table → List Slot → Table × List Slot
  | 0, table, slots =>
    (table, slots.map (Slot.attempt table (untypedNames slots) true))
  | rounds + 1, table, slots =>
    let attempted := slots.map (Slot.attempt table (untypedNames slots) false)
    if (untypedNames attempted).length < (untypedNames slots).length then
      inferenceRounds rounds (recordSlots table attempted) attempted
    else (table, slots.map (Slot.attempt table (untypedNames slots) true))

/-- A package-level declaration, without sugar and with its type, or why it has none. -/
structure BoundDeclaration where
  file : String
  name : Name
  span : Span
  result : Except Failure (Declaration × Ty)

/-- What became of a slot. -/
def Slot.bound (slot : Slot) : BoundDeclaration :=
  ⟨slot.file, slot.name, slot.span,
    match slot.state with
    | .failed failure => .error failure
    | .typed d ty => .ok (d, ty)
    | .waiting _ => .error (.of (.undetermined slot.name.text) slot.file slot.name.span)⟩

/-- Type the declarations of a package. -/
def bindDeclarations (table : Table) (aliasNames : List String) (files : List SourceFile) :
    Except Failure (Table × List BoundDeclaration) := do
  let slots ← collectSlots table aliasNames (files.flatMap valueDeclarations) []
  let annotated := slots.map (Slot.annotate table)
  let (table, slots) := inferenceRounds slots.length (recordSlots table annotated) annotated
  return (table, slots.map Slot.bound)

end UnionChecker.Binding

namespace UnionChecker

/-! ## The whole package

Binding builds the symbol table of a package: the package name, the names of its types, the
imports, type aliases, fields, and at last the types of its declarations. A failure of one
declaration belongs to this declaration; every other failure is that of the whole package. -/

open Syntax

/-- A package with its symbol table. -/
structure Bound where
  table : Table
  /-- The declarations by file, in source order. -/
  declarations : List Binding.BoundDeclaration

/-- Bind the files of a package. -/
def Bound.ofFiles (files : List SourceFile) : Except Failure Bound := do
  let package := Binding.packageName files
  files.forM (Binding.requirePackage package)
  let records := Binding.recordSites files
  let aliases := Binding.aliasSites files
  let table ← records.foldlM Binding.declareRecord (.empty package)
  let aliasNames ← aliases.foldlM (Binding.declareAlias table) []
  let table ← files.foldlM (Binding.bindFileImports aliasNames) table
  let table ← Binding.bindAliases table aliases
  let table ← Binding.bindRecords table records
  let (table, declarations) ← Binding.bindDeclarations table aliasNames files
  return ⟨table, declarations⟩

end UnionChecker
