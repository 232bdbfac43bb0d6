import UnionChecker.Binding.Package
/-!
# Imports

An import makes something of the standard library known in one file, perhaps under another name. A
record brings its type and its constructor, a function its signature.
-/

namespace UnionChecker.Binding

open Syntax

/-- What an import refers to: its full name, and the name it has in the file. -/
structure ImportTarget where
  ref : Ref
  localName : Name

/-- The target of an import, which is always inside a package. -/
def ImportTarget.of? (i : Import) : Option ImportTarget :=
  match i.path.getLast? with
  | none => none
  | some name =>
    let path := i.path.dropLast
    if path.isEmpty then none
    else some ⟨⟨".".intercalate (path.map (·.text)), name.text⟩, i.renamed.getD name⟩

/-- Why nothing is imported. -/
def missingItem (ref : Ref) : Cause :=
  if Library.hasPackage ref.package then .importNotFound ref.name ref.package
  else .packageNotFound ref.package

/-- Record the fields and the witness fields of a record. -/
def recordFields (table : Table) (decl : Nominal) (fields : List (String × Ty)) : Table :=
  let table := table.setFields decl.ref fields
  if decl.formals.isEmpty then table
  else { table with
    matchFields := put decl.ref (witnessFields decl.formals fields) table.matchFields }

/-- Record a value that a file imports; none when the file has one of that name. -/
def importValue (table : Table) (file : String) (target : ImportTarget) (signature : Signature) :
    Option Table := do
  let table ← table.defineFileValue file target.localName.text ⟨target.ref, signature.toTy⟩
  return { table with
    natives := put target.ref signature table.natives
    nativePackages := put (file, target.localName.text) target.ref.package table.nativePackages }

/-- Import an item into a file; none when the file has one of that name. -/
def importItem (table : Table) (file : String) (target : ImportTarget) :
    LibraryItem → Option Table
  | .function signature => importValue table file target signature
  | .record record => do
    let symbol := .named record.decl (record.decl.formals.map .var)
    let table ← table.defineFileType file target.localName.text symbol
    let table ← importValue table file target record.constructor
    return recordFields table record.decl record.fields

/-- Resolve an import of a file. -/
def bindImport (aliasNames : List String) (file : String) (table : Table) (i : Import) :
    Except Failure Table :=
  match ImportTarget.of? i with
  | none => .error (.of .importWithoutPackage file i.span)
  | some target =>
    let name := target.localName
    if table.hasPackageName name.text || aliasNames.contains name.text then
      .error (.of (.importConflict name.text) file name.span)
    else
      match Library.lookup target.ref with
      | none => .error (.of (missingItem target.ref) file i.span)
      | some item =>
        match importItem table file target item with
        | some table => .ok table
        | none => .error (.of (.duplicateImport name.text) file name.span)

/-- Resolve the imports of a file. -/
def bindFileImports (aliasNames : List String) (table : Table) (file : SourceFile) :
    Except Failure Table :=
  file.tree.imports.foldlM (bindImport aliasNames file.name) table

end UnionChecker.Binding
