import UnionChecker.Failure
import UnionChecker.Scope.Table
import UnionChecker.Syntax.Tree
import UnionChecker.Text.Letters
/-!
# The package and the names of its types

All files of a package name the same package. The names of its structs, interfaces and type aliases
are declared before anything is looked up, so their order does not matter.
-/

namespace UnionChecker.Binding

open Syntax

/-- Whether a text may be a segment of a package name. -/
def isPackageSegment (text : String) : Bool :=
  match text.toList with
  | [] => false
  | c :: cs =>
    Text.isLowercase c && (c :: cs).all fun c => Text.isAlphanumeric c || c == '_'

/-- Require that a file names the package `expected`, and that this is a proper name. -/
def requirePackage (expected : String) (file : SourceFile) : Except Failure Unit :=
  let package := file.tree.package
  match package.path.find? fun segment => !isPackageSegment segment.text with
  | some segment => .error (.of .packageName file.name segment.span)
  | none =>
    if package.dotted == expected then .ok ()
    else .error (.of (.packageMismatch expected package.dotted) file.name package.span)

/-- The package that the first file names. -/
def packageName (files : List SourceFile) : String :=
  (files.head?.map fun file => file.tree.package.dotted).getD ""

/-- A struct or an interface of a file. -/
structure RecordSite where
  file : String
  record : Record
  isStruct : Bool

/-- The struct or interface that a declaration of a file is. -/
def RecordSite.ofTopLevel? (file : String) : TopLevel → Option RecordSite
  | .struct record => some ⟨file, record, true⟩
  | .interface record => some ⟨file, record, false⟩
  | _ => none

/-- The structs and interfaces of a package in source order. -/
def recordSites (files : List SourceFile) : List RecordSite :=
  files.flatMap fun file => file.tree.declarations.filterMap (RecordSite.ofTopLevel? file.name)

/-- The type that a struct or interface declares. Only structs can be stored in struct fields. -/
def RecordSite.nominal (site : RecordSite) (package : String) : Nominal :=
  ⟨⟨package, site.record.name.text⟩, site.record.generics.map (·.text), site.isStruct⟩

/-- A type alias of a file. -/
structure AliasSite where
  file : String
  typeAlias : TypeAlias

/-- The type alias that a declaration of a file is. -/
def AliasSite.ofTopLevel? (file : String) : TopLevel → Option AliasSite
  | .typeAlias typeAlias => some ⟨file, typeAlias⟩
  | _ => none

/-- The type aliases of a package in source order. -/
def aliasSites (files : List SourceFile) : List AliasSite :=
  files.flatMap fun file => file.tree.declarations.filterMap (AliasSite.ofTopLevel? file.name)

/-- Declare the type of a struct or interface. -/
def declareRecord (table : Table) (site : RecordSite) : Except Failure Table :=
  let name := site.record.name
  let nominal := site.nominal table.package
  match table.defineType name.text (.named nominal (nominal.formals.map .var)) with
  | some table => .ok table
  | none => .error (.of (.duplicateType name.text) site.file name.span)

/-- Declare the name of a type alias, given those declared before. -/
def declareAlias (table : Table) (names : List String) (site : AliasSite) :
    Except Failure (List String) :=
  let name := site.typeAlias.name
  if table.hasPackageName name.text || names.contains name.text then
    .error (.of (.duplicateType name.text) site.file name.span)
  else .ok (name.text :: names)

end UnionChecker.Binding
