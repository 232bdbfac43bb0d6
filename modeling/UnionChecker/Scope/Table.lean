import UnionChecker.Basic
import UnionChecker.Discriminator
import UnionChecker.Library
import UnionChecker.Ty.Substitution
/-!
# The symbol table of a package

Everything that is declared at package level, and what each file imports. The table is built by
binding and only read afterwards.
-/

namespace UnionChecker

/-- What the name of a type refers to. -/
inductive TypeSymbol where
  /-- A declared type. -/
  | named (decl : Nominal) (args : List Ty)
  /-- Another name for a type, with generics of its own. -/
  | synonym (generics : List String) (ty : Ty)
  /-- A generic parameter in scope. -/
  | generic
deriving Repr

/-- A value that a file imports. -/
structure ImportedValue where
  /-- Where it comes from, under its own name. -/
  origin : Ref
  type : Ty
deriving Repr

/-- The symbol table of a package. -/
structure Table where
  package : String
  types : List (String × TypeSymbol) := []
  values : List (String × Ty) := []
  /-- Imported types, by file and local name. -/
  fileTypes : List ((String × String) × TypeSymbol) := []
  /-- Imported values, by file and local name. -/
  fileValues : List ((String × String) × ImportedValue) := []
  fields : List (Ref × List (String × Ty)) := []
  /-- Type aliases with their generics. -/
  typeAliases : List (Ref × (List String × Ty)) := []
  /-- Constructors of the structs and interfaces of the package. -/
  constructors : List (Ref × Signature) := []
  /-- Signatures of what is imported. -/
  natives : List (Ref × Signature) := []
  /-- The package behind an import, by file and local name. -/
  nativePackages : List ((String × String) × String) := []
  matchFields : MatchFields := []
deriving Repr

namespace Table

/-- A table without declarations. -/
def empty (package : String) : Table := { package }

/-- Declare a type; fails when the name is taken. -/
def defineType (t : Table) (name : String) (symbol : TypeSymbol) : Option Table :=
  if hasKey name t.types then none else some { t with types := put name symbol t.types }

/-- Declare a type, replacing what the name was. -/
def setType (t : Table) (name : String) (symbol : TypeSymbol) : Table :=
  { t with types := put name symbol t.types }

/-- Declare a value; fails when the name is taken. -/
def defineValue (t : Table) (name : String) (ty : Ty) : Option Table :=
  if hasKey name t.values then none else some { t with values := put name ty t.values }

/-- Import a type into a file; fails when the file has one of that name. -/
def defineFileType (t : Table) (file name : String) (symbol : TypeSymbol) : Option Table :=
  if hasKey (file, name) t.fileTypes then none
  else some { t with fileTypes := put (file, name) symbol t.fileTypes }

/-- Import a value into a file; fails when the file has one of that name. -/
def defineFileValue (t : Table) (file name : String) (value : ImportedValue) : Option Table :=
  if hasKey (file, name) t.fileValues then none
  else some { t with fileValues := put (file, name) value t.fileValues }

/-- Record the fields of a type. -/
def setFields (t : Table) (owner : Ref) (fields : List (String × Ty)) : Table :=
  { t with fields := put owner fields t.fields }

/-- Whether a name is declared at package level, as a type or as a value. -/
def hasPackageName (t : Table) (name : String) : Bool := hasKey name t.types || hasKey name t.values

/-- The fields of a type at given generics. Records of the standard library are known without an
import. -/
def fieldsOf (t : Table) (decl : Nominal) (args : List Ty) : Option (List (String × Ty)) := do
  let fields ← (
    match t.fields.lookup decl.ref with
    | some fields => some fields
    | none =>
      match Library.lookup decl.ref with
      | some (.record record) => some record.fields
      | _ => none)
  let σ := Substitution.ofLists decl.formals args
  return fields.map fun field => (field.1, field.2.resolve σ)

end Table

end UnionChecker
