import UnionChecker.Binding.Imports
import UnionChecker.Scope.TypeExpr
/-!
# Type aliases and fields

Type aliases may refer to each other in any order. They are resolved in rounds: every round resolves
what the aliases of earlier rounds allow, and a round without progress reports the last failure.
Afterwards every type name is known, and the fields of structs and interfaces are resolved.
-/

namespace UnionChecker.Binding

open Syntax

/-- The scope of a file at package level. -/
def fileContext (table : Table) (file : String) : Context := { table, file }

/-- The type that an alias stands for. -/
def resolveAlias (table : Table) (site : AliasSite) : Except Failure Ty :=
  (fileContext table site.file).resolveType .initial (site.typeAlias.generics.map (·.text))
    site.typeAlias.type

/-- Record what an alias stands for. -/
def recordAlias (table : Table) (resolved : TypeAlias × Ty) : Table :=
  let (typeAlias, ty) := resolved
  let name := typeAlias.name.text
  let generics := typeAlias.generics.map (·.text)
  let table := table.setType name (.synonym generics ty)
  { table with typeAliases := put ⟨table.package, name⟩ (generics, ty) table.typeAliases }

/-- The aliases that can be resolved against a table. -/
def resolvedAliases (table : Table) (pending : List AliasSite) : List (TypeAlias × Ty) :=
  pending.filterMap fun site =>
    match resolveAlias table site with
    | .ok ty => some (site.typeAlias, ty)
    | .error _ => none

/-- The aliases that cannot be resolved against a table, and why. -/
def unresolvedAliases (table : Table) (pending : List AliasSite) : List (AliasSite × Failure) :=
  pending.filterMap fun site =>
    match resolveAlias table site with
    | .ok _ => none
    | .error failure => some (site, failure)

/-- Resolve the pending aliases in at most `rounds` rounds. Every round with progress leaves fewer
of them, so as many rounds as there are aliases are enough. -/
def aliasRounds : Nat → Table → List AliasSite → Except Failure Table
  | 0, table, _ => .ok table
  | rounds + 1, table, pending =>
    let resolved := resolvedAliases table pending
    let unresolved := unresolvedAliases table pending
    match resolved, unresolved.getLast? with
    | [], some (_, failure) => .error failure
    | _, _ => aliasRounds rounds (resolved.foldl recordAlias table) (unresolved.map (·.1))

/-- Resolve type aliases. -/
def bindAliases (table : Table) (sites : List AliasSite) : Except Failure Table :=
  aliasRounds sites.length table sites

/-- The first name that occurred before. -/
def firstRepeated : List Name → (seen : List String) → Option Name
  | [], _ => none
  | name :: names, seen =>
    if seen.contains name.text then some name else firstRepeated names (name.text :: seen)

/-- Resolve the fields of a struct or interface, given the names of the fields before. The fields of
a struct must be comparable. -/
def resolveFields (Γ : Context) (site : RecordSite) :
    List (Name × TypeExpr) → (seen : List String) → Except Failure (List (String × Ty))
  | [], _ => .ok []
  | (name, type) :: fields, seen =>
    if seen.contains name.text then
      .error (Γ.failure (.duplicateField name.text site.record.name.text) name.span)
    else do
      let ty ← Γ.resolveType .initial (site.record.generics.map (·.text)) type
      if site.isStruct && !ty.storable then .error (Γ.failure (.incomparableField ty) type.span)
      let rest ← resolveFields Γ site fields (name.text :: seen)
      return (name.text, ty) :: rest

/-- The type of a struct or interface with its fields. -/
def resolveRecord (table : Table) (site : RecordSite) : Except Failure RecordType := do
  let Γ := fileContext table site.file
  match firstRepeated site.record.generics [] with
  | some generic =>
    .error (Γ.failure (.duplicateGeneric generic.text site.record.name.text) generic.span)
  | none =>
    let fields ← resolveFields Γ site site.record.fields []
    return ⟨site.nominal table.package, fields⟩

/-- Record the fields and the constructor of a struct or interface. -/
def recordType (table : Table) (record : RecordType) : Table :=
  let table := recordFields table record.decl record.fields
  { table with
    values := put record.decl.ref.name record.constructor.toTy table.values
    constructors := put record.decl.ref record.constructor table.constructors }

/-- Resolve structs and interfaces, all against the same table. -/
def bindRecords (table : Table) (sites : List RecordSite) : Except Failure Table := do
  let records ← sites.mapM (resolveRecord table)
  return records.foldl recordType table

end UnionChecker.Binding
