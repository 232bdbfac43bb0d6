import UnionChecker.Proofs.Binding.Hereditary
import UnionChecker.Proofs.Spelling.Binding
/-!
# Packages are accepted however their generics are spelled

A respelling of the generics in the values of a package leaves the types of the package alone, if it
keeps the generics of these types (`Suits`). Then values are bound and checked against one table, and
the package is accepted exactly if the respelled one is (`checkFiles_respell`).
-/

namespace UnionChecker

open Syntax Binding

/-! ## Types that stay as they are -/

namespace Ty

variable {V : Vocabulary}

theorem Over.of_mem_flatten {t m : Ty} (h : t.Over V) (hm : m ∈ t.flatten) : m.Over V := by
  induction t with
  | union ms ih =>
    rw [flatten, flattenAll_eq_flatMap] at hm
    obtain ⟨member, hmember, hm⟩ := List.mem_flatMap.1 hm
    exact ih member hmember (over_union.1 h member hmember) hm
  | var | named | fn => rwa [List.mem_singleton.1 hm]

theorem over_join {ts : List Ty} (h : ∀ t ∈ ts, t.Over V) : (join ts).Over V := by
  have hmem : ∀ m ∈ flattenAll ts, m.Over V := by
    intro m hm
    rw [flattenAll_eq_flatMap] at hm
    obtain ⟨t, ht, hm⟩ := List.mem_flatMap.1 hm
    exact (h t ht).of_mem_flatten hm
  rcases unionWith_cases equal ts with hone | ⟨ms, hms, hsub⟩
  · exact hmem _ hone
  · rw [join, hms]
    exact .union fun m hm => hmem m (hsub m hm)

theorem hereditary_over (V : Vocabulary) : Hereditary V.generic (fun d _ => V.decl d) (Over V) where
  var := over_var
  named := over_named
  fn := over_fn
  member h hm := over_union.1 h _ hm
  join := over_join

end Ty

namespace Respelling

variable (S : Respelling)

/-- A generic that keeps its name. -/
def Fixed (x : String) : Prop := S.generic x ∧ S.spell x = x

/-- The names that stay. -/
def fixed : Vocabulary := ⟨S.Fixed, S.decl⟩

/-- The declared types are known with their fields, and the respelling keeps the generics in them. -/
structure KeepsTypes : Prop where
  formals : ∀ d, S.decl d → d.ref.package = "" ∨ ∀ x ∈ d.formals, S.Fixed x
  within : ∀ d, S.decl d → Library.Within S.Fixed d.ref
  library : ∀ ref record, Library.Within S.Fixed ref →
    Library.lookup ref = some (.record record) → S.decl record.decl

variable {S} {table : Table}

theorem forall₂_spellsName_self {gs : List String} (h : ∀ g ∈ gs, S.Fixed g) :
    List.Forall₂ S.SpellsName gs gs :=
  List.forall₂_same.2 fun g hg => ⟨(h g hg).1, (h g hg).2.symm⟩

theorem spells_self {t : Ty} (h : t.Over S.fixed) : S.Spells t t := by
  induction t with
  | var x =>
    obtain ⟨hx, hspell⟩ := Ty.over_var.1 h
    exact spells_var.2 ⟨x, ⟨hx, hspell.symm⟩, rfl⟩
  | named decl args ih =>
    obtain ⟨hdecl, hargs⟩ := Ty.over_named.1 h
    exact spells_named.2 ⟨hdecl, args, List.forall₂_same.2 fun t ht => ih t ht (hargs t ht), rfl⟩
  | fn gs ps r ihp ihr =>
    obtain ⟨hgs, hps, hr⟩ := Ty.over_fn.1 h
    exact spells_fn.2 ⟨gs, ps, r, forall₂_spellsName_self hgs,
      List.forall₂_same.2 fun p hp => ⟨rfl, ihp p hp (hps p hp)⟩, ihr hr, rfl⟩
  | union ms ih =>
    exact spells_union.2
      ⟨ms, List.forall₂_same.2 fun m hm => ih m hm (Ty.over_union.1 h m hm), rfl⟩

theorem predeclared_fixed (hS : S.KeepsTypes) :
    Predeclared S.Fixed (fun d _ => S.decl d) (Ty.Over S.fixed) where
  builtin _ ht := S.builtin ht
  item _ _ := library_satisfies (Ty.hereditary_over S.fixed) (fun _ ht => S.builtin ht) hS.library
  within d _ := hS.within d

end Respelling

/-! ## The names of types -/

/-- How the types of a table are called. Built-in types have no fields in it. -/
structure Table.Labelled (K : String → Prop) (table : Table) : Prop where
  types : ∀ entry ∈ table.types, K entry.1
  fileTypes : ∀ entry ∈ table.fileTypes, K entry.1.2
  fields : ∀ entry ∈ table.fields, entry.1.package ≠ ""

/-- How the types that a package declares or imports are called. -/
structure Binding.TypeNames (K : String → Prop) (files : List SourceFile) : Prop where
  records : ∀ site ∈ recordSites files, K site.record.name.text
  aliases : ∀ site ∈ aliasSites files, K site.typeAlias.name.text
  imports : ∀ file ∈ files, ∀ i ∈ file.tree.imports, ∀ target record,
    ImportTarget.of? i = some target → Library.lookup target.ref = some (.record record) →
    K target.localName.text

section

variable {K : String → Prop} {table table' : Table}

theorem labelled_recordFields {decl : Nominal} {fields : List (String × Ty)}
    (ht : table.Labelled K) (h : decl.ref.package ≠ "") :
    (recordFields table decl fields).Labelled K := by
  have hfields : ∀ entry ∈ put decl.ref fields table.fields, entry.1.package ≠ "" :=
    forall_mem_put h ht.fields
  unfold recordFields
  split
  · exact { ht with fields := hfields }
  · exact { ht with fields := hfields }

theorem labelled_bindImport {aliasNames : List String} {file : String} {i : Import}
    (hi : ∀ target record, ImportTarget.of? i = some target →
      Library.lookup target.ref = some (.record record) → K target.localName.text)
    (ht : table.Labelled K) (h : bindImport aliasNames file table i = .ok table') :
    table'.Labelled K ∧ table'.package = table.package := by
  obtain ⟨target, item, htarget, hitem, himport⟩ := bindImport_eq_ok h
  cases item with
  | function signature =>
    obtain rfl := importValue_eq_some himport
    exact ⟨{ ht with }, rfl⟩
  | record record =>
    obtain ⟨typed, valued, htype, hvalue, rfl⟩ := importRecord_eq_some himport
    obtain rfl := defineFileType_eq_some htype
    obtain rfl := importValue_eq_some hvalue
    have hpackage : record.decl.ref.package ≠ "" := by
      rw [library_ref hitem]
      exact library_package_ne hitem
    have hname : K target.localName.text := hi target record htarget hitem
    exact ⟨labelled_recordFields ⟨ht.types, forall_mem_put hname ht.fileTypes, ht.fields⟩ hpackage,
      package_recordFields _ _ _⟩

theorem bindTypes_labelled {files : List SourceFile} {aliasNames : List String}
    (hpackage : packageName files ≠ "") (hnames : TypeNames K files)
    (h : bindTypes files = .ok (table, aliasNames)) : table.Labelled K := by
  let Kept := fun t : Table => t.Labelled K ∧ t.package = packageName files
  have hkept : Kept table := by
    refine bindTypes_invariant (I := Kept) ?_ ?_ ?_ ?_ ?_ h
    · exact ⟨⟨by simp [Table.empty], by simp [Table.empty], by simp [Table.empty]⟩, rfl⟩
    · rintro site hsite t t' ⟨ht, hp⟩ hdeclare
      obtain ⟨-, rfl⟩ := declareRecord_eq_ok hdeclare
      exact ⟨{ ht with types := forall_mem_put (hnames.records site hsite) ht.types }, hp⟩
    · rintro file hfile i hi _ t t' ⟨ht, hp⟩ himport
      obtain ⟨ht', hp'⟩ := labelled_bindImport (hnames.imports file hfile i hi) ht himport
      exact ⟨ht', hp'.trans hp⟩
    · rintro site hsite _ t ty - ⟨ht, hp⟩ -
      exact ⟨{ ht with types := forall_mem_put (hnames.aliases site hsite) ht.types }, hp⟩
    · rintro site hsite known t record ⟨-, hknown⟩ ⟨ht, hp⟩ hrecord
      obtain ⟨-, fields, -, rfl⟩ := resolveRecord_eq_ok hrecord
      have hown : (site.nominal known.package).ref.package ≠ "" := by
        rw [RecordSite.nominal, hknown]
        exact hpackage
      have ht' : (recordFields t (site.nominal known.package) fields).Labelled K :=
        labelled_recordFields ht hown
      exact ⟨{ ht' with }, (package_recordType t _).trans hp⟩
  exact hkept.1

end

/-! ## The table that values are bound against -/

namespace Respelling

variable {S : Respelling} {table : Table} {K : String → Prop}

/-- A name that stands for a type is none that a respelling changes or brings in. -/
def Apart (S : Respelling) (K : String → Prop) : Prop :=
  ∀ x, S.written x → S.spell x ≠ x → ¬ K x ∧ ¬ K (S.spell x)

/-- A name that no type has stands for none. -/
theorem lookupType_eq_none {file x : String} (ht : table.Labelled K)
    (hbuiltin : ∀ t ∈ Library.defaultTypes, K t.1.ref.name) (hx : ¬ K x) :
    Context.lookupType { table, file } [] x = none := by
  refine Option.eq_none_iff_forall_ne_some.2 fun symbol h => hx ?_
  rcases Option.or_eq_some_iff.1 h with h | ⟨-, h⟩
  · exact ht.fileTypes _ (mem_of_lookup_eq_some h)
  rcases Option.or_eq_some_iff.1 h with h | ⟨-, h⟩
  · exact ht.types _ (mem_of_lookup_eq_some h)
  · obtain ⟨t, ht, -⟩ := Option.map_eq_some_iff.1 h
    have hname := List.find?_some ht
    rw [← beq_iff_eq.1 hname]
    exact hbuiltin t (List.mem_of_find?_eq_some ht)

theorem spellsSymbol_self {x : String} {symbol : TypeSymbol}
    (h : symbol.Satisfies (fun d _ => S.decl d) (Ty.Over S.fixed)) : S.SpellsSymbol x symbol symbol := by
  cases symbol with
  | named decl args => exact .named h
  | synonym generics ty =>
    exact .synonym (forall₂_spellsName_self fun g hg => Ty.over_var.1 (h.1 g hg)) (spells_self h.2)
  | generic => exact .generic (Ty.over_var.1 (h x)).1

/-- The fields of a type are those of its declaration, at the given generics. -/
theorem fieldsOf_eq_map (table : Table) (decl : Nominal) (args : List Ty) :
    table.fieldsOf decl args = (table.fieldsOf decl []).map
      (List.map fun field => (field.1, field.2.resolve (.ofLists decl.formals args))) := by
  have hnone : Substitution.ofLists decl.formals [] = [] := by simp [Substitution.ofLists]
  simp only [Table.fieldsOf, hnone, Option.bind_eq_bind, Option.map_bind]
  refine congrArg (Option.bind _) (funext fun fields => ?_)
  simp [Ty.resolve]

theorem fieldsOf_builtin {decl : Nominal} (hlabels : table.Labelled K)
    (h : decl.ref.package = "") (args : List Ty) : table.fieldsOf decl args = none := by
  have hown : table.fields.lookup decl.ref = none :=
    Option.eq_none_iff_forall_ne_some.2 fun _ hfields =>
      hlabels.fields _ (mem_of_lookup_eq_some hfields) h
  have hlibrary : Library.lookup decl.ref = none :=
    Option.eq_none_iff_forall_ne_some.2 fun _ hitem => library_package_ne hitem h
  rw [Table.fieldsOf, hown, hlibrary]
  rfl

theorem spellsTable_self (hS : S.KeepsTypes)
    (ht : table.Satisfies (fun d _ => S.decl d) (Ty.Over S.fixed)) (hlabels : table.Labelled K)
    (hbuiltin : ∀ t ∈ Library.defaultTypes, K t.1.ref.name) (hapart : S.Apart K) :
    S.SpellsTable table table where
  types := rfl
  fileTypes := rfl
  fileValues := rfl
  fields := rfl
  matchFields := rfl
  values := List.forall₂_same.2 fun entry hentry => ⟨rfl, spells_self (ht.values entry hentry)⟩
  imported entry hentry := spells_self (ht.fileValues entry hentry)
  symbol file x hx := by
    by_cases hspell : S.spell x = x
    · rw [hspell]
      cases hsymbol : Context.lookupType { table, file } [] x with
      | none => exact .none
      | some symbol =>
        have hsatisfies := lookupType_satisfies (predeclared_fixed hS) ht.toNamesSatisfy hsymbol
        exact .some (spellsSymbol_self (hsatisfies.resolve_left fun h => nomatch h.2))
    · obtain ⟨hx, hspelled⟩ := hapart x hx hspell
      rw [lookupType_eq_none hlabels hbuiltin hx, lookupType_eq_none hlabels hbuiltin hspelled]
      exact .none
  fieldsOf decl args args' hdecl hargs := by
    rcases hS.formals decl hdecl with hpackage | hformals
    · rw [fieldsOf_builtin hlabels hpackage, fieldsOf_builtin hlabels hpackage]
      exact .none
    · rw [fieldsOf_eq_map table decl args, fieldsOf_eq_map table decl args']
      cases hfields : table.fieldsOf decl [] with
      | none => exact .none
      | some fields =>
        have hown := fieldsOf_satisfies (Ty.hereditary_over S.fixed) (predeclared_fixed hS) ht hdecl
          (by simp) hfields
        have hσ := forall₂_ofLists (forall₂_spellsName_self hformals) hargs
        exact .some (List.forall₂_map_left_iff.2 (List.forall₂_map_right_iff.2
          (List.forall₂_same.2 fun field hfield =>
            ⟨rfl, (spells_self (hown field hfield)).resolve hσ⟩)))

end Respelling

/-! ## Acceptance -/

theorem recordSites_respell (f : String → String) (files : List SourceFile) :
    recordSites (files.map (·.respell f)) = recordSites files := by
  rw [recordSites, List.flatMap_map]
  refine congrArg files.flatMap (funext fun file => ?_)
  rw [SourceFile.respell, List.filterMap_map]
  refine congrArg (List.filterMap · _) (funext fun d => ?_)
  cases d <;> rfl

theorem aliasSites_respell (f : String → String) (files : List SourceFile) :
    aliasSites (files.map (·.respell f)) = aliasSites files := by
  rw [aliasSites, List.flatMap_map]
  refine congrArg files.flatMap (funext fun file => ?_)
  rw [SourceFile.respell, List.filterMap_map]
  refine congrArg (List.filterMap · _) (funext fun d => ?_)
  cases d <;> rfl

theorem packageName_respell (f : String → String) (files : List SourceFile) :
    packageName (files.map (·.respell f)) = packageName files := by
  cases files <;> rfl

/-- Respelled files declare the same types. -/
theorem bindTypes_respell (f : String → String) (files : List SourceFile) :
    bindTypes (files.map (·.respell f)) = bindTypes files := by
  have hrequire (package : String) : (files.map (·.respell f)).forM (requirePackage package) =
      files.forM (requirePackage package) := by
    induction files with
    | nil => rfl
    | cons file files ih =>
      rw [List.map_cons, List.forM, List.forM, ih]
      rfl
  have himports (aliasNames : List String) (table : Table) :
      (files.map (·.respell f)).foldlM (bindFileImports aliasNames) table =
        files.foldlM (bindFileImports aliasNames) table := by
    rw [List.foldlM_map]
    rfl
  simp only [bindTypes, packageName_respell, recordSites_respell, aliasSites_respell, hrequire,
    himports]

/-- A package is accepted exactly if its types and its values are bound and its values pass their
checks. -/
theorem checkFiles_ok_iff_bind {config : Config} {files : List SourceFile} :
    (∃ p, checkFiles config files = .ok p) ↔ ∃ table aliasNames,
      bindTypes files = .ok (table, aliasNames) ∧ ∃ r, bindDeclarations table aliasNames files = .ok r ∧
        ∀ b ∈ r.2, ∃ d, PackageCheck.checked r.1 [] b = .ok d := by
  simp only [checkFiles_ok_iff, Bound.ofFiles_eq_ok]
  constructor
  · rintro ⟨bound, ⟨table, aliasNames, htypes, hdeclarations⟩, h⟩
    exact ⟨table, aliasNames, htypes, _, hdeclarations, h⟩
  · rintro ⟨table, aliasNames, htypes, ⟨final, declarations⟩, hdeclarations, h⟩
    exact ⟨⟨final, declarations⟩, ⟨table, aliasNames, htypes, hdeclarations⟩, h⟩

namespace Respelling

/-- A respelling is one of the generics in the values of a package, and keeps what its types are
called and made of. -/
structure Suits (S : Respelling) (K : String → Prop) (files : List SourceFile) : Prop
    extends S.KeepsTypes where
  values : ∀ d ∈ files.flatMap valueDeclarations, d.2.Uses S.wording
  types : TypesUse ⟨S.Fixed, fun _ => True⟩ files
  records : ∀ site ∈ recordSites files, S.decl (site.nominal (packageName files))
  package : packageName files ≠ ""
  names : TypeNames K files
  builtin : ∀ t ∈ Library.defaultTypes, K t.1.ref.name
  apart : S.Apart K

/-- **Packages are accepted however their generics are spelled.** -/
theorem checkFiles_respell {S : Respelling} {K : String → Prop} {files : List SourceFile}
    (hS : S.Suits K files) (config : Config) :
    (∃ p, checkFiles config (files.map (·.respell S.spell)) = .ok p) ↔
      ∃ p, checkFiles config files = .ok p := by
  rw [checkFiles_ok_iff_bind, checkFiles_ok_iff_bind, bindTypes_respell]
  refine exists_congr fun table => exists_congr fun aliasNames => and_congr_right fun htypes => ?_
  have hsatisfies := bindTypes_satisfies (Ty.hereditary_over S.fixed)
    (predeclared_fixed hS.toKeepsTypes) hS.records hS.types htypes
  have htable : S.SpellsTable table table := spellsTable_self hS.toKeepsTypes hsatisfies
    (bindTypes_labelled hS.package hS.names htypes) hS.builtin hS.apart
  exact (bindDeclarations_spells htable aliasNames hS.values).exists_ok_iff fun _ _ h =>
    forall_mem_iff_of_forall₂ h.2 fun _ _ hb => hb.checked h.1

end Respelling

end UnionChecker
