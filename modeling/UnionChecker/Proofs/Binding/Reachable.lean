import UnionChecker.Proofs.Binding.Fields
import UnionChecker.Proofs.Binding.Reach
/-!
# Names of a package and names of imports

A file sees its own imports first and the package behind them. Structs, interfaces and type aliases
are declared before imports are looked at, and an import under one of their names is refused. So every
file can refer to them. Values are declared later, and are not compared with imports: an import takes
the place of a declaration of the same name in its file (`Bound.ofFiles_names_reachable`).
-/

namespace UnionChecker

open Syntax

namespace Binding

variable {files : List SourceFile} {table table' : Table} {aliasNames : List String}

/-! ## Imports -/

/-- A file imports an item of the standard library under a name. -/
def Imports (files : List SourceFile) (file name : String) (ref : Ref) : Prop :=
  ∃ i target, (file, i) ∈ importSites files ∧ ImportTarget.of? i = some target ∧
    target.localName.text = name ∧ target.ref = ref

/-- What a table says about imports is what the files import. -/
structure ListsImports (files : List SourceFile) (table : Table) : Prop where
  types : ∀ file name symbol, table.fileTypes.lookup (file, name) = some symbol →
    ∃ ref, Imports files file name ref
  values : ∀ file name value, table.fileValues.lookup (file, name) = some value →
    Imports files file name value.origin
  found : ∀ file name ref, Imports files file name ref →
    ∃ ty, table.fileValues.lookup (file, name) = some ⟨ref, ty⟩

theorem ListsImports.congr (h : ListsImports files table) (htypes : table'.fileTypes = table.fileTypes)
    (hvalues : table'.fileValues = table.fileValues) : ListsImports files table' := by
  constructor
  · rw [htypes]; exact h.types
  · rw [hvalues]; exact h.values
  · rw [hvalues]; exact h.found

/-- The only value that an import enters is its own. -/
theorem lookup_fileValues_importPatch {file : String} {target : ImportTarget} {item : LibraryItem}
    {key : String × String} {value : ImportedValue}
    (h : (table.patch (importPatch file target item)).fileValues.lookup key = some value) :
    (key = (file, target.localName.text) ∧ value.origin = target.ref) ∨
      table.fileValues.lookup key = some value := by
  by_cases hkey : key = (file, target.localName.text)
  · left
    subst hkey
    cases item <;>
    · simp only [importPatch, Table.patch, enter, lookup_put_self, Option.some.injEq] at h
      exact ⟨rfl, h ▸ rfl⟩
  · right
    cases item <;> exact (lookup_put_of_ne hkey _ _).symm.trans h

theorem lookup_fileTypes_importPatch {file : String} {target : ImportTarget} {item : LibraryItem}
    {key : String × String} {symbol : TypeSymbol}
    (h : (table.patch (importPatch file target item)).fileTypes.lookup key = some symbol) :
    key = (file, target.localName.text) ∨ table.fileTypes.lookup key = some symbol := by
  by_cases hkey : key = (file, target.localName.text)
  · exact .inl hkey
  · right
    cases item with
    | function signature => exact h
    | record record => exact (lookup_put_of_ne hkey _ _).symm.trans h

theorem listsImports_bindImports {declared : Table} (htypes : declared.fileTypes = [])
    (hvalues : declared.fileValues = [])
    (h : files.foldlM (bindFileImports aliasNames) declared = .ok table) :
    ListsImports files table := by
  rw [foldlM_bindFileImports] at h
  obtain ⟨hapart, himportable, rfl⟩ := bindImports_eq_ok_iff.1 h
  have hpatch : ∀ {file i}, (file, i) ∈ importSites files → ∃ target item,
      ImportTarget.of? i = some target ∧ importSitePatch (file, i) = importPatch file target item := by
    intro file i hi
    obtain ⟨target, item, htarget, hitem, -⟩ := himportable _ hi
    exact ⟨target, item, htarget, by simp only [importSitePatch, htarget, hitem]⟩
  constructor
  · rw [List.foldl_map]
    refine foldl_invariant (I := fun t : Table => ∀ file name symbol,
      t.fileTypes.lookup (file, name) = some symbol → ∃ ref, Imports files file name ref) ?_
      (by simp [htypes])
    rintro t ⟨file, i⟩ hi ht file' name symbol hlookup
    obtain ⟨target, item, htarget, hsite⟩ := hpatch hi
    rw [hsite] at hlookup
    rcases lookup_fileTypes_importPatch hlookup with hkey | hlookup
    · cases hkey
      exact ⟨target.ref, i, target, hi, htarget, rfl, rfl⟩
    · exact ht file' name symbol hlookup
  · rw [List.foldl_map]
    refine foldl_invariant (I := fun t : Table => ∀ file name value,
      t.fileValues.lookup (file, name) = some value → Imports files file name value.origin) ?_
      (by simp [hvalues])
    rintro t ⟨file, i⟩ hi ht file' name value hlookup
    obtain ⟨target, item, htarget, hsite⟩ := hpatch hi
    rw [hsite] at hlookup
    rcases lookup_fileValues_importPatch hlookup with ⟨hkey, horigin⟩ | hlookup
    · cases hkey
      exact ⟨i, target, hi, htarget, rfl, horigin.symm⟩
    · exact ht file' name value hlookup
  · rintro file _ _ ⟨i, target, hi, htarget, rfl, rfl⟩
    obtain ⟨target', item, htarget', hsite⟩ := hpatch hi
    cases htarget.symm.trans htarget'
    have hharmonious : ((importSites files).map importSitePatch).Pairwise Table.Patch.Harmonious :=
      List.pairwise_map.2 (hapart.imp harmonious_importSitePatch)
    have hmem := List.mem_map_of_mem (f := importSitePatch) hi
    rw [hsite] at hmem
    cases item with
    | function signature =>
      exact ⟨_, Table.lookup_foldl_patch (fun _ _ => rfl) (·.fileValues) hharmonious hmem rfl⟩
    | record record =>
      exact ⟨_, Table.lookup_foldl_patch (fun _ _ => rfl) (·.fileValues) hharmonious hmem rfl⟩

/-! ## Types -/

/-- Every struct and interface is declared under its name. -/
theorem lookup_declareRecords {declared : Table}
    (h : (recordSites files).foldlM declareRecord table = .ok declared) {site : RecordSite}
    (hsite : site ∈ recordSites files) :
    declared.types.lookup site.record.name.text =
      some (.named (site.nominal table.package) ((site.nominal table.package).formals.map .var)) := by
  obtain ⟨hapart, -, rfl⟩ := declareRecords_eq_ok_iff.1 h
  have hharmonious : ((recordSites files).map (RecordSite.patch table.package)).Pairwise
      Table.Patch.Harmonious :=
    List.pairwise_map.2 (hapart.imp fun hne => { types := harmonious_of_ne hne _ _ })
  exact Table.lookup_foldl_patch (fun _ _ => rfl) (·.types) hharmonious
    (List.mem_map_of_mem hsite) rfl

/-- No name of an import is that of a struct, an interface or a type alias. -/
theorem not_mem_of_imports {declared imported : Table}
    (hdeclared : (recordSites files).foldlM declareRecord table = .ok declared)
    (hnames : (aliasSites files).foldlM (declareAlias declared) [] = .ok aliasNames)
    (himported : files.foldlM (bindFileImports aliasNames) declared = .ok imported)
    {file name : String} {ref : Ref} (h : Imports files file name ref) :
    name ∉ (recordSites files).map (·.record.name.text) ∧
      name ∉ (aliasSites files).map (·.typeAlias.name.text) := by
  obtain ⟨i, target, hi, htarget, rfl, -⟩ := h
  rw [foldlM_bindFileImports] at himported
  obtain ⟨target', -, htarget', -, hnew, hname, -⟩ := (bindImports_eq_ok_iff.1 himported).2.1 _ hi
  cases htarget.symm.trans htarget'
  refine ⟨fun hmem => ?_, fun hmem => hname ?_⟩
  · obtain ⟨site, hsite, hsame⟩ := List.mem_map.1 hmem
    have hlookup := lookup_declareRecords hdeclared hsite
    simp only [Table.hasPackageName, hasKey, Bool.or_eq_false_iff, ← hsame, hlookup] at hnew
    cases hnew.1
  · rw [(declareAliases_eq_ok_iff.1 hnames).2.2]
    exact List.mem_reverse.2 hmem

/-- A table knows the imports of files and the names of their types, which are apart. -/
structure KnowsNames (files : List SourceFile) (table : Table) : Prop where
  imports : ListsImports files table
  apart : ∀ file name ref, Imports files file name ref →
    name ∉ (recordSites files).map (·.record.name.text) ∧
      name ∉ (aliasSites files).map (·.typeAlias.name.text)
  records : ∀ site ∈ recordSites files, table.types.lookup site.record.name.text =
    some (.named (site.nominal (packageName files))
      ((site.nominal (packageName files)).formals.map .var))
  aliases : ∀ site ∈ aliasSites files, ∃ ty, Stands table site.typeAlias ty

theorem KnowsNames.completes (h : KnowsNames files table) (hc : Completes [] table table')
    (hvalues : table'.fileValues = table.fileValues) : KnowsNames files table' where
  imports := h.imports.congr hc.fileTypes hvalues
  apart := h.apart
  records site hsite := hc.types _ _ (h.records site hsite)
  aliases site hsite := by
    obtain ⟨ty, hty⟩ := h.aliases site hsite
    exact ⟨ty, hty.completes hc⟩

theorem knowsNames_bindNames (h : bindNames files = .ok (table, aliasNames)) :
    KnowsNames files table := by
  simp only [bindNames, bind_eq_ok] at h
  obtain ⟨_, -, declared, hdeclared, names, hnames, imported, himported, aliased, haliased, h⟩ := h
  cases h
  have hunused : ∀ site ∈ aliasSites files,
      site.typeAlias.name.text ∈ (aliasSites files).map (·.typeAlias.name.text) ∧
        Unused imported site.typeAlias.name.text := fun site hsite =>
    ⟨List.mem_map.2 ⟨site, hsite, rfl⟩, unused_imported hdeclared hnames himported site hsite⟩
  obtain ⟨hcompletes, hstands⟩ := aliasRounds_stands _ (Nat.le_refl _)
    (declareAliases_eq_ok_iff.1 hnames).1 hunused haliased
  -- imports are listed when they are bound, and aliases come after that
  have hlisted : ListsImports files imported := by
    refine listsImports_bindImports ?_ ?_ himported
    · exact foldlM_invariant (I := fun t : Table => t.fileTypes = [])
        (fun _ _ _ _ ht hsite => (declareRecord_eq_ok_iff.1 hsite).2 ▸ ht) rfl hdeclared
    · exact foldlM_invariant (I := fun t : Table => t.fileValues = [])
        (fun _ _ _ _ ht hsite => (declareRecord_eq_ok_iff.1 hsite).2 ▸ ht) rfl hdeclared
  have hvalues : table.fileValues = imported.fileValues :=
    aliasRounds_invariant (I := fun t : Table => t.fileValues = imported.fileValues)
      (fun _ _ _ _ _ _ ht _ => ht) _ (List.Subset.refl _) rfl haliased
  have htypes : imported.types = declared.types := by
    rw [foldlM_bindFileImports] at himported
    refine foldlM_invariant (I := fun t : Table => t.types = declared.types)
      (fun t site _ t' ht hsite => ?_) rfl himported
    obtain ⟨⟨target, item, htarget, hitem, -⟩, rfl⟩ := bindImport_eq_ok_iff.1 hsite
    simp only [importSitePatch, htarget, hitem]
    cases item <;> exact ht
  refine ⟨hlisted.congr hcompletes.fileTypes hvalues, fun file name ref =>
    not_mem_of_imports hdeclared hnames himported, fun site hsite => ?_, fun site hsite => ?_⟩
  · refine hcompletes.types _ _ ?_
    rw [htypes]
    exact lookup_declareRecords hdeclared hsite
  · obtain ⟨known, ty, -, -, hstand⟩ := hstands site hsite
    exact ⟨ty, hstand⟩

/-! ## Values -/

theorem lookup_recordSlots {slots : List Slot} {name : String}
    (h : ∀ s ∈ slots, name ≠ s.name.text) :
    (recordSlots table slots).values.lookup name = table.values.lookup name := by
  refine foldl_invariant (I := fun t : Table => t.values.lookup name = table.values.lookup name)
    (fun t s hs ht => ?_) rfl
  split
  · exact (lookup_put_of_ne (h s hs) _ _).trans ht
  · exact ht

/-- Binding declarations keeps all values and adds the types of the declarations. -/
theorem values_bindDeclarations {declarations : List BoundDeclaration}
    (h : bindDeclarations table aliasNames files = .ok (table', declarations)) :
    declarations.map (·.name.text) = (files.flatMap valueDeclarations).map (·.2.name.text) ∧
      (∀ name ty, table.values.lookup name = some ty → table'.values.lookup name = some ty) ∧
      ∀ d ∈ declarations, ∀ value ty, d.result = .ok (value, ty) →
        table'.values.lookup d.name.text = some ty := by
  rw [bindDeclarations, bind_eq_ok] at h
  obtain ⟨slots, hslots, h⟩ := h
  obtain ⟨hnd, hall, hslots⟩ := collectSlots_eq_ok_iff.1 hslots
  obtain rfl : slots = declaredSlots files := hslots
  cases h
  let annotated := (declaredSlots files).map (Slot.annotate table)
  have hnames : annotated.map (·.name.text) =
      (files.flatMap valueDeclarations).map (·.2.name.text) := by
    simp [annotated, declaredSlots, name_annotate, Slot.ofDeclaration]
  rw [← hnames] at hnd
  have hrecorded : Recorded (recordSlots table annotated) annotated := recorded_recordSlots table hnd
  have hwaiting : annotated.countP Slot.isWaiting ≤ (declaredSlots files).length := by
    rw [← List.length_map (Slot.annotate table)]
    exact List.countP_le_length
  obtain ⟨n, -, hsettles⟩ := settles_inferenceRounds (declaredSlots files).length hwaiting
  refine ⟨?_, ?_, ?_⟩
  · rw [List.map_map]
    exact (hsettles.names hrecorded hnd).trans hnames
  · intro name ty hty
    -- a declared name is new, so none of the values known before has it
    have hother : ∀ s ∈ annotated, name ≠ s.name.text := by
      rintro s hs rfl
      have hs' : s.name.text ∈ annotated.map (·.name.text) := List.mem_map_of_mem hs
      rw [hnames] at hs'
      obtain ⟨d, hd, hsame⟩ := List.mem_map.1 hs'
      have hnew := (hall d hd).1.1
      simp only [Table.hasPackageName, hasKey, Bool.or_eq_false_iff, Option.isSome_eq_false_iff,
        Option.isNone_iff_eq_none, hsame, hty] at hnew
      cases hnew.2
    refine ((hsettles.later hrecorded hnd).values name fun hmem => ?_).trans
      ((lookup_recordSlots hother).trans hty)
    obtain ⟨s, hs, -, hsame⟩ := mem_untypedNames.1 hmem
    exact hother s hs hsame.symm
  · intro d hd value ty hresult
    obtain ⟨s, hs, rfl⟩ := List.mem_map.1 hd
    exact hsettles.recorded hrecorded hnd s hs value ty (s.bound_result_eq_ok.1 hresult)

/-! ## What a name refers to in a file -/

section

variable {file name : String} (h : ListsImports files table)
include h

theorem ListsImports.lookupType {symbol : TypeSymbol} (hname : ∀ ref, ¬ Imports files file name ref)
    (hsymbol : table.types.lookup name = some symbol) :
    (fileContext table file).lookupType .initial name = some symbol := by
  have hnone : table.fileTypes.lookup (file, name) = none := by
    by_contra hsome
    obtain ⟨imported, himported⟩ := Option.ne_none_iff_exists'.1 hsome
    obtain ⟨ref, href⟩ := h.types file name imported himported
    exact hname ref href
  simp [Context.lookupType, fileContext, Frames.hasGeneric, Frames.initial, hnone, hsymbol]

theorem ListsImports.resolveValue {ty : Ty} (hname : ∀ ref, ¬ Imports files file name ref)
    (hty : table.values.lookup name = some ty) :
    (fileContext table file).resolveValue .initial name = .ok ⟨ty, some table.package, name⟩ := by
  have hnone : table.fileValues.lookup (file, name) = none := by
    by_contra hsome
    obtain ⟨imported, himported⟩ := Option.ne_none_iff_exists'.1 hsome
    exact hname _ (h.values file name imported himported)
  simp [Context.resolveValue, fileContext, Frames.value?, Frames.initial, hnone, hty]

theorem ListsImports.resolveValue_imported {ref : Ref} (href : Imports files file name ref) :
    ∃ ty, (fileContext table file).resolveValue .initial name =
      .ok ⟨ty, some ref.package, ref.name⟩ := by
  obtain ⟨ty, hty⟩ := h.found file name ref href
  exact ⟨ty, by simp [Context.resolveValue, fileContext, Frames.value?, Frames.initial, hty]⟩

end

end Binding

open Binding

/-- **Imports collide with no type of the package, and only take the place of declarations.** In every
file of a bound package the names of imports are no names of structs, interfaces or type aliases, so
these are what their names refer to, as types and as constructors. The name of a declaration refers to
the declaration where nothing is imported under it, and otherwise to what is imported. -/
theorem Bound.ofFiles_names_reachable {files : List SourceFile} {bound : Bound}
    (h : Bound.ofFiles files = .ok bound) (file : String) :
    (∀ name ref, Imports files file name ref →
      name ∉ (recordSites files).map (·.record.name.text) ∧
        name ∉ (aliasSites files).map (·.typeAlias.name.text)) ∧
    (∀ site ∈ recordSites files, ∃ record : RecordType,
      record.decl = site.nominal (packageName files) ∧
      bound.table.fields.lookup record.decl.ref = some record.fields ∧
      (fileContext bound.table file).lookupType .initial site.record.name.text =
        some (.named record.decl (record.decl.formals.map .var)) ∧
      (fileContext bound.table file).resolveValue .initial site.record.name.text =
        .ok ⟨record.constructor.toTy, some (packageName files), site.record.name.text⟩) ∧
    (∀ site ∈ aliasSites files, ∃ ty, Stands bound.table site.typeAlias ty ∧
      (fileContext bound.table file).lookupType .initial site.typeAlias.name.text =
        some (.synonym (site.typeAlias.generics.map (·.text)) ty)) ∧
    bound.declarations.map (·.name.text) = (files.flatMap valueDeclarations).map (·.2.name.text) ∧
    ∀ d ∈ bound.declarations, ∀ value ty, d.result = .ok (value, ty) →
      ((∀ ref, ¬ Imports files file d.name.text ref) →
        (fileContext bound.table file).resolveValue .initial d.name.text =
          .ok ⟨ty, some (packageName files), d.name.text⟩) ∧
      ∀ ref, Imports files file d.name.text ref → ∃ imported,
        (fileContext bound.table file).resolveValue .initial d.name.text =
          .ok ⟨imported, some ref.package, ref.name⟩ := by
  obtain ⟨table, aliasNames, htypes, hdeclarations⟩ := Bound.ofFiles_eq_ok.1 h
  obtain ⟨aliased, hnamed, hrecorded⟩ := bindTypes_eq_ok.1 htypes
  obtain ⟨hpackage, hapart⟩ := bindNames_eq_ok hnamed
  have hrecords : table.fileValues = aliased.fileValues :=
    bindRecords_invariant (I := fun t : Table => t.fileValues = aliased.fileValues)
      (fun _ _ _ t record _ ht _ => by rw [recordType_eq_patch]; exact ht) rfl hrecorded
  obtain ⟨slots, hbacked, -⟩ := backed_bindDeclarations hdeclarations
  obtain ⟨values, hothers⟩ := hbacked.others
  obtain ⟨hdeclared, hkept, htyped⟩ := values_bindDeclarations hdeclarations
  have hcompletes : Completes [] aliased bound.table :=
    (completes_bindRecords hrecorded).trans (completes_bindDeclarations hdeclarations)
  have hknows : KnowsNames files bound.table :=
    (knowsNames_bindNames hnamed).completes hcompletes (by rw [hothers, hrecords])
  have hfinal : bound.table.package = packageName files := hcompletes.package.trans hpackage
  refine ⟨hknows.apart file, fun site hsite => ?_, fun site hsite => ?_, hdeclared,
    fun d hd value ty hty => ?_⟩
  · have hname : ∀ ref, ¬ Imports files file site.record.name.text ref := fun ref href =>
      (hknows.apart file _ ref href).1 (List.mem_map_of_mem hsite)
    obtain ⟨record, hrecord, hdescribes⟩ := describes_bindRecords hapart hrecorded hsite
    obtain ⟨-, fields, -, rfl⟩ := resolveRecord_eq_ok hrecord
    rw [hpackage] at hdescribes
    refine ⟨⟨site.nominal (packageName files), fields⟩, rfl, ?_,
      hknows.imports.lookupType hname (hknows.records site hsite), ?_⟩
    · rw [hothers]
      exact hdescribes.fields
    · have hvalue := hknows.imports.resolveValue hname (hkept _ _ hdescribes.value)
      rwa [hfinal] at hvalue
  · have hname : ∀ ref, ¬ Imports files file site.typeAlias.name.text ref := fun ref href =>
      (hknows.apart file _ ref href).2 (List.mem_map_of_mem hsite)
    obtain ⟨ty, hty⟩ := hknows.aliases site hsite
    exact ⟨ty, hty, hknows.imports.lookupType hname hty.1⟩
  · refine ⟨fun hname => ?_, fun ref href => hknows.imports.resolveValue_imported href⟩
    have hvalue := hknows.imports.resolveValue hname (htyped d hd value ty hty)
    rwa [hfinal] at hvalue

section

/-- `import tenecs.string.join as glue`, `alias Label = Int | String`, `struct Tag(label: Label)` and
`first := glue`. -/
def tagFile : SourceFile :=
  ⟨"tag", ⟨⟨[.plain "main"], .zero⟩,
    [⟨[.plain "tenecs", .plain "string", .plain "join"], some (.plain "glue"), .zero⟩],
    [.typeAlias (.plain "Label" [] (.oneOf [.named "Int" [], .named "String" []])),
      .struct (.plain "Tag" [] [("label", .named "Label" [])]),
      .declaration (.plain "first" none (.var "glue"))]⟩⟩

def joinSignature : Signature := ⟨[], [("left", .string), ("right", .string)], .string⟩

theorem tagFile_imports {name : String} {ref : Ref} (h : Imports [tagFile] "tag" name ref) :
    name = "glue" := by
  obtain ⟨i, target, hi, htarget, rfl, -⟩ := h
  obtain ⟨rfl⟩ : i = ⟨[.plain "tenecs", .plain "string", .plain "join"], some (.plain "glue"), .zero⟩ := by
    simpa [importSites, tagFile] using hi
  cases htarget
  rfl

theorem ofFiles_names_reachable_tag :
    ∃ bound, Bound.ofFiles [tagFile] = .ok bound ∧
      Imports [tagFile] "tag" "glue" ⟨"tenecs.string", "join"⟩ ∧
      "glue" ∉ (recordSites [tagFile]).map (·.record.name.text) ∧
      (∃ ty, (fileContext bound.table "tag").resolveValue .initial "Tag" =
        .ok ⟨ty, some "main", "Tag"⟩) ∧
      (∃ ty, (fileContext bound.table "tag").lookupType .initial "Label" = some (.synonym [] ty)) ∧
      (fileContext bound.table "tag").resolveValue .initial "first" =
        .ok ⟨joinSignature.toTy, some "main", "first"⟩ := by
  obtain ⟨bound, hbound, d, hd, hname, value, hvalue⟩ : ∃ bound, Bound.ofFiles [tagFile] = .ok bound ∧
      ∃ d ∈ bound.declarations, d.name.text = "first" ∧
        ∃ value, d.result = .ok (value, joinSignature.toTy) :=
    ⟨_, by with_unfolding_all rfl, _, List.mem_cons_self, rfl, _, by with_unfolding_all rfl⟩
  have himports : Imports [tagFile] "tag" "glue" ⟨"tenecs.string", "join"⟩ :=
    ⟨_, _, List.mem_cons_self, rfl, rfl, rfl⟩
  obtain ⟨hapart, hrecords, haliases, -, hdeclarations⟩ :=
    Bound.ofFiles_names_reachable hbound "tag"
  refine ⟨bound, hbound, himports, (hapart _ _ himports).1, ?_, ?_, ?_⟩
  · obtain ⟨record, -, -, -, hconstructor⟩ := hrecords _ List.mem_cons_self
    exact ⟨_, hconstructor⟩
  · obtain ⟨ty, -, hsynonym⟩ := haliases _ List.mem_cons_self
    exact ⟨ty, hsynonym⟩
  · rw [← hname]
    refine (hdeclarations d hd value _ hvalue).1 fun ref href => ?_
    have hglue := tagFile_imports href
    rw [hname] at hglue
    exact absurd hglue (by decide)

/-- `import tenecs.string.join`, `join := 1` and `x := join`. -/
def joinFile : SourceFile :=
  ⟨"join", ⟨⟨[.plain "main"], .zero⟩,
    [⟨[.plain "tenecs", .plain "string", .plain "join"], none, .zero⟩],
    [.declaration (.plain "join" none (.literal (.int 1))),
      .declaration (.plain "x" none (.var "join"))]⟩⟩

/-- A declaration is lost behind an import of the same name, though the package is accepted. -/
theorem ofFiles_import_hides_declaration :
    ∃ bound, Bound.ofFiles [joinFile] = .ok bound ∧
      Imports [joinFile] "join" "join" ⟨"tenecs.string", "join"⟩ ∧
      bound.table.values.lookup "join" = some .int ∧
      (fileContext bound.table "join").resolveValue .initial "join" =
        .ok ⟨joinSignature.toTy, some "tenecs.string", "join"⟩ ∧
      bound.table.values.lookup "x" = some joinSignature.toTy := by
  refine ⟨_, by with_unfolding_all rfl, ?_, ?_, ?_, ?_⟩
  · exact ⟨_, _, List.mem_cons_self, rfl, rfl, rfl⟩
  · with_unfolding_all rfl
  · with_unfolding_all rfl
  · with_unfolding_all rfl

end

end UnionChecker
