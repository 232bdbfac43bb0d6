import Mathlib.Data.List.Perm.Basic
import UnionChecker.Proofs.Binding.Patches
import UnionChecker.Proofs.Binding.Types
import UnionChecker.Proofs.PackageCheck
import UnionChecker.Syntax.Construct
/-!
# The order of declarations and files

The declarations and imports of a file, and the files of a package, may stand in any order. Binding
then succeeds or fails alike, the tables agree, and each declaration has the same result
(`Bound.ofFiles_reordered`).

Each phase of binding fails when two declarations clash, whatever their order, or looks at each of
them on its own, against a table that the phase does not change. What it enters into the table is
harmonious then. So the phases are followed one by one, with each round of the two retry loops as a
phase of its own.
-/

namespace UnionChecker

open Syntax

/-! ## Reordered files -/

/-- The same file with its imports and its declarations in another order. -/
structure Reorders (file file' : SourceFile) : Prop where
  name : file'.name = file.name
  package : file'.tree.package = file.tree.package
  imports : file.tree.imports.Perm file'.tree.imports
  declarations : file.tree.declarations.Perm file'.tree.declarations

/-- The same files in another order, each perhaps reordered itself. -/
def Reordered (files files' : List SourceFile) : Prop :=
  ∃ moved, files.Perm moved ∧ List.Forall₂ Reorders moved files'

theorem Reorders.symm {file file' : SourceFile} (h : Reorders file file') : Reorders file' file :=
  ⟨h.name.symm, h.package.symm, h.imports.symm, h.declarations.symm⟩

namespace Reordered

variable {files files' : List SourceFile}

theorem symm (h : Reordered files files') : Reordered files' files := by
  obtain ⟨moved, hperm, hfiles⟩ := h
  have hback : List.Forall₂ Reorders files' moved := hfiles.flip.imp fun _ _ hfile => hfile.symm
  obtain ⟨moved', hback', hperm'⟩ :
      Relation.Comp List.Perm (List.Forall₂ Reorders) files' files := by
    rw [← List.forall₂_comp_perm_eq_perm_comp_forall₂]
    exact ⟨moved, hback, hperm.symm⟩
  exact ⟨moved', hback', hperm'⟩

theorem exists_of_mem (h : Reordered files files') {file' : SourceFile} (hmem : file' ∈ files') :
    ∃ file ∈ files, Reorders file file' := by
  obtain ⟨moved, hperm, hfiles⟩ := h
  obtain ⟨file, hfile, hreorders⟩ := forall₂_mem_right hfiles hmem
  exact ⟨file, hperm.mem_iff.2 hfile, hreorders⟩

/-- What is collected from reordered files is the same in another order. -/
theorem flatMap {α : Type} {f : SourceFile → List α}
    (hf : ∀ file file', Reorders file file' → (f file).Perm (f file'))
    (h : Reordered files files') : (files.flatMap f).Perm (files'.flatMap f) := by
  obtain ⟨moved, hperm, hfiles⟩ := h
  refine (hperm.flatMap_right f).trans ?_
  clear hperm
  induction hfiles with
  | nil => exact .refl _
  | cons hfile _ ih =>
    rw [List.flatMap_cons, List.flatMap_cons]
    exact (hf _ _ hfile).append ih

end Reordered

namespace Binding

variable {files files' : List SourceFile} {table table' u : Table}

/-! ## The package -/

theorem requirePackage_reorders {package : String} {file file' : SourceFile}
    (h : Reorders file file') : requirePackage package file' = requirePackage package file := by
  simp only [requirePackage, h.package, h.name]

theorem dotted_of_requirePackage {package : String} {file : SourceFile}
    (h : requirePackage package file = .ok ()) : file.tree.package.dotted = package := by
  simp only [requirePackage] at h
  split at h
  · cases h
  · split at h
    · rename_i hdotted
      simpa using hdotted
    · cases h

theorem requirePackage_reordered (h : Reordered files files')
    (hpackage : files.forM (requirePackage (packageName files)) = .ok ()) :
    packageName files' = packageName files ∧
      files'.forM (requirePackage (packageName files')) = .ok () := by
  rw [forM_eq_ok_iff] at hpackage
  have hname : packageName files' = packageName files := by
    cases hfiles' : files' with
    | nil =>
      obtain ⟨moved, hperm, hfiles⟩ := h
      rw [hfiles', List.forall₂_nil_right_iff] at hfiles
      rw [hfiles] at hperm
      rw [hperm.eq_nil]
    | cons file' _ =>
      -- every file names the package of the first one, so any of them may come first
      have hmem : file' ∈ files' := by simp [hfiles']
      obtain ⟨file, hfile, hreorders⟩ := h.exists_of_mem hmem
      rw [← dotted_of_requirePackage (hpackage file hfile), ← hreorders.package]
      rfl
  refine ⟨hname, forM_eq_ok_iff.2 fun file' hfile' => ?_⟩
  obtain ⟨file, hfile, hreorders⟩ := h.exists_of_mem hfile'
  rw [hname, requirePackage_reorders hreorders]
  exact hpackage file hfile

/-! ## Names of types -/

theorem recordSites_reordered (h : Reordered files files') :
    (recordSites files).Perm (recordSites files') :=
  h.flatMap fun file file' hfile => by
    rw [hfile.name]
    exact hfile.declarations.filterMap _

theorem aliasSites_reordered (h : Reordered files files') :
    (aliasSites files).Perm (aliasSites files') :=
  h.flatMap fun file file' hfile => by
    rw [hfile.name]
    exact hfile.declarations.filterMap _

/-- Structs and interfaces with different names. -/
def RecordSite.Apart (site site' : RecordSite) : Prop :=
  site.record.name.text ≠ site'.record.name.text

/-- All structs and interfaces are declared iff their names are new and different. -/
theorem declareRecords_eq_ok_iff {sites : List RecordSite} :
    sites.foldlM declareRecord table = .ok u ↔
      sites.Pairwise RecordSite.Apart ∧
      (∀ site ∈ sites, hasKey site.record.name.text table.types = false) ∧
      u = (sites.map (RecordSite.patch table.package)).foldl Table.patch table := by
  have hfree : ∀ (t : Table) (site site' : RecordSite),
      hasKey site.record.name.text t.types = false →
      (hasKey site'.record.name.text (t.patch (site.patch t.package)).types = false ↔
        hasKey site'.record.name.text t.types = false ∧ site.Apart site') :=
    fun _ _ _ _ => hasKey_put_eq_false
  rw [foldlM_eq_ok_iff (fun _ _ _ => declareRecord_eq_ok_iff) hfree,
    Table.foldl_eq_foldl_patch fun _ _ => rfl]

theorem declareRecords_perm {sites sites' : List RecordSite} (hperm : sites.Perm sites')
    (h : sites.foldlM declareRecord table = .ok u) :
    ∃ u', sites'.foldlM declareRecord table = .ok u' ∧ u.Agrees u' := by
  obtain ⟨hapart, hnew, rfl⟩ := declareRecords_eq_ok_iff.1 h
  refine ⟨_, declareRecords_eq_ok_iff.2 ⟨(hperm.pairwise_iff Ne.symm).1 hapart,
    fun site hsite => hnew site (hperm.mem_iff.2 hsite), rfl⟩, ?_⟩
  refine Table.agrees_foldl_patch (hperm.map _) (List.pairwise_map.2 ?_) (.refl table)
  exact hapart.imp fun hne => { types := harmonious_of_ne hne _ _ }

/-- Type aliases with different names. -/
def AliasSite.Apart (site site' : AliasSite) : Prop :=
  site.typeAlias.name.text ≠ site'.typeAlias.name.text

theorem declareAlias_eq_ok_iff {names names' : List String} {site : AliasSite} :
    declareAlias table names site = .ok names' ↔
      (table.hasPackageName site.typeAlias.name.text = false ∧
        site.typeAlias.name.text ∉ names) ∧ names' = site.typeAlias.name.text :: names := by
  simp [declareAlias, ite_error_eq_ok]

/-- All type aliases are declared iff their names are new and different. -/
theorem declareAliases_eq_ok_iff {sites : List AliasSite} {names : List String} :
    sites.foldlM (declareAlias table) [] = .ok names ↔
      sites.Pairwise AliasSite.Apart ∧
      (∀ site ∈ sites, table.hasPackageName site.typeAlias.name.text = false) ∧
      names = (sites.map (·.typeAlias.name.text)).reverse := by
  have hfree : ∀ (names : List String) (site site' : AliasSite),
      (table.hasPackageName site.typeAlias.name.text = false ∧ site.typeAlias.name.text ∉ names) →
      ((table.hasPackageName site'.typeAlias.name.text = false ∧
          site'.typeAlias.name.text ∉ site.typeAlias.name.text :: names) ↔
        (table.hasPackageName site'.typeAlias.name.text = false ∧
          site'.typeAlias.name.text ∉ names) ∧ site.Apart site') := by
    intro names site site' _
    rw [List.mem_cons, not_or, AliasSite.Apart, ne_comm (a := site.typeAlias.name.text)]
    tauto
  rw [foldlM_eq_ok_iff (fun _ _ _ => declareAlias_eq_ok_iff) hfree, List.foldl_flip_cons_eq_append]
  simp

theorem declareAliases_perm {sites sites' : List AliasSite} {names : List String}
    (hperm : sites.Perm sites') (htable : table.Agrees table')
    (h : sites.foldlM (declareAlias table) [] = .ok names) :
    ∃ names', sites'.foldlM (declareAlias table') [] = .ok names' ∧ names.Perm names' := by
  obtain ⟨hapart, hnew, rfl⟩ := declareAliases_eq_ok_iff.1 h
  refine ⟨_, declareAliases_eq_ok_iff.2 ⟨(hperm.pairwise_iff Ne.symm).1 hapart,
    fun site hsite => ?_, rfl⟩, ?_⟩
  · rw [htable.hasPackageName]
    exact hnew site (hperm.mem_iff.2 hsite)
  · exact ((List.reverse_perm _).trans (hperm.map _)).trans (List.reverse_perm _).symm

/-! ## Imports -/

/-- The imports of a package, each with its file. -/
def importSites (files : List SourceFile) : List (String × Import) :=
  files.flatMap fun file => file.tree.imports.map (file.name, ·)

theorem importSites_reordered (h : Reordered files files') :
    (importSites files).Perm (importSites files') :=
  h.flatMap fun file file' hfile => by
    rw [hfile.name]
    exact hfile.imports.map _

theorem foldlM_bindFileImports (aliasNames : List String) :
    ∀ (files : List SourceFile) (table : Table),
    files.foldlM (bindFileImports aliasNames) table =
      (importSites files).foldlM (fun t site => bindImport aliasNames site.1 t site.2) table
  | [], _ => rfl
  | file :: files, table => by
    rw [List.foldlM_cons, importSites, List.flatMap_cons, List.foldlM_append, List.foldlM_map]
    exact bind_congr fun t => foldlM_bindFileImports aliasNames files t

/-- What an import enters into the table. -/
def importSitePatch (site : String × Import) : Table.Patch :=
  match ImportTarget.of? site.2 with
  | none => {}
  | some target =>
    match Library.lookup target.ref with
    | none => {}
    | some item => importPatch site.1 target item

/-- An import that can be resolved: its target exists, and its name is new. -/
def Importable (aliasNames : List String) (table : Table) (site : String × Import) : Prop :=
  ∃ target item, ImportTarget.of? site.2 = some target ∧ Library.lookup target.ref = some item ∧
    table.hasPackageName target.localName.text = false ∧ target.localName.text ∉ aliasNames ∧
    Fresh table site.1 target item

/-- Imports into different files or under different names. -/
def ImportsApart (site site' : String × Import) : Prop :=
  ∀ target target', ImportTarget.of? site.2 = some target →
    ImportTarget.of? site'.2 = some target' →
    (site.1, target.localName.text) ≠ (site'.1, target'.localName.text)

theorem bindImport_eq_ok_iff {aliasNames : List String} {site : String × Import} :
    bindImport aliasNames site.1 table site.2 = .ok u ↔
      Importable aliasNames table site ∧ u = table.patch (importSitePatch site) := by
  constructor
  · intro h
    simp only [bindImport] at h
    split at h
    · cases h
    rename_i target htarget
    split at h
    · cases h
    rename_i hfree
    split at h
    · cases h
    rename_i item hitem
    split at h
    · rename_i himport
      cases h
      obtain ⟨hfresh, rfl⟩ := importItem_eq_some_iff.1 himport
      simp only [Bool.or_eq_true, List.contains_iff_mem, not_or, Bool.not_eq_true] at hfree
      refine ⟨⟨target, item, htarget, hitem, hfree.1, hfree.2, hfresh⟩, ?_⟩
      simp only [importSitePatch, htarget, hitem]
    · cases h
  · rintro ⟨⟨target, item, htarget, hitem, hnew, hnames, hfresh⟩, rfl⟩
    have himport := importItem_eq_some_iff.2 ⟨hfresh, rfl⟩
    simp [bindImport, importSitePatch, htarget, hitem, hnew, hnames, himport]

theorem fresh_patch_importPatch {file file' : String} {target target' : ImportTarget}
    {item item' : LibraryItem} :
    Fresh (table.patch (importPatch file target item)) file' target' item' ↔
      Fresh table file' target' item' ∧
        (file, target.localName.text) ≠ (file', target'.localName.text) := by
  cases item <;> cases item' <;>
    simp only [Fresh, importPatch, fieldsPatch, Table.patch, enter, hasKey_put_eq_false] <;> tauto

theorem hasPackageName_patch_importPatch {file name : String} {target : ImportTarget}
    {item : LibraryItem} : (table.patch (importPatch file target item)).hasPackageName name =
      table.hasPackageName name := by
  cases item <;> rfl

/-- Imports into one file under one name take the freedom from each other, others do not. -/
theorem importable_patch {aliasNames : List String} {site site' : String × Import}
    (h : Importable aliasNames table site) :
    Importable aliasNames (table.patch (importSitePatch site)) site' ↔
      Importable aliasNames table site' ∧ ImportsApart site site' := by
  obtain ⟨target, item, htarget, hitem, -⟩ := h
  have hpatch : importSitePatch site = importPatch site.1 target item := by
    simp only [importSitePatch, htarget, hitem]
  rw [hpatch]
  constructor
  · rintro ⟨target', item', htarget', hitem', hnew, hnames, hfresh⟩
    rw [hasPackageName_patch_importPatch] at hnew
    rw [fresh_patch_importPatch] at hfresh
    refine ⟨⟨target', item', htarget', hitem', hnew, hnames, hfresh.1⟩, fun t t' ht ht' => ?_⟩
    cases htarget.symm.trans ht
    cases htarget'.symm.trans ht'
    exact hfresh.2
  · rintro ⟨⟨target', item', htarget', hitem', hnew, hnames, hfresh⟩, hapart⟩
    refine ⟨target', item', htarget', hitem', ?_, hnames, ?_⟩
    · rw [hasPackageName_patch_importPatch]
      exact hnew
    · exact fresh_patch_importPatch.2 ⟨hfresh, hapart target target' htarget htarget'⟩

theorem harmonious_importSitePatch {site site' : String × Import} (h : ImportsApart site site') :
    (importSitePatch site).Harmonious (importSitePatch site') := by
  unfold importSitePatch
  split
  · exact {}
  rename_i target htarget
  split
  · exact {}
  rename_i item hitem
  split
  · exact {}
  rename_i target' htarget'
  split
  · exact {}
  rename_i item' hitem'
  exact harmonious_importPatch hitem hitem' (h target target' htarget htarget')

/-- All imports are resolved iff each of them can be, and no two of them clash. -/
theorem bindImports_eq_ok_iff {aliasNames : List String} {sites : List (String × Import)} :
    sites.foldlM (fun t site => bindImport aliasNames site.1 t site.2) table = .ok u ↔
      sites.Pairwise ImportsApart ∧ (∀ site ∈ sites, Importable aliasNames table site) ∧
      u = (sites.map importSitePatch).foldl Table.patch table := by
  rw [foldlM_eq_ok_iff (fun _ _ _ => bindImport_eq_ok_iff) (fun _ _ _ => importable_patch),
    List.foldl_map]

theorem importable_congr {aliasNames aliasNames' : List String} {site : String × Import}
    (htable : table.Agrees table') (hnames : aliasNames.Perm aliasNames')
    (h : Importable aliasNames table site) : Importable aliasNames' table' site := by
  obtain ⟨target, item, htarget, hitem, hnew, hname, hfresh⟩ := h
  refine ⟨target, item, htarget, hitem, ?_, fun hmem => hname (hnames.mem_iff.2 hmem), ?_⟩
  · rw [htable.hasPackageName]
    exact hnew
  · cases item <;>
      simpa only [Fresh, htable.fileValues.hasKey, htable.fileTypes.hasKey] using hfresh

theorem bindImports_reordered {aliasNames aliasNames' : List String} (h : Reordered files files')
    (htable : table.Agrees table') (hnames : aliasNames.Perm aliasNames')
    (hbind : files.foldlM (bindFileImports aliasNames) table = .ok u) :
    ∃ u', files'.foldlM (bindFileImports aliasNames') table' = .ok u' ∧ u.Agrees u' := by
  have hperm := importSites_reordered h
  rw [foldlM_bindFileImports] at hbind ⊢
  obtain ⟨hapart, himportable, rfl⟩ := bindImports_eq_ok_iff.1 hbind
  have hsymm : ∀ {site site'}, ImportsApart site site' → ImportsApart site' site :=
    fun hapart target target' htarget htarget' => (hapart target' target htarget' htarget).symm
  refine ⟨_, bindImports_eq_ok_iff.2 ⟨(hperm.pairwise_iff hsymm).1 hapart, fun site hsite =>
    importable_congr htable hnames (himportable site (hperm.mem_iff.2 hsite)), rfl⟩, ?_⟩
  refine Table.agrees_foldl_patch (hperm.map _) (List.pairwise_map.2 ?_) htable
  exact hapart.imp harmonious_importSitePatch

/-! ## Type aliases -/

theorem resolveAlias_congr (h : table.Agrees table') (site : AliasSite) :
    resolveAlias table' site = resolveAlias table site :=
  (h.same site.file fun _ => Iff.rfl).resolveType _ _ _

theorem aliasRounds_succ_eq_ok_iff {rounds : Nat} {pending : List AliasSite} :
    aliasRounds (rounds + 1) table pending = .ok u ↔
      (resolvedAliases table pending = [] → unresolvedAliases table pending = []) ∧
      aliasRounds rounds ((resolvedAliases table pending).foldl recordAlias table)
        ((unresolvedAliases table pending).map (·.1)) = .ok u := by
  rw [aliasRounds]
  cases hresolved : resolvedAliases table pending with
  | cons _ _ => simp
  | nil =>
    cases hlast : (unresolvedAliases table pending).getLast? with
    | none => simp [List.getLast?_eq_none_iff.1 hlast]
    | some last =>
      have hne : unresolvedAliases table pending ≠ [] := by
        intro hnil
        rw [hnil] at hlast
        cases hlast
      simp [hne]

theorem apart_resolvedAliases {pending : List AliasSite} (h : pending.Pairwise AliasSite.Apart) :
    (resolvedAliases table pending).Pairwise fun r r' => r.1.name.text ≠ r'.1.name.text := by
  refine h.filterMap _ fun site site' hapart resolved hresolved resolved' hresolved' => ?_
  split at hresolved <;> cases hresolved
  split at hresolved' <;> cases hresolved'
  exact hapart

theorem apart_unresolvedAliases {pending : List AliasSite} (h : pending.Pairwise AliasSite.Apart) :
    ((unresolvedAliases table pending).map (·.1)).Pairwise AliasSite.Apart := by
  refine List.pairwise_map.2 (h.filterMap _ fun site site' hapart left hleft left' hleft' => ?_)
  split at hleft <;> cases hleft
  split at hleft' <;> cases hleft'
  exact hapart

/-- Every round resolves the same aliases. -/
theorem aliasRounds_perm : ∀ (rounds : Nat) {table table' u : Table}
    {pending pending' : List AliasSite},
    table.Agrees table' → pending.Perm pending' → pending.Pairwise AliasSite.Apart →
    aliasRounds rounds table pending = .ok u →
    ∃ u', aliasRounds rounds table' pending' = .ok u' ∧ u.Agrees u'
  | 0, _, table', _, _, _, htable, _, _, h => by
    cases h
    exact ⟨table', rfl, htable⟩
  | rounds + 1, table, table', u, pending, pending', htable, hperm, hapart, h => by
    have hresolved : (resolvedAliases table pending).Perm (resolvedAliases table' pending') := by
      simp only [resolvedAliases, resolveAlias_congr htable]
      exact hperm.filterMap _
    have hunresolved :
        (unresolvedAliases table pending).Perm (unresolvedAliases table' pending') := by
      simp only [unresolvedAliases, resolveAlias_congr htable]
      exact hperm.filterMap _
    have hround : ((resolvedAliases table pending).foldl recordAlias table).Agrees
        ((resolvedAliases table' pending').foldl recordAlias table') := by
      rw [Table.foldl_eq_foldl_patch recordAlias_eq_patch,
        Table.foldl_eq_foldl_patch recordAlias_eq_patch, htable.package]
      refine Table.agrees_foldl_patch (hresolved.map _) (List.pairwise_map.2 ?_) htable
      exact (apart_resolvedAliases hapart).imp harmonious_aliasPatch
    obtain ⟨hprogress, h⟩ := aliasRounds_succ_eq_ok_iff.1 h
    obtain ⟨u', hu', hagrees⟩ := aliasRounds_perm rounds hround (hunresolved.map _)
      (apart_unresolvedAliases hapart) h
    refine ⟨u', aliasRounds_succ_eq_ok_iff.2 ⟨fun hnone => ?_, hu'⟩, hagrees⟩
    -- a round without progress has nothing left to resolve, in either order
    rw [hnone] at hresolved
    rw [hprogress hresolved.eq_nil] at hunresolved
    exact hunresolved.nil_eq.symm

/-! ## Fields -/

theorem resolveFields_congr {Γ Γ' : Context} (h : Γ.Same Γ') (site : RecordSite) :
    ∀ (fields : List (Name × TypeExpr)) (seen : List String),
    resolveFields Γ' site fields seen = resolveFields Γ site fields seen
  | [], _ => rfl
  | (name, type) :: fields, seen => by
    simp only [resolveFields, h.failure, h.resolveType, resolveFields_congr h site fields]

theorem resolveRecord_congr (h : table.Agrees table') (site : RecordSite) :
    resolveRecord table' site = resolveRecord table site := by
  have hsame : (fileContext table site.file).Same (fileContext table' site.file) :=
    h.same site.file fun _ => Iff.rfl
  simp only [resolveRecord, hsame.failure, resolveFields_congr hsame, h.package]

theorem apart_records {sites : List RecordSite} {records : List RecordType}
    (hapart : sites.Pairwise RecordSite.Apart)
    (h : sites.mapM (resolveRecord table) = .ok records) :
    records.Pairwise fun r r' => r.decl.ref.name ≠ r'.decl.ref.name := by
  have hnames : records.map (·.decl.ref.name) = sites.map (·.record.name.text) := by
    refine map_eq_map_of_mapM (fun site record hrecord => ?_) h
    obtain ⟨-, fields, -, rfl⟩ := resolveRecord_eq_ok hrecord
    rfl
  rw [← List.pairwise_map (f := fun r : RecordType => r.decl.ref.name) (R := (· ≠ ·)), hnames]
  exact List.pairwise_map.2 hapart

theorem bindRecords_perm {sites sites' : List RecordSite} (htable : table.Agrees table')
    (hperm : sites.Perm sites') (hapart : sites.Pairwise RecordSite.Apart)
    (h : bindRecords table sites = .ok u) :
    ∃ u', bindRecords table' sites' = .ok u' ∧ u.Agrees u' := by
  have hsame : resolveRecord table' = resolveRecord table := funext (resolveRecord_congr htable)
  rw [bindRecords, bind_eq_ok] at h
  obtain ⟨records, hrecords, h⟩ := h
  cases h
  obtain ⟨records', hrecords', hperm'⟩ := mapM_perm hperm hrecords
  refine ⟨records'.foldl recordType table', ?_, ?_⟩
  · rw [bindRecords, hsame, hrecords']
    rfl
  · rw [Table.foldl_eq_foldl_patch (g := fun _ => recordPatch) recordType_eq_patch,
      Table.foldl_eq_foldl_patch (g := fun _ => recordPatch) recordType_eq_patch]
    refine Table.agrees_foldl_patch (hperm'.map _) (List.pairwise_map.2 ?_) htable
    exact (apart_records hapart hrecords).imp harmonious_recordPatch

/-- Declaring the types of reordered files comes to the same. -/
theorem bindTypes_reordered {aliasNames : List String} (h : Reordered files files')
    (hbind : bindTypes files = .ok (u, aliasNames)) :
    ∃ u' aliasNames', bindTypes files' = .ok (u', aliasNames') ∧ u.Agrees u' ∧
      aliasNames.Perm aliasNames' := by
  simp only [bindTypes, bind_eq_ok] at hbind
  obtain ⟨_, hpackage, declared, hdeclared, names, hnames, imported, himported, aliased, haliased,
    recorded, hrecorded, hbind⟩ := hbind
  cases hbind
  obtain ⟨hname, hpackage'⟩ := requirePackage_reordered h hpackage
  have hrecords := recordSites_reordered h
  have haliases := aliasSites_reordered h
  obtain ⟨declared', hdeclared', hagrees⟩ := declareRecords_perm hrecords hdeclared
  obtain ⟨names', hnames', hperm⟩ := declareAliases_perm haliases hagrees hnames
  obtain ⟨imported', himported', hagrees⟩ := bindImports_reordered h hagrees hperm himported
  obtain ⟨aliased', haliased', hagrees⟩ := aliasRounds_perm _ hagrees haliases
    (declareAliases_eq_ok_iff.1 hnames).1 haliased
  obtain ⟨recorded', hrecorded', hagrees⟩ := bindRecords_perm hagrees hrecords
    (declareRecords_eq_ok_iff.1 hdeclared).1 hrecorded
  refine ⟨recorded', names', ?_, hagrees, hperm⟩
  rw [haliases.length_eq] at haliased'
  rw [← hname] at hdeclared'
  simp only [bindTypes, bind_eq_ok]
  exact ⟨(), hpackage', _, hdeclared', _, hnames', _, himported', _, haliased', _, hrecorded', rfl⟩

/-! ## Declarations -/

theorem valueDeclarations_reordered (h : Reordered files files') :
    (files.flatMap valueDeclarations).Perm (files'.flatMap valueDeclarations) :=
  h.flatMap fun file file' hfile => by
    rw [valueDeclarations, valueDeclarations, hfile.name]
    exact hfile.declarations.filterMap _

/-- Slots of declarations with different names. -/
def Slot.Apart (slot slot' : Slot) : Prop := slot.name.text ≠ slot'.name.text

variable {slots slots' : List Slot}

theorem collectSlots_perm {aliasNames aliasNames' : List String}
    {ds ds' : List (String × Declaration)} (htable : table.Agrees table')
    (hnames : aliasNames.Perm aliasNames') (hperm : ds.Perm ds')
    (h : collectSlots table aliasNames ds [] = .ok slots) :
    ∃ slots', collectSlots table' aliasNames' ds' [] = .ok slots' ∧ slots.Perm slots' ∧
      slots.Pairwise Slot.Apart := by
  obtain ⟨hnodup, hall, rfl⟩ := collectSlots_eq_ok_iff.1 h
  have hapart : ds.Pairwise fun d d' => d.2.name.text ≠ d'.2.name.text :=
    List.pairwise_map.1 hnodup
  refine ⟨_, collectSlots_eq_ok_iff.2 ⟨(hperm.map _).nodup_iff.1 hnodup, fun d hd => ?_, rfl⟩,
    hperm.map _, List.pairwise_map.2 hapart⟩
  obtain ⟨⟨hnew, hname⟩, -⟩ := hall d (hperm.mem_iff.2 hd)
  refine ⟨⟨?_, fun hmem => hname (hnames.mem_iff.2 hmem)⟩, List.not_mem_nil⟩
  rw [htable.hasPackageName]
  exact hnew

/-! ## Rounds of inference -/

theorem annotate_congr (h : table.Agrees table') : Slot.annotate table' = Slot.annotate table := by
  funext slot
  have hsame : (fileContext table slot.file).Same (fileContext table' slot.file) :=
    h.same slot.file fun _ => Iff.rfl
  simp only [Slot.annotate, hsame.resolveType]

theorem recordSlots_perm (htable : table.Agrees table') (hperm : slots.Perm slots')
    (hapart : slots.Pairwise Slot.Apart) :
    (recordSlots table slots).Agrees (recordSlots table' slots') := by
  rw [recordSlots_eq_foldl, recordSlots_eq_foldl]
  refine Table.agrees_foldl_patch (hperm.map _) (List.pairwise_map.2 ?_) htable
  exact hapart.imp Slot.harmonious_patch

theorem untypedNames_perm (hperm : slots.Perm slots') :
    (untypedNames slots).Perm (untypedNames slots') :=
  (hperm.filter _).map _

theorem attempt_congr (htable : table.Agrees table') {pending pending' : List String}
    (hpending : pending.Perm pending') (final : Bool) :
    Slot.attempt table' pending' final = Slot.attempt table pending final := by
  funext slot
  have hsame : Context.Same ⟨table, slot.file, pending⟩ ⟨table', slot.file, pending'⟩ :=
    htable.same slot.file fun _ => hpending.symm.mem_iff
  simp only [Slot.attempt, Check.inferDeclaration_congr hsame]

/-- Every round types the same declarations. -/
theorem inferenceRounds_perm : ∀ (rounds : Nat) {table table' : Table} {slots slots' : List Slot},
    table.Agrees table' → slots.Perm slots' → slots.Pairwise Slot.Apart →
    (inferenceRounds rounds table slots).1.Agrees (inferenceRounds rounds table' slots').1 ∧
      (inferenceRounds rounds table slots).2.Perm (inferenceRounds rounds table' slots').2
  | 0, table, table', slots, slots', htable, hperm, _ => by
    refine ⟨htable, ?_⟩
    simp only [inferenceRounds, attempt_congr htable (untypedNames_perm hperm)]
    exact hperm.map _
  | rounds + 1, table, table', slots, slots', htable, hperm, hapart => by
    have hattempts (final : Bool) :
        (slots.map (Slot.attempt table (untypedNames slots) final)).Perm
          (slots'.map (Slot.attempt table' (untypedNames slots') final)) := by
      rw [attempt_congr htable (untypedNames_perm hperm)]
      exact hperm.map _
    have hapart' : (slots.map (Slot.attempt table (untypedNames slots) false)).Pairwise
        Slot.Apart := by
      refine List.pairwise_map.2 (hapart.imp fun {s s'} hne => ?_)
      rw [Slot.Apart, (s.later_attempt _ _).name, (s'.later_attempt _ _).name]
      exact hne
    simp only [inferenceRounds, (untypedNames_perm hperm).length_eq,
      (untypedNames_perm (hattempts false)).length_eq]
    split
    · exact inferenceRounds_perm rounds (recordSlots_perm htable (hattempts false) hapart')
        (hattempts false) hapart'
    · exact ⟨htable, hattempts true⟩

theorem bindDeclarations_reordered {aliasNames aliasNames' : List String}
    {declarations : List BoundDeclaration} (h : Reordered files files')
    (htable : table.Agrees table') (hnames : aliasNames.Perm aliasNames')
    (hbind : bindDeclarations table aliasNames files = .ok (u, declarations)) :
    ∃ u' declarations', bindDeclarations table' aliasNames' files' = .ok (u', declarations') ∧
      u.Agrees u' ∧ declarations.Perm declarations' := by
  rw [bindDeclarations, bind_eq_ok] at hbind
  obtain ⟨slots, hslots, hbind⟩ := hbind
  cases hbind
  obtain ⟨slots', hslots', hperm, hapart⟩ :=
    collectSlots_perm htable hnames (valueDeclarations_reordered h) hslots
  have hannotated : (slots.map (Slot.annotate table)).Perm (slots'.map (Slot.annotate table')) := by
    rw [annotate_congr htable]
    exact hperm.map _
  have hapart' : (slots.map (Slot.annotate table)).Pairwise Slot.Apart := by
    refine List.pairwise_map.2 (hapart.imp fun {s s'} hne => ?_)
    rw [Slot.Apart, name_annotate, name_annotate]
    exact hne
  obtain ⟨hagrees, hrounds⟩ := inferenceRounds_perm slots.length
    (recordSlots_perm htable hannotated hapart') hannotated hapart'
  refine ⟨_, _, ?_, hagrees, hrounds.map Slot.bound⟩
  rw [bindDeclarations, hslots', hperm.length_eq]
  rfl

end Binding

theorem Bound.exists_reordered {files files' : List SourceFile} {bound : Bound}
    (h : Reordered files files') (hbound : Bound.ofFiles files = .ok bound) :
    ∃ bound', Bound.ofFiles files' = .ok bound' ∧ bound.table.Agrees bound'.table ∧
      bound.declarations.Perm bound'.declarations := by
  obtain ⟨table, aliasNames, htypes, hdeclarations⟩ := Bound.ofFiles_eq_ok.1 hbound
  obtain ⟨table', aliasNames', htypes', hagrees, hnames⟩ := Binding.bindTypes_reordered h htypes
  obtain ⟨u', declarations', hdeclarations', hagrees', hperm⟩ :=
    Binding.bindDeclarations_reordered h hagrees hnames hdeclarations
  exact ⟨⟨u', declarations'⟩, Bound.ofFiles_eq_ok.2 ⟨_, _, htypes', hdeclarations'⟩, hagrees',
    hperm⟩

/-- Under tables that agree, with the same names unbound, each declaration is checked alike. -/
theorem PackageCheck.checked_congr {bound bound' : Bound} (htable : bound.table.Agrees bound'.table)
    (hperm : bound.declarations.Perm bound'.declarations) (d : Binding.BoundDeclaration) :
    checked bound'.table (unboundNames bound') d = checked bound.table (unboundNames bound) d := by
  have hunbound : (unboundNames bound).Perm (unboundNames bound') := hperm.filterMap _
  have hsame := htable.same d.file (fun _ => hunbound.symm.mem_iff)
  unfold checked
  split
  · rfl
  · rw [Check.checkDeclaration_congr hsame]

/-- **Binding does not depend on source order.** Reordered files are bound or not bound alike. When
they are, the tables agree, the declarations have the same types or failures, and checking gives the
same for each of them. -/
theorem Bound.ofFiles_reordered {files files' : List SourceFile} (h : Reordered files files') :
    ((∃ bound, Bound.ofFiles files = .ok bound) ↔ ∃ bound', Bound.ofFiles files' = .ok bound') ∧
    ∀ bound bound', Bound.ofFiles files = .ok bound → Bound.ofFiles files' = .ok bound' →
      bound.table.Agrees bound'.table ∧ bound.declarations.Perm bound'.declarations ∧
      ∀ d, PackageCheck.checked bound'.table (PackageCheck.unboundNames bound') d =
        PackageCheck.checked bound.table (PackageCheck.unboundNames bound) d := by
  refine ⟨⟨?_, ?_⟩, fun bound bound' hbound hbound' => ?_⟩
  · rintro ⟨bound, hbound⟩
    obtain ⟨bound', hbound', -⟩ := Bound.exists_reordered h hbound
    exact ⟨bound', hbound'⟩
  · rintro ⟨bound', hbound'⟩
    obtain ⟨bound, hbound, -⟩ := Bound.exists_reordered h.symm hbound'
    exact ⟨bound, hbound⟩
  · obtain ⟨found, hfound, htable, hperm⟩ := Bound.exists_reordered h hbound
    cases hfound.symm.trans hbound'
    exact ⟨htable, hperm, PackageCheck.checked_congr htable hperm⟩

/-! ## A package in two orders -/

/-- A struct, and a type alias that is declared before the one it refers to. -/
def shapesFile : SourceFile :=
  ⟨"shapes", ⟨⟨[.plain "main"], .zero⟩, [],
    [.struct ⟨.plain "Box", [.plain "T"], [(.plain "value", .named "T" [])], .zero⟩,
      .typeAlias ⟨.plain "Boxes", [], .named "Pair" [.named "Int" []], .zero⟩,
      .typeAlias ⟨.plain "Pair", [.plain "T"], .named "Box" [.named "Box" [.named "T" []]],
        .zero⟩]⟩⟩

/-- A declaration whose type comes from the next one, and one that has none. -/
def numbersFile : SourceFile :=
  ⟨"numbers", ⟨⟨[.plain "main"], .zero⟩, [],
    [.declaration (.plain "first" none (.var "second")),
      .declaration (.plain "second" none (.call "Box" [] [.literal (.int 2)])),
      .declaration (.plain "lost" none (.var "lost"))]⟩⟩

/-- A file with its declarations the other way round. -/
def backwards (file : SourceFile) : SourceFile :=
  { file with tree := { file.tree with declarations := file.tree.declarations.reverse } }

theorem reorders_backwards (file : SourceFile) : Reorders file (backwards file) :=
  ⟨rfl, rfl, .refl _, (List.reverse_perm _).symm⟩

theorem Bound.ofFiles_reordered_backwards :
    Reordered [shapesFile, numbersFile] [backwards numbersFile, backwards shapesFile] ∧
      ∃ bound', Bound.ofFiles [backwards numbersFile, backwards shapesFile] = .ok bound' := by
  have horder : Reordered [shapesFile, numbersFile] [backwards numbersFile, backwards shapesFile] :=
    ⟨[numbersFile, shapesFile], .swap _ _ _,
      .cons (reorders_backwards _) (.cons (reorders_backwards _) .nil)⟩
  have hbound : (Bound.ofFiles [shapesFile, numbersFile]).isOk = true := by
    with_unfolding_all rfl
  refine ⟨horder, (Bound.ofFiles_reordered horder).1.1 ?_⟩
  cases hfiles : Bound.ofFiles [shapesFile, numbersFile] with
  | ok bound => exact ⟨bound, rfl⟩
  | error failure =>
    rw [hfiles] at hbound
    cases hbound

end UnionChecker
