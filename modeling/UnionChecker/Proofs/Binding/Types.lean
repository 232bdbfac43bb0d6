import UnionChecker.Proofs.Binding.Records
/-!
# The table of a package before its declarations

Binding declares the types of a package first, and looks at its values afterwards (`Bound.ofFiles_eq`).
Up to there the table grows by four kinds of steps, so what each of them keeps holds of the table that
declarations are bound against (`bindTypes_invariant`).
-/

namespace UnionChecker

open Syntax

namespace Binding

/-- Declare the types of a package. The result is its table and the names of its type aliases. -/
def bindTypes (files : List SourceFile) : Except Failure (Table × List String) := do
  files.forM (requirePackage (packageName files))
  let table ← (recordSites files).foldlM declareRecord (.empty (packageName files))
  let aliasNames ← (aliasSites files).foldlM (declareAlias table) []
  let table ← files.foldlM (bindFileImports aliasNames) table
  let table ← bindAliases table (aliasSites files)
  let table ← bindRecords table (recordSites files)
  return (table, aliasNames)

section

variable {I : Table → Prop} {table table' : Table}

theorem mem_of_mem_unresolvedAliases {pending : List AliasSite} {unresolved : AliasSite × Failure}
    (h : unresolved ∈ unresolvedAliases table pending) : unresolved.1 ∈ pending := by
  obtain ⟨site, hmem, hsite⟩ := List.mem_filterMap.1 h
  split at hsite <;> cases hsite
  exact hmem

theorem exists_of_mem_resolvedAliases {pending : List AliasSite} {resolved : TypeAlias × Ty}
    (h : resolved ∈ resolvedAliases table pending) :
    ∃ site ∈ pending, resolved.1 = site.typeAlias ∧ resolveAlias table site = .ok resolved.2 := by
  obtain ⟨site, hmem, hsite⟩ := List.mem_filterMap.1 h
  split at hsite
  · rename_i hty
    cases hsite
    exact ⟨site, hmem, rfl, hty⟩
  · cases hsite

/-- Each round resolves aliases against the table of the rounds before. -/
theorem aliasRounds_invariant {sites : List AliasSite}
    (hstep : ∀ site ∈ sites, ∀ known t ty, I known → I t → resolveAlias known site = .ok ty →
      I (recordAlias t (site.typeAlias, ty))) :
    ∀ (rounds : Nat) {table table' : Table} {pending : List AliasSite}, pending ⊆ sites → I table →
      aliasRounds rounds table pending = .ok table' → I table'
  | 0, _, _, _, _, ht, h => by cases h; exact ht
  | rounds + 1, table, table', pending, hpending, ht, h => by
    simp only [aliasRounds] at h
    split at h
    · cases h
    · refine aliasRounds_invariant hstep rounds (fun site hsite => hpending ?_) ?_ h
      · obtain ⟨unresolved, hmem, rfl⟩ := List.mem_map.1 hsite
        exact mem_of_mem_unresolvedAliases hmem
      · refine foldl_invariant (fun t resolved hresolved ht' => ?_) ht
        obtain ⟨site, hmem, hsite, hty⟩ := exists_of_mem_resolvedAliases hresolved
        obtain ⟨typeAlias, ty⟩ := resolved
        cases hsite
        exact hstep site (hpending hmem) table t ty ht ht' hty

theorem bindRecords_invariant {sites : List RecordSite}
    (hstep : ∀ site ∈ sites, ∀ known t record, I known → I t →
      resolveRecord known site = .ok record → I (recordType t record))
    (ht : I table) (h : bindRecords table sites = .ok table') : I table' := by
  rw [bindRecords, bind_eq_ok] at h
  obtain ⟨records, hrecords, h⟩ := h
  cases h
  refine foldl_invariant (fun t record hrecord ht' => ?_) ht
  obtain ⟨site, hsite, hresolve⟩ := exists_of_mem_mapM hrecords record hrecord
  exact hstep site hsite table t record ht ht' hresolve

/-- **What every step keeps holds of the table that declarations are bound against.** -/
theorem bindTypes_invariant {files : List SourceFile} {aliasNames : List String}
    (hempty : I (.empty (packageName files)))
    (hrecord : ∀ site ∈ recordSites files, ∀ t t', I t → declareRecord t site = .ok t' → I t')
    (himport : ∀ file ∈ files, ∀ i ∈ file.tree.imports, ∀ aliasNames t t', I t →
      bindImport aliasNames file.name t i = .ok t' → I t')
    (halias : ∀ site ∈ aliasSites files, ∀ known t ty, I known → I t →
      resolveAlias known site = .ok ty → I (recordAlias t (site.typeAlias, ty)))
    (hfields : ∀ site ∈ recordSites files, ∀ known t record, I known → I t →
      resolveRecord known site = .ok record → I (recordType t record))
    (h : bindTypes files = .ok (table, aliasNames)) : I table := by
  simp only [bindTypes, bind_eq_ok] at h
  obtain ⟨_, -, declared, hdeclared, names, -, imported, himported, aliased, haliased, recorded,
    hrecorded, h⟩ := h
  cases h
  have h0 : I declared :=
    foldlM_invariant (fun t site hsite t' ht => hrecord site hsite t t' ht) hempty hdeclared
  have h1 : I imported :=
    foldlM_invariant (fun _ file hfile _ ht hbind => foldlM_invariant
      (fun t i hi t' ht => himport file hfile i hi _ t t' ht) ht hbind) h0 himported
  have h2 : I aliased := aliasRounds_invariant halias _ (List.Subset.refl _) h1 haliased
  exact bindRecords_invariant hfields h2 hrecorded

end

end Binding

theorem Bound.ofFiles_eq (files : List SourceFile) :
    Bound.ofFiles files = do
      let (table, aliasNames) ← Binding.bindTypes files
      let (table, declarations) ← Binding.bindDeclarations table aliasNames files
      return ⟨table, declarations⟩ := by
  simp only [Bound.ofFiles, Binding.bindTypes, bind_assoc, pure_bind]

theorem Bound.ofFiles_eq_ok {files : List SourceFile} {bound : Bound} :
    Bound.ofFiles files = .ok bound ↔ ∃ table aliasNames,
      Binding.bindTypes files = .ok (table, aliasNames) ∧
      Binding.bindDeclarations table aliasNames files = .ok (bound.table, bound.declarations) := by
  rw [Bound.ofFiles_eq, bind_eq_ok]
  constructor
  · rintro ⟨⟨table, aliasNames⟩, htypes, h⟩
    obtain ⟨⟨final, declarations⟩, hdeclarations, h⟩ := bind_eq_ok.1 h
    cases h
    exact ⟨table, aliasNames, htypes, hdeclarations⟩
  · rintro ⟨table, aliasNames, htypes, hdeclarations⟩
    exact ⟨_, htypes, bind_eq_ok.2 ⟨_, hdeclarations, rfl⟩⟩

end UnionChecker
