import UnionChecker.Binding.Declarations
import UnionChecker.Proofs.Lists
import UnionChecker.Proofs.Steps
import UnionChecker.Proofs.Value.Basic
/-!
# Witness fields and constructors of a bound package

Binding records the fields of a struct or interface twice: in its constructor, and through the
witness fields that tests look at. Both are recorded at the same time, and so they agree in the
table of every package that is bound (`Bound.witnessesAgree`).
-/

namespace UnionChecker

open Syntax

/-- What a table says about records and their witness fields. -/
structure Table.WitnessesAgree (table : Table) : Prop where
  /-- The records of the package are named after it. -/
  package : ∀ ref generic, table.constructors.lookup ref = some generic → ref.package = table.package
  /-- The witness fields of a generic record of the package are those of its constructor. -/
  own : ∀ ref generic, table.constructors.lookup ref = some generic → generic.generics ≠ [] →
    table.matchFields.lookup ref = some (witnessFields generic.generics generic.params) ∧
      generic.generics.Nodup
  /-- All other witness fields are those of records of the standard library. -/
  library : ∀ ref fields, table.constructors.lookup ref = none →
    table.matchFields.lookup ref = some fields →
    ∃ record, Library.lookup ref = some (.record record) ∧
      fields = witnessFields record.decl.formals record.fields

/-- Two tables know the same records. -/
structure Table.SameRecords (t t' : Table) : Prop where
  package : t'.package = t.package
  constructors : t'.constructors = t.constructors
  matchFields : t'.matchFields = t.matchFields

theorem Table.SameRecords.refl (t : Table) : t.SameRecords t := ⟨rfl, rfl, rfl⟩

theorem Table.SameRecords.trans {t t' t'' : Table} (h : t.SameRecords t') (h' : t'.SameRecords t'') :
    t.SameRecords t'' :=
  ⟨h'.package.trans h.package, h'.constructors.trans h.constructors,
    h'.matchFields.trans h.matchFields⟩

theorem Table.WitnessesAgree.congr {t t' : Table} (h : t.WitnessesAgree) (hs : t.SameRecords t') :
    t'.WitnessesAgree := by
  constructor
  · rw [hs.constructors, hs.package]; exact h.package
  · rw [hs.constructors, hs.matchFields]; exact h.own
  · rw [hs.constructors, hs.matchFields]; exact h.library

theorem library_formals_nodup {ref : Ref} {record : RecordType}
    (h : Library.lookup ref = some (.record record)) : record.decl.formals.Nodup := by
  have hall : ∀ item ∈ Library.items, ∀ r, item.2 = .record r → r.decl.formals.Nodup := by
    simp [Library.items, Library.records, Library.functions, Library.record, Library.function]
  exact hall _ (mem_of_lookup_eq_some h) _ rfl

theorem library_package_ne {ref : Ref} {item : LibraryItem} (h : Library.lookup ref = some item) :
    ref.package ≠ "" := by
  have hall : ∀ item ∈ Library.items, item.1.package ≠ "" := by decide
  exact hall _ (mem_of_lookup_eq_some h)

/-- The witness fields of a generic record are those of its constructor. -/
theorem Table.WitnessesAgree.witnessFields_eq {table : Table} (h : table.WitnessesAgree) {ref : Ref}
    {generic : Signature} {fields : List (Option String)}
    (hg : table.constructor? ref = some generic) (hne : generic.generics ≠ [])
    (hf : table.matchFields.lookup ref = some fields) :
    fields = witnessFields generic.generics generic.params ∧ generic.generics.Nodup := by
  rw [Table.constructor?] at hg
  cases hc : table.constructors.lookup ref with
  | some own =>
    obtain rfl : own = generic := by simpa [hc] using hg
    obtain ⟨hw, hnd⟩ := h.own ref own hc hne
    exact ⟨Option.some.inj (hf.symm.trans hw), hnd⟩
  | none =>
    obtain ⟨record, hr, rfl⟩ := h.library ref fields hc hf
    obtain rfl : record.constructor = generic := by simpa [hc, hr] using hg
    exact ⟨rfl, library_formals_nodup hr⟩

/-- A package with a name declares no built-in type. -/
theorem Table.WitnessesAgree.constructor?_builtin {table : Table} (h : table.WitnessesAgree)
    (hp : table.package ≠ "") (name : String) : table.constructor? ⟨"", name⟩ = none := by
  rw [Table.constructor?]
  cases hc : table.constructors.lookup ⟨"", name⟩ with
  | some generic => exact absurd (h.package _ _ hc).symm hp
  | none =>
    cases hl : Library.lookup ⟨"", name⟩ with
    | some item => exact absurd rfl (library_package_ne hl)
    | none => rfl

namespace Binding

/-! ## What the steps of binding do -/

theorem declareRecord_eq_ok {table table' : Table} {site : RecordSite}
    (h : declareRecord table site = .ok table') :
    hasKey site.record.name.text table.types = false ∧
      table' = { table with
        types := put site.record.name.text
          (.named (site.nominal table.package) ((site.nominal table.package).formals.map .var))
          table.types } := by
  simp only [declareRecord, Table.defineType] at h
  split at h
  · rename_i hdefined
    split at hdefined <;> cases hdefined
    rename_i hfresh
    cases h
    exact ⟨by simpa using hfresh, rfl⟩
  · cases h

theorem defineFileType_eq_some {table table' : Table} {file name : String} {symbol : TypeSymbol}
    (h : table.defineFileType file name symbol = some table') :
    table' = { table with fileTypes := put (file, name) symbol table.fileTypes } := by
  unfold Table.defineFileType at h
  split at h <;> cases h
  rfl

theorem importValue_eq_some {table table' : Table} {file : String} {target : ImportTarget}
    {signature : Signature} (h : importValue table file target signature = some table') :
    table' = { table with
      fileValues := put (file, target.localName.text) ⟨target.ref, signature.toTy⟩ table.fileValues
      natives := put target.ref signature table.natives
      nativePackages :=
        put (file, target.localName.text) target.ref.package table.nativePackages } := by
  simp only [importValue, Table.defineFileValue, Option.bind_eq_bind, Option.bind_eq_some_iff] at h
  obtain ⟨t, hdefined, h⟩ := h
  split at hdefined <;> cases hdefined
  cases h
  rfl

theorem importRecord_eq_some {table table' : Table} {file : String} {target : ImportTarget}
    {record : RecordType} (h : importItem table file target (.record record) = some table') :
    ∃ typed valued,
      table.defineFileType file target.localName.text
        (.named record.decl (record.decl.formals.map .var)) = some typed ∧
      importValue typed file target record.constructor = some valued ∧
      table' = recordFields valued record.decl record.fields := by
  simp only [importItem, Option.bind_eq_bind, Option.bind_eq_some_iff] at h
  obtain ⟨typed, htyped, valued, hvalued, h⟩ := h
  cases h
  exact ⟨typed, valued, htyped, hvalued, rfl⟩

theorem bindImport_eq_ok {aliasNames : List String} {file : String} {table table' : Table}
    {i : Import} (h : bindImport aliasNames file table i = .ok table') :
    ∃ target item, ImportTarget.of? i = some target ∧ Library.lookup target.ref = some item ∧
      importItem table file target item = some table' := by
  simp only [bindImport] at h
  split at h
  · cases h
  split at h
  · cases h
  split at h
  · cases h
  rename_i target htarget _ _ item hitem
  split at h
  · rename_i himport
    cases h
    exact ⟨target, item, htarget, hitem, himport⟩
  · cases h

theorem resolveRecord_eq_ok {table : Table} {site : RecordSite} {record : RecordType}
    (h : resolveRecord table site = .ok record) :
    firstRepeated site.record.generics [] = none ∧ ∃ fields,
      resolveFields (fileContext table site.file) site site.record.fields [] = .ok fields ∧
        record = ⟨site.nominal table.package, fields⟩ := by
  simp only [resolveRecord] at h
  split at h
  · cases h
  · rename_i hrepeated
    obtain ⟨fields, hfields, h⟩ := bind_eq_ok.1 h
    cases h
    exact ⟨hrepeated, fields, hfields, rfl⟩

/-- Fields are resolved one by one, and those of a struct can be stored. -/
theorem forall₂_resolveFields {Γ : Context} {site : RecordSite} {fields : List (Name × TypeExpr)}
    {seen : List String} {resolved : List (String × Ty)}
    (h : resolveFields Γ site fields seen = .ok resolved) :
    List.Forall₂ (fun written field => field.1 = written.1.text ∧
      Γ.resolveType .initial (site.record.generics.map (·.text)) written.2 = .ok field.2 ∧
      (site.isStruct = true → field.2.storable = true)) fields resolved := by
  induction fields generalizing seen resolved with
  | nil =>
    cases h
    exact .nil
  | cons field fields ih =>
    obtain ⟨name, type⟩ := field
    rw [resolveFields] at h
    split at h
    · cases h
    obtain ⟨ty, hty, h⟩ := bind_eq_ok.1 h
    split at h
    · cases h
    · rename_i hstorable
      obtain ⟨rest, hrest, h⟩ := bind_eq_ok.1 h
      cases h
      exact .cons ⟨rfl, hty, by simpa using hstorable⟩ (ih hrest)

/-! ## Steps that leave records alone -/

theorem sameRecords_declareRecord {table table' : Table} {site : RecordSite}
    (h : declareRecord table site = .ok table') : table.SameRecords table' := by
  obtain ⟨-, rfl⟩ := declareRecord_eq_ok h
  exact ⟨rfl, rfl, rfl⟩

theorem sameRecords_recordAlias (table : Table) (resolved : TypeAlias × Ty) :
    table.SameRecords (recordAlias table resolved) := ⟨rfl, rfl, rfl⟩

theorem sameRecords_aliasRounds : ∀ (rounds : Nat) {table table' : Table} {pending : List AliasSite},
    aliasRounds rounds table pending = .ok table' → table.SameRecords table'
  | 0, table, table', pending, h => by cases h; exact .refl table
  | rounds + 1, table, table', pending, h => by
    simp only [aliasRounds] at h
    split at h
    · cases h
    · refine Table.SameRecords.trans ?_ (sameRecords_aliasRounds rounds h)
      exact foldl_invariant (I := fun t => table.SameRecords t)
        (fun t a _ ht => ht.trans (sameRecords_recordAlias t a)) (.refl table)

theorem sameRecords_recordSlots (table : Table) (slots : List Slot) :
    table.SameRecords (recordSlots table slots) := by
  refine foldl_invariant (I := fun t => table.SameRecords t) (fun t slot _ ht => ht.trans ?_)
    (.refl table)
  split <;> exact ⟨rfl, rfl, rfl⟩

theorem sameRecords_inferenceRounds : ∀ (rounds : Nat) (table : Table) (slots : List Slot),
    table.SameRecords (inferenceRounds rounds table slots).1
  | 0, table, slots => .refl table
  | rounds + 1, table, slots => by
    simp only [inferenceRounds]
    split
    · exact (sameRecords_recordSlots table _).trans (sameRecords_inferenceRounds rounds _ _)
    · exact .refl table

theorem sameRecords_bindDeclarations {table table' : Table} {aliasNames : List String}
    {files : List SourceFile} {declarations : List BoundDeclaration}
    (h : bindDeclarations table aliasNames files = .ok (table', declarations)) :
    table.SameRecords table' := by
  rw [bindDeclarations, bind_eq_ok] at h
  obtain ⟨slots, -, h⟩ := h
  cases h
  exact (sameRecords_recordSlots table _).trans (sameRecords_inferenceRounds _ _ _)

/-! ## Imports -/

theorem library_ref {ref : Ref} {record : RecordType}
    (h : Library.lookup ref = some (.record record)) : record.decl.ref = ref := by
  have hall : ∀ item ∈ Library.items, ∀ r, item.2 = .record r → r.decl.ref = item.1 := by
    simp [Library.items, Library.records, Library.functions, Library.record, Library.function]
  exact hall _ (mem_of_lookup_eq_some h) _ rfl

theorem sameRecords_importValue {table table' : Table} {file : String} {target : ImportTarget}
    {signature : Signature} (h : importValue table file target signature = some table') :
    table.SameRecords table' := by
  obtain rfl := importValue_eq_some h
  exact ⟨rfl, rfl, rfl⟩

/-- Before the records of the package are bound, it has no constructors. -/
def OnlyImports (table : Table) : Prop := table.constructors = [] ∧ table.WitnessesAgree

theorem onlyImports_congr {t t' : Table} (h : OnlyImports t) (hs : t.SameRecords t') :
    OnlyImports t' :=
  ⟨hs.constructors.trans h.1, h.2.congr hs⟩

theorem onlyImports_recordFields {table : Table} {ref : Ref} {record : RecordType}
    (hlib : Library.lookup ref = some (.record record)) (h : OnlyImports table) :
    OnlyImports (recordFields table record.decl record.fields) := by
  have hc : (recordFields table record.decl record.fields).constructors = [] := by
    rw [← h.1, recordFields]; split <;> rfl
  refine ⟨hc, ⟨by simp [hc], by simp [hc], fun x fields _ hx => ?_⟩⟩
  simp only [recordFields, Table.setFields] at hx
  split at hx
  · exact h.2.library x fields (by simp [h.1]) hx
  · by_cases hxr : x = record.decl.ref
    · subst hxr
      rw [lookup_put_self] at hx
      cases hx
      exact ⟨record, library_ref hlib ▸ hlib, rfl⟩
    · rw [lookup_put_of_ne hxr] at hx
      exact h.2.library x fields (by simp [h.1]) hx

theorem onlyImports_bindImport {aliasNames : List String} {file : String} {table table' : Table}
    {i : Import} (h : OnlyImports table)
    (hb : bindImport aliasNames file table i = .ok table') : OnlyImports table' := by
  obtain ⟨target, item, _, hitem, himport⟩ := bindImport_eq_ok hb
  cases item with
  | function signature => exact onlyImports_congr h (sameRecords_importValue himport)
  | record record =>
    obtain ⟨typed, valued, htyped, hvalued, rfl⟩ := importRecord_eq_some himport
    obtain rfl := defineFileType_eq_some htyped
    refine onlyImports_recordFields hitem (onlyImports_congr ?_ (sameRecords_importValue hvalued))
    exact onlyImports_congr h ⟨rfl, rfl, rfl⟩

/-! ## Records of the package -/

theorem firstRepeated_eq_none : ∀ {names : List Name} {seen : List String},
    firstRepeated names seen = none →
      (names.map (·.text)).Nodup ∧ ∀ name ∈ names, name.text ∉ seen
  | [], _, _ => by simp
  | name :: names, seen, h => by
    rw [firstRepeated] at h
    split at h
    · cases h
    · rename_i hseen
      obtain ⟨hnd, hnew⟩ := firstRepeated_eq_none h
      refine ⟨List.nodup_cons.2 ⟨fun hm => ?_, hnd⟩, fun n hn => ?_⟩
      · obtain ⟨n, hn, he⟩ := List.mem_map.1 hm
        exact hnew n hn (by simp [he])
      · rcases List.mem_cons.1 hn with rfl | hn
        · simpa using hseen
        · exact fun hs => hnew n hn (List.mem_cons_of_mem _ hs)

theorem resolveRecord_decl {table : Table} {site : RecordSite} {record : RecordType}
    (h : resolveRecord table site = .ok record) :
    record.decl.ref.package = table.package ∧ record.decl.formals.Nodup := by
  obtain ⟨hrepeated, fields, -, rfl⟩ := resolveRecord_eq_ok h
  exact ⟨rfl, (firstRepeated_eq_none hrepeated).1⟩

theorem package_recordFields (table : Table) (decl : Nominal) (fields : List (String × Ty)) :
    (recordFields table decl fields).package = table.package := by
  unfold recordFields
  split <;> rfl

theorem package_recordType (table : Table) (record : RecordType) :
    (recordType table record).package = table.package :=
  package_recordFields table record.decl record.fields

/-- Fields and witness fields of a record are recorded together. -/
theorem witnessesAgree_recordType {table : Table} {record : RecordType} (h : table.WitnessesAgree)
    (hp : record.decl.ref.package = table.package) (hnd : record.decl.formals.Nodup) :
    (recordType table record).WitnessesAgree := by
  have hc : (recordType table record).constructors =
      put record.decl.ref record.constructor table.constructors := by
    simp only [recordType, recordFields, Table.setFields]; split <;> rfl
  have hm : ∀ ref, ref ≠ record.decl.ref →
      (recordType table record).matchFields.lookup ref = table.matchFields.lookup ref := by
    intro ref hne
    simp only [recordType, recordFields, Table.setFields]
    split
    · rfl
    · exact lookup_put_of_ne hne _ _
  refine ⟨fun ref generic hg => ?_, fun ref generic hg hne => ?_, fun ref fields hg hf => ?_⟩ <;>
    rw [hc] at hg <;> by_cases hr : ref = record.decl.ref
  · rw [package_recordType, hr, hp]
  · rw [lookup_put_of_ne hr] at hg
    rw [package_recordType]
    exact h.package ref generic hg
  · subst hr
    rw [lookup_put_self] at hg
    cases hg
    refine ⟨?_, hnd⟩
    have hformals : record.decl.formals.isEmpty = false := by
      simpa [RecordType.constructor] using hne
    simp [recordType, recordFields, hformals, lookup_put_self, RecordType.constructor]
  · rw [lookup_put_of_ne hr] at hg
    rw [hm ref hr]
    exact h.own ref generic hg hne
  · rw [hr, lookup_put_self] at hg
    cases hg
  · rw [lookup_put_of_ne hr] at hg
    rw [hm ref hr] at hf
    exact h.library ref fields hg hf

theorem witnessesAgree_bindRecords {table table' : Table} {sites : List RecordSite}
    (h : table.WitnessesAgree) (hb : bindRecords table sites = .ok table') :
    table'.WitnessesAgree ∧ table'.package = table.package := by
  rw [bindRecords, bind_eq_ok] at hb
  obtain ⟨records, hrecords, hb⟩ := hb
  cases hb
  refine foldl_invariant (I := fun t : Table => t.WitnessesAgree ∧ t.package = table.package)
    (fun t record hrecord ht => ?_) ⟨h, rfl⟩
  obtain ⟨site, -, hsite⟩ := exists_of_mem_mapM hrecords record hrecord
  obtain ⟨hp, hnd⟩ := resolveRecord_decl hsite
  exact ⟨witnessesAgree_recordType ht.1 (hp.trans ht.2.symm) hnd,
    (package_recordType t record).trans ht.2⟩

end Binding

/-- **Tests and constructors agree on the fields of records** in every bound package. -/
theorem Bound.witnessesAgree {files : List SourceFile} {bound : Bound}
    (h : Bound.ofFiles files = .ok bound) : bound.table.WitnessesAgree := by
  simp only [Bound.ofFiles, bind_eq_ok] at h
  obtain ⟨_, -, declared, hdeclared, aliasNames, -, imported, himported, aliased, haliased, recorded,
    hrecorded, ⟨final, declarations⟩, hfinal, h⟩ := h
  cases h
  have h0 : Binding.OnlyImports declared :=
    foldlM_invariant (I := Binding.OnlyImports)
      (fun _ _ _ _ ht hd => Binding.onlyImports_congr ht (Binding.sameRecords_declareRecord hd))
      ⟨rfl, ⟨by simp [Table.empty], by simp [Table.empty], by simp [Table.empty]⟩⟩ hdeclared
  have h1 : Binding.OnlyImports imported :=
    foldlM_invariant (I := Binding.OnlyImports)
      (fun _ _ _ _ ht hf => foldlM_invariant (I := Binding.OnlyImports)
        (fun _ _ _ _ ht hi => Binding.onlyImports_bindImport ht hi) ht hf) h0 himported
  have h2 := (Binding.onlyImports_congr h1 (Binding.sameRecords_aliasRounds _ haliased)).2
  exact (Binding.witnessesAgree_bindRecords h2 hrecorded).1.congr
    (Binding.sameRecords_bindDeclarations hfinal)

end UnionChecker
