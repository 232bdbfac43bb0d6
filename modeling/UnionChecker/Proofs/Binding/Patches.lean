import UnionChecker.Proofs.Binding.Records
import UnionChecker.Proofs.Check.Congruence
/-!
# What binding enters into a table

Each step of binding enters at most one entry into each map of the table (`Table.Patch`). Patches
that do not give one key two values can be entered in any order: the tables then agree
(`agrees_foldl_patch`).
-/

namespace UnionChecker

open Syntax

/-! ## Entries -/

section

variable {κ α : Type} [BEq κ]

/-- Put an entry into a map, if there is one. -/
def enter : Option (κ × α) → List (κ × α) → List (κ × α)
  | none, m => m
  | some (key, a), m => put key a m

/-- The entries do not give one key two values. -/
def Harmonious (entry entry' : Option (κ × α)) : Prop :=
  ∀ key a a', entry = some (key, a) → entry' = some (key, a') → a = a'

omit [BEq κ] in
theorem harmonious_none_left (entry : Option (κ × α)) : Harmonious none entry := nofun

omit [BEq κ] in
theorem harmonious_none_right (entry : Option (κ × α)) : Harmonious entry none := nofun

omit [BEq κ] in
theorem harmonious_some {key key' : κ} {a a' : α} (h : key = key' → a = a') :
    Harmonious (some (key, a)) (some (key', a')) := by
  intro _ _ _ ha ha'
  cases ha
  cases ha'
  exact h rfl

omit [BEq κ] in
theorem harmonious_of_ne {key key' : κ} (h : key ≠ key') (a a' : α) :
    Harmonious (some (key, a)) (some (key', a')) :=
  harmonious_some fun hkeys => (h hkeys).elim

omit [BEq κ] in
theorem Harmonious.symm {entry entry' : Option (κ × α)} (h : Harmonious entry entry') :
    Harmonious entry' entry := fun key a a' ha ha' => (h key a' a ha' ha).symm

variable [LawfulBEq κ] {m m' : List (κ × α)}

theorem SameEntries.enter (h : SameEntries m m') : ∀ entry : Option (κ × α),
    SameEntries (enter entry m) (enter entry m')
  | none => h
  | some (key, a) => h.put key a

theorem sameEntries_enter_enter {entry entry' : Option (κ × α)} (h : Harmonious entry entry')
    (m : List (κ × α)) :
    SameEntries (enter entry' (enter entry m)) (enter entry (enter entry' m)) := by
  cases entry with
  | none => exact .refl _
  | some entry =>
    cases entry' with
    | none => exact .refl _
    | some entry' =>
      refine sameEntries_put_put (fun hkeys => h _ _ _ rfl ?_) m
      rw [hkeys]

/-- Of entries that do not give one key two values, each is found at the end. -/
theorem lookup_foldl_enter {key : κ} {a : α} : ∀ {entries : List (Option (κ × α))},
    entries.Pairwise Harmonious → some (key, a) ∈ entries → ∀ m : List (κ × α),
    (entries.foldl (fun m entry => enter entry m) m).lookup key = some a
  | [], _, hmem, _ => by simp at hmem
  | first :: entries, hharmonious, hmem, m => by
    rw [List.pairwise_cons] at hharmonious
    rw [List.foldl_cons]
    rcases List.mem_cons.1 hmem with rfl | hmem
    · refine foldl_invariant (I := fun m : List (κ × α) => m.lookup key = some a)
        (fun m entry hentry hm => ?_) (lookup_put_self key a m)
      cases entry with
      | none => exact hm
      | some entry =>
        obtain ⟨key', a'⟩ := entry
        by_cases hkey : key = key'
        · subst hkey
          rw [hharmonious.1 _ hentry key a a' rfl rfl]
          exact lookup_put_self key a' m
        · exact (lookup_put_of_ne hkey _ _).trans hm
    · exact lookup_foldl_enter hharmonious.2 hmem _

end

/-! ## Patches -/

namespace Table

/-- What a step enters into each map of a table. -/
structure Patch where
  types : Option (String × TypeSymbol) := none
  values : Option (String × Ty) := none
  fileTypes : Option ((String × String) × TypeSymbol) := none
  fileValues : Option ((String × String) × ImportedValue) := none
  fields : Option (Ref × List (String × Ty)) := none
  typeAliases : Option (Ref × (List String × Ty)) := none
  constructors : Option (Ref × Signature) := none
  natives : Option (Ref × Signature) := none
  nativePackages : Option ((String × String) × String) := none
  matchFields : Option (Ref × List (Option String)) := none

/-- Enter a patch into a table. -/
def patch (t : Table) (p : Patch) : Table where
  package := t.package
  types := enter p.types t.types
  values := enter p.values t.values
  fileTypes := enter p.fileTypes t.fileTypes
  fileValues := enter p.fileValues t.fileValues
  fields := enter p.fields t.fields
  typeAliases := enter p.typeAliases t.typeAliases
  constructors := enter p.constructors t.constructors
  natives := enter p.natives t.natives
  nativePackages := enter p.nativePackages t.nativePackages
  matchFields := enter p.matchFields t.matchFields

/-- The patches do not give one key two values in any map. -/
structure Patch.Harmonious (p q : Patch) : Prop where
  types : UnionChecker.Harmonious p.types q.types := by
    first | exact harmonious_none_left _ | exact harmonious_none_right _
  values : UnionChecker.Harmonious p.values q.values := by
    first | exact harmonious_none_left _ | exact harmonious_none_right _
  fileTypes : UnionChecker.Harmonious p.fileTypes q.fileTypes := by
    first | exact harmonious_none_left _ | exact harmonious_none_right _
  fileValues : UnionChecker.Harmonious p.fileValues q.fileValues := by
    first | exact harmonious_none_left _ | exact harmonious_none_right _
  fields : UnionChecker.Harmonious p.fields q.fields := by
    first | exact harmonious_none_left _ | exact harmonious_none_right _
  typeAliases : UnionChecker.Harmonious p.typeAliases q.typeAliases := by
    first | exact harmonious_none_left _ | exact harmonious_none_right _
  constructors : UnionChecker.Harmonious p.constructors q.constructors := by
    first | exact harmonious_none_left _ | exact harmonious_none_right _
  natives : UnionChecker.Harmonious p.natives q.natives := by
    first | exact harmonious_none_left _ | exact harmonious_none_right _
  nativePackages : UnionChecker.Harmonious p.nativePackages q.nativePackages := by
    first | exact harmonious_none_left _ | exact harmonious_none_right _
  matchFields : UnionChecker.Harmonious p.matchFields q.matchFields := by
    first | exact harmonious_none_left _ | exact harmonious_none_right _

variable {t t' : Table} {p q : Patch}

theorem Patch.Harmonious.symm (h : p.Harmonious q) : q.Harmonious p where
  types := h.types.symm
  values := h.values.symm
  fileTypes := h.fileTypes.symm
  fileValues := h.fileValues.symm
  fields := h.fields.symm
  typeAliases := h.typeAliases.symm
  constructors := h.constructors.symm
  natives := h.natives.symm
  nativePackages := h.nativePackages.symm
  matchFields := h.matchFields.symm

theorem Agrees.patch (h : t.Agrees t') (p : Patch) : (t.patch p).Agrees (t'.patch p) where
  package := h.package
  types := h.types.enter _
  values := h.values.enter _
  fileTypes := h.fileTypes.enter _
  fileValues := h.fileValues.enter _
  fields := h.fields.enter _
  typeAliases := h.typeAliases.enter _
  constructors := h.constructors.enter _
  natives := h.natives.enter _
  nativePackages := h.nativePackages.enter _
  matchFields := h.matchFields.enter _

theorem agrees_patch_patch (h : p.Harmonious q) (t : Table) :
    ((t.patch p).patch q).Agrees ((t.patch q).patch p) where
  package := rfl
  types := sameEntries_enter_enter h.types _
  values := sameEntries_enter_enter h.values _
  fileTypes := sameEntries_enter_enter h.fileTypes _
  fileValues := sameEntries_enter_enter h.fileValues _
  fields := sameEntries_enter_enter h.fields _
  typeAliases := sameEntries_enter_enter h.typeAliases _
  constructors := sameEntries_enter_enter h.constructors _
  natives := sameEntries_enter_enter h.natives _
  nativePackages := sameEntries_enter_enter h.nativePackages _
  matchFields := sameEntries_enter_enter h.matchFields _

/-- **Harmonious patches can be entered in any order.** -/
theorem agrees_foldl_patch {patches patches' : List Patch} (hperm : patches.Perm patches')
    (hharmonious : patches.Pairwise Patch.Harmonious) (h : t.Agrees t') :
    (patches.foldl patch t).Agrees (patches'.foldl patch t') :=
  foldl_perm .refl .trans (fun p h => h.patch p) .symm (fun t _ _ hpq => agrees_patch_patch hpq t)
    hperm hharmonious h

/-- What one of several harmonious patches enters into a map is found there at the end. -/
theorem lookup_foldl_patch {κ α : Type} [BEq κ] [LawfulBEq κ] {get : Table → List (κ × α)}
    {entry : Patch → Option (κ × α)} (hget : ∀ t p, get (t.patch p) = enter (entry p) (get t))
    (hentry : ∀ {p q}, p.Harmonious q → UnionChecker.Harmonious (entry p) (entry q))
    {patches : List Patch} (hharmonious : patches.Pairwise Patch.Harmonious) (hp : p ∈ patches)
    {key : κ} {a : α} (ha : entry p = some (key, a)) :
    (get (patches.foldl patch t)).lookup key = some a := by
  have hfold : ∀ (patches : List Patch) (t : Table), get (patches.foldl patch t) =
      (patches.map entry).foldl (fun m entry => enter entry m) (get t) := by
    intro patches
    induction patches with
    | nil => exact fun _ => rfl
    | cons p patches ih =>
      intro t
      rw [List.foldl_cons, ih, hget, List.map_cons, List.foldl_cons]
  rw [hfold]
  refine lookup_foldl_enter (List.pairwise_map.2 (hharmonious.imp hentry)) ?_ _
  exact List.mem_map.2 ⟨p, hp, ha⟩

/-- Patches may be made out for the package of the table, which they leave as it is. -/
theorem foldl_eq_foldl_patch {α : Type} {f : Table → α → Table} {g : String → α → Patch}
    (hf : ∀ t a, f t a = t.patch (g t.package a)) : ∀ (as : List α) (t : Table),
    as.foldl f t = (as.map (g t.package)).foldl patch t
  | [], _ => rfl
  | a :: as, t => by
    rw [List.foldl_cons, hf, foldl_eq_foldl_patch hf as, List.map_cons, List.foldl_cons]
    rfl

end Table

/-! ## The patches of binding -/

namespace Binding

open Table (Patch)

/-- The type of a struct or interface. -/
def RecordSite.patch (package : String) (site : RecordSite) : Patch :=
  let nominal := site.nominal package
  { types := some (site.record.name.text, .named nominal (nominal.formals.map .var)) }

theorem declareRecord_eq_ok_iff {table table' : Table} {site : RecordSite} :
    declareRecord table site = .ok table' ↔
      hasKey site.record.name.text table.types = false ∧
        table' = table.patch (site.patch table.package) := by
  simp only [declareRecord, Table.defineType]
  cases hasKey site.record.name.text table.types with
  | true => simp
  | false =>
    simp only [Bool.false_eq_true, if_false, Except.ok.injEq, true_and]
    exact eq_comm

/-- The fields and the witness fields of a record. -/
def fieldsPatch (decl : Nominal) (fields : List (String × Ty)) : Patch :=
  { fields := some (decl.ref, fields)
    matchFields :=
      if decl.formals.isEmpty then none else some (decl.ref, witnessFields decl.formals fields) }

/-- What an import brings into a file. -/
def importPatch (file : String) (target : ImportTarget) : LibraryItem → Patch
  | .function signature =>
    { fileValues := some ((file, target.localName.text), ⟨target.ref, signature.toTy⟩)
      natives := some (target.ref, signature)
      nativePackages := some ((file, target.localName.text), target.ref.package) }
  | .record record =>
    { fieldsPatch record.decl record.fields with
      fileTypes := some ((file, target.localName.text),
        .named record.decl (record.decl.formals.map .var))
      fileValues := some ((file, target.localName.text), ⟨target.ref, record.constructor.toTy⟩)
      natives := some (target.ref, record.constructor)
      nativePackages := some ((file, target.localName.text), target.ref.package) }

/-- The name of an import is new in a file. -/
def Fresh (table : Table) (file : String) (target : ImportTarget) : LibraryItem → Prop
  | .function _ => hasKey (file, target.localName.text) table.fileValues = false
  | .record _ => hasKey (file, target.localName.text) table.fileValues = false ∧
      hasKey (file, target.localName.text) table.fileTypes = false

theorem recordFields_eq_patch (table : Table) (decl : Nominal) (fields : List (String × Ty)) :
    recordFields table decl fields = table.patch (fieldsPatch decl fields) := by
  unfold recordFields fieldsPatch
  dsimp only
  split <;> rfl

theorem importItem_eq_some_iff {table table' : Table} {file : String} {target : ImportTarget}
    {item : LibraryItem} : importItem table file target item = some table' ↔
      Fresh table file target item ∧ table' = table.patch (importPatch file target item) := by
  cases item with
  | function signature =>
    simp only [importItem, importValue, Table.defineFileValue, Fresh]
    cases hasKey (file, target.localName.text) table.fileValues with
    | true => simp
    | false => simp [importPatch, Table.patch, enter, eq_comm]
  | record record =>
    simp only [importItem, importValue, Table.defineFileValue, Table.defineFileType, Fresh]
    cases hasKey (file, target.localName.text) table.fileTypes with
    | true => simp
    | false =>
      simp only [Bool.false_eq_true, if_false, Option.bind_eq_bind, Option.bind_some]
      cases hasKey (file, target.localName.text) table.fileValues with
      | true => simp
      | false =>
        simp only [Bool.false_eq_true, if_false, Option.bind_some, recordFields_eq_patch,
          Option.pure_def, Option.some.injEq, and_self, true_and]
        exact eq_comm

/-- What a type alias stands for. -/
def aliasPatch (package : String) (resolved : TypeAlias × Ty) : Patch :=
  let name := resolved.1.name.text
  let generics := resolved.1.generics.map (·.text)
  { types := some (name, .synonym generics resolved.2)
    typeAliases := some (⟨package, name⟩, (generics, resolved.2)) }

theorem recordAlias_eq_patch (table : Table) (resolved : TypeAlias × Ty) :
    recordAlias table resolved = table.patch (aliasPatch table.package resolved) := rfl

/-- The fields and the constructor of a struct or interface. -/
def recordPatch (record : RecordType) : Patch :=
  { fieldsPatch record.decl record.fields with
    values := some (record.decl.ref.name, record.constructor.toTy)
    constructors := some (record.decl.ref, record.constructor) }

theorem recordType_eq_patch (table : Table) (record : RecordType) :
    recordType table record = table.patch (recordPatch record) := by
  simp only [recordType, recordFields_eq_patch]
  rfl

/-- The type of a declaration. -/
def Slot.patch (slot : Slot) : Patch :=
  match slot.state with
  | .typed _ ty => { values := some (slot.name.text, ty) }
  | _ => {}

theorem recordSlots_eq_foldl (table : Table) (slots : List Slot) :
    recordSlots table slots = (slots.map Slot.patch).foldl Table.patch table := by
  refine Table.foldl_eq_foldl_patch (g := fun _ => Slot.patch) (fun t slot => ?_) slots table
  obtain ⟨file, name, span, state⟩ := slot
  cases state <;> rfl

/-! ## Harmony -/

theorem harmonious_fieldsPatch {decl decl' : Nominal} {fields fields' : List (String × Ty)}
    (h : decl.ref = decl'.ref → decl = decl' ∧ fields = fields') :
    (fieldsPatch decl fields).Harmonious (fieldsPatch decl' fields') := by
  refine { fields := harmonious_some fun href => (h href).2, matchFields := ?_ }
  unfold fieldsPatch
  dsimp only
  split
  · exact harmonious_none_left _
  · split
    · exact harmonious_none_right _
    · refine harmonious_some fun href => ?_
      obtain ⟨rfl, rfl⟩ := h href
      rfl

/-- Imports of a file under different names, and of different files, are harmonious: for one item of
the standard library they enter the same. -/
theorem harmonious_importPatch {file file' : String} {target target' : ImportTarget}
    {item item' : LibraryItem} (hitem : Library.lookup target.ref = some item)
    (hitem' : Library.lookup target'.ref = some item')
    (hne : (file, target.localName.text) ≠ (file', target'.localName.text)) :
    (importPatch file target item).Harmonious (importPatch file' target' item') := by
  -- what files share is keyed by the item, not by the name that it has in the file
  have hsame : target.ref = target'.ref → item = item' := by
    intro href
    rw [href, hitem'] at hitem
    exact (Option.some.inj hitem).symm
  cases item with
  | function signature =>
    cases item' with
    | function signature' =>
      refine {
        fileValues := harmonious_of_ne hne _ _
        natives := harmonious_some fun href => ?_
        nativePackages := harmonious_of_ne hne _ _ }
      cases hsame href
      rfl
    | record record' =>
      exact {
        fileValues := harmonious_of_ne hne _ _
        natives := harmonious_some fun href => nomatch hsame href
        nativePackages := harmonious_of_ne hne _ _ }
  | record record =>
    cases item' with
    | function signature' =>
      exact {
        fileValues := harmonious_of_ne hne _ _
        natives := harmonious_some fun href => nomatch hsame href
        nativePackages := harmonious_of_ne hne _ _ }
    | record record' =>
      have hfields : (fieldsPatch record.decl record.fields).Harmonious
          (fieldsPatch record'.decl record'.fields) := by
        refine harmonious_fieldsPatch fun href => ?_
        rw [library_ref hitem, library_ref hitem'] at href
        cases hsame href
        exact ⟨rfl, rfl⟩
      refine {
        fileTypes := harmonious_of_ne hne _ _
        fileValues := harmonious_of_ne hne _ _
        fields := hfields.fields
        natives := harmonious_some fun href => ?_
        nativePackages := harmonious_of_ne hne _ _
        matchFields := hfields.matchFields }
      cases hsame href
      rfl

theorem harmonious_recordPatch {record record' : RecordType}
    (h : record.decl.ref.name ≠ record'.decl.ref.name) :
    (recordPatch record).Harmonious (recordPatch record') := by
  have href : record.decl.ref ≠ record'.decl.ref := fun href => h (congrArg Ref.name href)
  have hfields : (fieldsPatch record.decl record.fields).Harmonious
      (fieldsPatch record'.decl record'.fields) :=
    harmonious_fieldsPatch fun hsame => (href hsame).elim
  exact {
    values := harmonious_of_ne h _ _
    fields := hfields.fields
    constructors := harmonious_of_ne href _ _
    matchFields := hfields.matchFields }

theorem harmonious_aliasPatch {package : String} {resolved resolved' : TypeAlias × Ty}
    (h : resolved.1.name.text ≠ resolved'.1.name.text) :
    (aliasPatch package resolved).Harmonious (aliasPatch package resolved') where
  types := harmonious_of_ne h _ _
  typeAliases := harmonious_of_ne (fun href => h (congrArg Ref.name href)) _ _

theorem Slot.harmonious_patch {slot slot' : Slot} (h : slot.name.text ≠ slot'.name.text) :
    slot.patch.Harmonious slot'.patch := by
  unfold Slot.patch
  split
  · split
    · exact { values := harmonious_of_ne h _ _ }
    · exact {}
  · exact {}

end Binding

end UnionChecker
