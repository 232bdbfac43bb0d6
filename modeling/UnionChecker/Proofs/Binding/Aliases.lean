import UnionChecker.Proofs.Binding.Rounds
import UnionChecker.Proofs.Binding.SourceOrder
/-!
# What type aliases stand for

An alias is resolved in some round, against a table that has the aliases of the rounds before and not
yet the others. A name that is missing there is not found, and the alias waits; unless it is the name
of a default type, which is found instead. So the type that an alias has been given is the one that it
stands for in the table at the end, as long as it does not mention a name that is both an alias of the
package and a default type (`Bound.ofFiles_alias_resolves`). With such a name it depends on the round
(`ofFiles_alias_depends_on_round`).
-/

namespace UnionChecker

open Syntax

/-! ## The names that a written type looks up -/

namespace Syntax

mutual

/-- The names of types in a written type that are no generics in scope. -/
def TypeExpr.lookups (generics : List String) : TypeExpr → List String
  | ⟨alternatives, _⟩ => alternativesLookups generics alternatives

def Alternative.lookups (generics : List String) : Alternative → List String
  | .hole _ => []
  | .named name args =>
    (if generics.contains name.text then [] else [name.text]) ++ typesLookups generics args
  | .fn bound params result _ =>
    let inner := generics ++ bound.map (·.text)
    paramsLookups inner params ++ result.lookups inner

def alternativesLookups (generics : List String) : List Alternative → List String
  | [] => []
  | a :: as => a.lookups generics ++ alternativesLookups generics as

def typesLookups (generics : List String) : List TypeExpr → List String
  | [] => []
  | t :: ts => t.lookups generics ++ typesLookups generics ts

def paramsLookups (generics : List String) : List (Option Name × TypeExpr) → List String
  | [] => []
  | (_, t) :: ps => t.lookups generics ++ paramsLookups generics ps

end

end Syntax

section

variable {Γ Γ' : Context} {frames : Frames}

/-- Whatever some names refer to in the first context, they refer to in the second one. -/
def Context.Keeps (Γ Γ' : Context) (frames : Frames) (names : List String) : Prop :=
  ∀ x ∈ names, ∀ symbol, Γ.lookupType frames x = some symbol → Γ'.lookupType frames x = some symbol

theorem Context.Keeps.left {names more : List String} (h : Γ.Keeps Γ' frames (names ++ more)) :
    Γ.Keeps Γ' frames names := fun x hx => h x (List.mem_append_left _ hx)

theorem Context.Keeps.right {names more : List String} (h : Γ.Keeps Γ' frames (names ++ more)) :
    Γ.Keeps Γ' frames more := fun x hx => h x (List.mem_append_right _ hx)

theorem genericAt_of_ok {name : Name} {args : List Ty} {t : Ty}
    (h : Γ.genericAt name args = .ok t) : Γ'.genericAt name args = .ok t := by
  unfold Context.genericAt at h ⊢
  split at h
  · rename_i hnone
    rw [if_pos hnone]
    exact h
  · cases h

theorem typeAt_of_keeps {generics : List String} {name : Name} {args : List Ty} {t : Ty}
    (hkeeps : Γ.Keeps Γ' frames (if generics.contains name.text then [] else [name.text]))
    (h : Γ.typeAt frames generics name args = .ok t) :
    Γ'.typeAt frames generics name args = .ok t := by
  unfold Context.typeAt at h ⊢
  split at h
  · rename_i hgeneric
    rw [if_pos hgeneric]
    exact genericAt_of_ok h
  · rename_i hgeneric
    rw [if_neg hgeneric] at hkeeps ⊢
    split at h
    · cases h
    all_goals
      rename_i hsymbol
      rw [hkeeps name.text List.mem_cons_self _ hsymbol]
    · exact genericAt_of_ok h
    all_goals
      split at h
      · rename_i hlength
        simpa only [hlength, if_true] using h
      · cases h

mutual

/-- A written type stands for the same where its names refer to the same. -/
theorem resolveType_of_keeps : ∀ (gs : List String) (type : TypeExpr) (t : Ty),
    Γ.Keeps Γ' frames (type.lookups gs) → Γ.resolveType frames gs type = .ok t →
    Γ'.resolveType frames gs type = .ok t
  | gs, ⟨alternatives, _⟩ => by
    have ih := resolveAlternatives_of_keeps gs alternatives
    intro t hkeeps h
    rw [Context.resolveType, map_eq_ok] at h ⊢
    obtain ⟨ts, hts, rfl⟩ := h
    exact ⟨ts, ih ts hkeeps hts, rfl⟩

theorem resolveAlternative_of_keeps : ∀ (gs : List String) (a : Alternative) (t : Ty),
    Γ.Keeps Γ' frames (a.lookups gs) → Γ.resolveAlternative frames gs a = .ok t →
    Γ'.resolveAlternative frames gs a = .ok t
  | _, .hole _ => fun _ _ h => by cases h
  | gs, .named name args => by
    have ih := resolveTypes_of_keeps gs args
    intro t hkeeps h
    rw [Context.resolveAlternative, bind_eq_ok] at h ⊢
    obtain ⟨ts, hts, ht⟩ := h
    exact ⟨ts, ih ts hkeeps.right hts, typeAt_of_keeps hkeeps.left ht⟩
  | gs, .fn bound params result _ => by
    have ihparams := resolveParams_of_keeps (gs ++ bound.map (·.text)) params
    have ihresult := resolveType_of_keeps (gs ++ bound.map (·.text)) result
    intro t hkeeps h
    simp only [Context.resolveAlternative, bind_eq_ok] at h ⊢
    obtain ⟨ps, hps, r, hr, ht⟩ := h
    exact ⟨ps, ihparams ps hkeeps.left hps, r, ihresult r hkeeps.right hr, ht⟩

theorem resolveAlternatives_of_keeps : ∀ (gs : List String) (as : List Alternative) (ts : List Ty),
    Γ.Keeps Γ' frames (alternativesLookups gs as) → Γ.resolveAlternatives frames gs as = .ok ts →
    Γ'.resolveAlternatives frames gs as = .ok ts
  | _, [] => fun _ _ h => h
  | gs, a :: as => by
    have iha := resolveAlternative_of_keeps gs a
    have ihas := resolveAlternatives_of_keeps gs as
    intro ts hkeeps h
    simp only [Context.resolveAlternatives, bind_eq_ok] at h ⊢
    obtain ⟨t, ht, rest, hrest, h⟩ := h
    exact ⟨t, iha t hkeeps.left ht, rest, ihas rest hkeeps.right hrest, h⟩

theorem resolveTypes_of_keeps : ∀ (gs : List String) (types : List TypeExpr) (ts : List Ty),
    Γ.Keeps Γ' frames (typesLookups gs types) → Γ.resolveTypes frames gs types = .ok ts →
    Γ'.resolveTypes frames gs types = .ok ts
  | _, [] => fun _ _ h => h
  | gs, type :: types => by
    have iht := resolveType_of_keeps gs type
    have ihts := resolveTypes_of_keeps gs types
    intro ts hkeeps h
    simp only [Context.resolveTypes, bind_eq_ok] at h ⊢
    obtain ⟨t, ht, rest, hrest, h⟩ := h
    exact ⟨t, iht t hkeeps.left ht, rest, ihts rest hkeeps.right hrest, h⟩

theorem resolveParams_of_keeps : ∀ (gs : List String) (params : List (Option Name × TypeExpr))
    (ps : List (String × Ty)), Γ.Keeps Γ' frames (paramsLookups gs params) →
    Γ.resolveParams frames gs params = .ok ps → Γ'.resolveParams frames gs params = .ok ps
  | _, [] => fun _ _ h => h
  | gs, (_, type) :: params => by
    have iht := resolveType_of_keeps gs type
    have ihps := resolveParams_of_keeps gs params
    intro ps hkeeps h
    simp only [Context.resolveParams, bind_eq_ok] at h ⊢
    obtain ⟨t, ht, rest, hrest, h⟩ := h
    exact ⟨t, iht t hkeeps.left ht, rest, ihps rest hkeeps.right hrest, h⟩

end

end

namespace Binding

variable {names : List String} {table table' table'' known : Table}

/-! ## Tables that grow by aliases -/

/-- A table with more aliases, whose names are among `names`. -/
structure Completes (names : List String) (table table' : Table) : Prop where
  package : table'.package = table.package
  fileTypes : table'.fileTypes = table.fileTypes
  types : ∀ x symbol, table.types.lookup x = some symbol → table'.types.lookup x = some symbol
  others : ∀ x, x ∉ names → table'.types.lookup x = table.types.lookup x
  typeAliases : ∀ ref entry, table.typeAliases.lookup ref = some entry →
    table'.typeAliases.lookup ref = some entry

namespace Completes

theorem refl (table : Table) : Completes names table table :=
  ⟨rfl, rfl, fun _ _ h => h, fun _ _ => rfl, fun _ _ h => h⟩

/-- A patch for other maps changes nothing for types. -/
theorem patch (table : Table) {p : Table.Patch} (htypes : p.types = none)
    (hfileTypes : p.fileTypes = none) (hAliases : p.typeAliases = none) :
    Completes names table (table.patch p) := by
  refine ⟨rfl, ?_, ?_, ?_, ?_⟩ <;> simp [Table.patch, enter, htypes, hfileTypes, hAliases]

theorem trans (h : Completes names table table') (h' : Completes names table' table'') :
    Completes names table table'' :=
  ⟨h'.package.trans h.package, h'.fileTypes.trans h.fileTypes,
    fun x s hs => h'.types x s (h.types x s hs), fun x hx => (h'.others x hx).trans (h.others x hx),
    fun ref entry he => h'.typeAliases ref entry (h.typeAliases ref entry he)⟩

/-- A name that is no default type, or no alias, keeps what it refers to. -/
theorem keeps (h : Completes names table table') (file : String) (frames : Frames)
    {mentioned : List String}
    (hmentioned : ∀ x ∈ mentioned, x ∈ names → Context.defaultType? x = none) :
    (fileContext table file).Keeps (fileContext table' file) frames mentioned := by
  intro x hx symbol hsymbol
  simp only [Context.lookupType, fileContext, h.fileTypes] at hsymbol ⊢
  by_cases hgeneric : frames.hasGeneric x = true
  · simpa only [hgeneric, if_true] using hsymbol
  · simp only [hgeneric] at hsymbol ⊢
    cases hfile : table.fileTypes.lookup (file, x) with
    | some imported => simpa [hfile] using hsymbol
    | none =>
      cases htypes : table.types.lookup x with
      | some declared => simpa [hfile, htypes, h.types x declared htypes] using hsymbol
      | none =>
        simp only [hfile, htypes, Option.none_or] at hsymbol ⊢
        -- a default type, so the name is no alias and stays undeclared
        have hname : x ∉ names := fun hname => by simp [hmentioned x hx hname] at hsymbol
        rw [h.others x hname, htypes]
        exact hsymbol

theorem resolveAlias (h : Completes names table table') {site : AliasSite} {ty : Ty}
    (hsite : ∀ x ∈ site.typeAlias.type.lookups (site.typeAlias.generics.map (·.text)), x ∈ names →
      Context.defaultType? x = none)
    (hty : resolveAlias table site = .ok ty) : Binding.resolveAlias table' site = .ok ty :=
  resolveType_of_keeps _ _ _ (h.keeps site.file .initial hsite) hty

end Completes

/-- The table says what an alias stands for, where types are looked up and in its list of aliases. -/
def Stands (table : Table) (typeAlias : TypeAlias) (ty : Ty) : Prop :=
  table.types.lookup typeAlias.name.text = some (.synonym (typeAlias.generics.map (·.text)) ty) ∧
    table.typeAliases.lookup ⟨table.package, typeAlias.name.text⟩ =
      some (typeAlias.generics.map (·.text), ty)

theorem Stands.completes {typeAlias : TypeAlias} {ty : Ty} (h : Stands table typeAlias ty)
    (hc : Completes names table table') : Stands table' typeAlias ty :=
  ⟨hc.types _ _ h.1, by rw [hc.package]; exact hc.typeAliases _ _ h.2⟩

/-- Nothing is known of a name yet. -/
def Unused (table : Table) (name : String) : Prop :=
  table.types.lookup name = none ∧ table.typeAliases.lookup ⟨table.package, name⟩ = none

theorem completes_recordAlias {typeAlias : TypeAlias} {ty : Ty}
    (hname : typeAlias.name.text ∈ names) (hunused : Unused table typeAlias.name.text) :
    Completes names table (recordAlias table (typeAlias, ty)) where
  package := rfl
  fileTypes := rfl
  types x symbol h := by
    have hne : x ≠ typeAlias.name.text := by rintro rfl; simp [hunused.1] at h
    exact (lookup_put_of_ne hne _ _).trans h
  others x hx := by
    have hne : x ≠ typeAlias.name.text := by rintro rfl; exact hx hname
    exact lookup_put_of_ne hne _ _
  typeAliases ref entry h := by
    have hne : ref ≠ ⟨table.package, typeAlias.name.text⟩ := by rintro rfl; simp [hunused.2] at h
    exact (lookup_put_of_ne hne _ _).trans h

theorem stands_recordAlias (table : Table) (typeAlias : TypeAlias) (ty : Ty) :
    Stands (recordAlias table (typeAlias, ty)) typeAlias ty :=
  ⟨lookup_put_self _ _ _, lookup_put_self _ _ _⟩

theorem unused_recordAlias {resolved : TypeAlias × Ty} {x : String}
    (hne : x ≠ resolved.1.name.text) (h : Unused table x) : Unused (recordAlias table resolved) x := by
  refine ⟨(lookup_put_of_ne hne _ _).trans h.1, (lookup_put_of_ne (fun he => hne ?_) _ _).trans h.2⟩
  exact congrArg Ref.name he

/-! ## One round -/

theorem recordAliases : ∀ {resolved : List (TypeAlias × Ty)} {table : Table},
    resolved.Pairwise (fun r r' => r.1.name.text ≠ r'.1.name.text) →
    (∀ r ∈ resolved, r.1.name.text ∈ names ∧ Unused table r.1.name.text) →
    Completes names table (resolved.foldl recordAlias table) ∧
      ∀ r ∈ resolved, Stands (resolved.foldl recordAlias table) r.1 r.2
  | [], table, _, _ => ⟨.refl table, by simp⟩
  | (typeAlias, ty) :: resolved, table, hapart, hunused => by
    rw [List.pairwise_cons] at hapart
    rw [List.forall_mem_cons] at hunused
    obtain ⟨⟨hname, hfirst⟩, hrest⟩ := hunused
    have hstep : Completes names table (recordAlias table (typeAlias, ty)) :=
      completes_recordAlias hname hfirst
    obtain ⟨hcompletes, hstands⟩ := recordAliases hapart.2 fun r hr =>
      ⟨(hrest r hr).1, unused_recordAlias (hapart.1 r hr).symm (hrest r hr).2⟩
    rw [List.foldl_cons]
    refine ⟨hstep.trans hcompletes, List.forall_mem_cons.2 ⟨?_, hstands⟩⟩
    exact (stands_recordAlias table typeAlias ty).completes hcompletes

theorem unused_recordAliases {resolved : List (TypeAlias × Ty)} {x : String}
    (hne : ∀ r ∈ resolved, x ≠ r.1.name.text) (h : Unused table x) :
    Unused (resolved.foldl recordAlias table) x :=
  foldl_invariant (I := fun t => Unused t x) (fun _ r hr ht => unused_recordAlias (hne r hr) ht) h

/-- Each pending alias is resolved in a round, or is still pending. -/
theorem mem_resolved_or_unresolved (table : Table) {pending : List AliasSite} {site : AliasSite}
    (h : site ∈ pending) :
    (∃ ty, resolveAlias table site = .ok ty ∧
        (site.typeAlias, ty) ∈ resolvedAliases table pending) ∨
      site ∈ (unresolvedAliases table pending).map (·.1) := by
  cases hty : resolveAlias table site with
  | ok ty => exact Or.inl ⟨ty, rfl, List.mem_filterMap.2 ⟨site, h, by simp [hty]⟩⟩
  | error failure =>
    exact Or.inr (List.mem_map.2 ⟨(site, failure), List.mem_filterMap.2 ⟨site, h, by simp [hty]⟩, rfl⟩)

/-- No alias is both resolved in a round and left. -/
theorem ne_of_mem_unresolvedAliases {pending : List AliasSite} {unresolved : AliasSite × Failure}
    {resolved : TypeAlias × Ty} (hapart : pending.Pairwise AliasSite.Apart)
    (hu : unresolved ∈ unresolvedAliases table pending)
    (hr : resolved ∈ resolvedAliases table pending) :
    unresolved.1.typeAlias.name.text ≠ resolved.1.name.text := by
  obtain ⟨site, hsite, he, hty⟩ := exists_of_mem_resolvedAliases hr
  rw [he]
  intro hname
  have hnodup : (pending.map (·.typeAlias.name.text)).Nodup := List.pairwise_map.2 hapart
  have hsame := List.inj_on_of_nodup_map hnodup (mem_of_mem_unresolvedAliases hu) hsite hname
  obtain ⟨site', -, hfailed⟩ := List.mem_filterMap.1 hu
  split at hfailed <;> cases hfailed
  rename_i hfailure
  obtain rfl : site' = site := hsame
  rw [hty] at hfailure
  cases hfailure

theorem length_resolved_add_unresolved (table : Table) : ∀ pending : List AliasSite,
    (resolvedAliases table pending).length + (unresolvedAliases table pending).length =
      pending.length
  | [] => rfl
  | site :: pending => by
    have ih := length_resolved_add_unresolved table pending
    simp only [resolvedAliases, unresolvedAliases, List.filterMap_cons, List.length_cons] at ih ⊢
    cases resolveAlias table site <;> simp only [List.length_cons] <;> omega

/-! ## All rounds -/

/-- Each pending alias is resolved against a table that the last one completes, and never changed
after that. -/
theorem aliasRounds_stands : ∀ (rounds : Nat) {table table' : Table} {pending : List AliasSite},
    pending.length ≤ rounds → pending.Pairwise AliasSite.Apart →
    (∀ site ∈ pending, site.typeAlias.name.text ∈ names ∧ Unused table site.typeAlias.name.text) →
    aliasRounds rounds table pending = .ok table' →
    Completes names table table' ∧ ∀ site ∈ pending, ∃ known ty, Completes names known table' ∧
      resolveAlias known site = .ok ty ∧ Stands table' site.typeAlias ty
  | 0, table, _, pending, hlength, _, _, h => by
    cases h
    obtain rfl : pending = [] := List.length_eq_zero_iff.1 (by omega)
    exact ⟨.refl table, by simp⟩
  | rounds + 1, table, table', pending, hlength, hapart, hunused, h => by
    obtain ⟨hprogress, hrest⟩ := aliasRounds_succ_eq_ok_iff.1 h
    have hfree : ∀ r ∈ resolvedAliases table pending,
        r.1.name.text ∈ names ∧ Unused table r.1.name.text := by
      intro r hr
      obtain ⟨site, hsite, he, -⟩ := exists_of_mem_resolvedAliases hr
      rw [he]
      exact hunused site hsite
    obtain ⟨hround, hrecorded⟩ := recordAliases (apart_resolvedAliases hapart) hfree
    -- a round resolves an alias or is the last one, so there are rounds enough
    have hshorter : ((unresolvedAliases table pending).map (·.1)).length ≤ rounds := by
      have hsum := length_resolved_add_unresolved table pending
      rw [List.length_map]
      cases hresolved : resolvedAliases table pending with
      | nil => rw [hprogress hresolved]; exact Nat.zero_le _
      | cons _ _ => simp only [hresolved, List.length_cons] at hsum; omega
    have hleft : ∀ site ∈ (unresolvedAliases table pending).map (·.1),
        site.typeAlias.name.text ∈ names ∧
          Unused ((resolvedAliases table pending).foldl recordAlias table)
            site.typeAlias.name.text := by
      intro site hsite
      obtain ⟨unresolved, hmem, rfl⟩ := List.mem_map.1 hsite
      obtain ⟨hname, hfree⟩ := hunused _ (mem_of_mem_unresolvedAliases hmem)
      exact ⟨hname, unused_recordAliases (fun r hr => ne_of_mem_unresolvedAliases hapart hmem hr) hfree⟩
    obtain ⟨hcompletes, hstands⟩ :=
      aliasRounds_stands rounds hshorter (apart_unresolvedAliases hapart) hleft hrest
    refine ⟨hround.trans hcompletes, fun site hsite => ?_⟩
    rcases mem_resolved_or_unresolved table hsite with ⟨ty, hty, hmem⟩ | hmem
    · exact ⟨table, ty, hround.trans hcompletes, hty, (hrecorded _ hmem).completes hcompletes⟩
    · exact hstands site hmem

/-! ## The whole package -/

/-- Structs, interfaces and imports leave the names of aliases unused. -/
theorem unused_imported {files : List SourceFile} {aliasNames : List String}
    {declared imported : Table}
    (hdeclared : (recordSites files).foldlM declareRecord (.empty (packageName files)) = .ok declared)
    (hnames : (aliasSites files).foldlM (declareAlias declared) [] = .ok aliasNames)
    (himported : files.foldlM (bindFileImports aliasNames) declared = .ok imported) :
    ∀ site ∈ aliasSites files, Unused imported site.typeAlias.name.text := by
  have hnone : declared.typeAliases = [] := by
    refine foldlM_invariant (I := fun t => t.typeAliases = []) (fun t site _ t' ht hsite => ?_) rfl
      hdeclared
    rw [(declareRecord_eq_ok hsite).2]
    exact ht
  have hsame : imported.types = declared.types ∧ imported.typeAliases = [] := by
    rw [foldlM_bindFileImports] at himported
    refine foldlM_invariant (I := fun t => t.types = declared.types ∧ t.typeAliases = [])
      (fun t site _ t' ht hsite => ?_) ⟨rfl, hnone⟩ himported
    obtain ⟨⟨target, item, htarget, hitem, -⟩, rfl⟩ := bindImport_eq_ok_iff.1 hsite
    simp only [importSitePatch, htarget, hitem]
    cases item <;> exact ht
  intro site hsite
  have hnew := (declareAliases_eq_ok_iff.1 hnames).2.1 site hsite
  simp only [Table.hasPackageName, hasKey, Bool.or_eq_false_iff, Option.isSome_eq_false_iff,
    Option.isNone_iff_eq_none] at hnew
  exact ⟨hsame.1 ▸ hnew.1, by rw [hsame.2]; rfl⟩

theorem completes_bindRecords {sites : List RecordSite} (h : bindRecords table sites = .ok table') :
    Completes names table table' :=
  bindRecords_invariant (I := Completes names table)
    (fun _ _ _ t record _ ht _ => ht.trans (by
      rw [recordType_eq_patch]
      exact .patch t rfl rfl rfl)) (.refl table) h

theorem completes_recordSlots (table : Table) (slots : List Slot) :
    Completes names table (recordSlots table slots) := by
  obtain ⟨values, h⟩ := recordSlots_values table slots
  rw [h]
  exact ⟨rfl, rfl, fun _ _ h => h, fun _ _ => rfl, fun _ _ h => h⟩

theorem completes_inferenceRounds : ∀ (rounds : Nat) (table : Table) (slots : List Slot),
    Completes names table (inferenceRounds rounds table slots).1
  | 0, table, _ => .refl table
  | rounds + 1, table, slots => by
    simp only [inferenceRounds]
    split
    · exact (completes_recordSlots table _).trans (completes_inferenceRounds rounds _ _)
    · exact .refl table

theorem completes_bindDeclarations {aliasNames : List String} {files : List SourceFile}
    {declarations : List BoundDeclaration}
    (h : bindDeclarations table aliasNames files = .ok (table', declarations)) :
    Completes names table table' := by
  rw [bindDeclarations, bind_eq_ok] at h
  obtain ⟨slots, -, h⟩ := h
  cases h
  exact (completes_recordSlots table _).trans (completes_inferenceRounds _ _ _)

end Binding

open Binding

/-- **A type name means one thing.** Every type alias of a package stands for one type, in the table
and in its list of aliases. What is written for the alias is resolved to this type also in the table
at the end, unless it mentions an alias of the package that is called like a default type. -/
theorem Bound.ofFiles_alias_resolves {files : List SourceFile} {bound : Bound}
    (h : Bound.ofFiles files = .ok bound) {site : AliasSite} (hsite : site ∈ aliasSites files) :
    ∃ ty, Stands bound.table site.typeAlias ty ∧
      ((∀ x ∈ site.typeAlias.type.lookups (site.typeAlias.generics.map (·.text)),
          x ∈ (aliasSites files).map (·.typeAlias.name.text) → Context.defaultType? x = none) →
        resolveAlias bound.table site = .ok ty) := by
  obtain ⟨table, aliasNames, htypes, hdeclarations⟩ := Bound.ofFiles_eq_ok.1 h
  simp only [bindTypes, bind_eq_ok] at htypes
  obtain ⟨_, -, declared, hdeclared, names, hnames, imported, himported, aliased, haliased, recorded,
    hrecorded, htypes⟩ := htypes
  cases htypes
  have hunused : ∀ site ∈ aliasSites files,
      site.typeAlias.name.text ∈ (aliasSites files).map (·.typeAlias.name.text) ∧
        Unused imported site.typeAlias.name.text := fun site hsite =>
    ⟨List.mem_map.2 ⟨site, hsite, rfl⟩, unused_imported hdeclared hnames himported site hsite⟩
  obtain ⟨-, hstands⟩ := aliasRounds_stands _ (Nat.le_refl _) (declareAliases_eq_ok_iff.1 hnames).1
    hunused haliased
  obtain ⟨known, ty, hknown, hty, hstand⟩ := hstands site hsite
  have hlast : Completes ((aliasSites files).map (·.typeAlias.name.text)) aliased bound.table :=
    (completes_bindRecords hrecorded).trans (completes_bindDeclarations hdeclarations)
  exact ⟨ty, hstand.completes hlast, fun hlookups => (hknown.trans hlast).resolveAlias hlookups hty⟩

/-! ## Aliases in any order, and an alias called like a default type -/

section

/-- `alias Rows<T> = List<Row<T>>`, `alias Row<T> = Cell | T` and `alias Cell = String`, each of which
needs the next one. -/
def rowsFile : SourceFile :=
  ⟨"rows", ⟨⟨[.plain "main"], .zero⟩, [],
    [.typeAlias (.plain "Rows" ["T"] (.named "List" [.named "Row" [.named "T" []]])),
      .typeAlias (.plain "Row" ["T"] (.oneOf [.named "Cell" [], .named "T" []])),
      .typeAlias (.plain "Cell" [] (.named "String" []))]⟩⟩

def rowsSite : AliasSite :=
  ⟨"rows", .plain "Rows" ["T"] (.named "List" [.named "Row" [.named "T" []]])⟩

theorem ofFiles_alias_resolves_rows :
    ∃ bound, Bound.ofFiles [rowsFile] = .ok bound ∧
      ∃ ty, Stands bound.table rowsSite.typeAlias ty ∧ resolveAlias bound.table rowsSite = .ok ty := by
  obtain ⟨bound, hbound⟩ : ∃ bound, Bound.ofFiles [rowsFile] = .ok bound :=
    ⟨_, by with_unfolding_all rfl⟩
  have hsite : rowsSite ∈ aliasSites [rowsFile] := List.mem_cons_self
  obtain ⟨ty, hstands, hresolves⟩ := Bound.ofFiles_alias_resolves hbound hsite
  exact ⟨bound, hbound, ty, hstands, hresolves (by decide)⟩

/-- `alias Int = String` and `alias X = Int`. -/
def shadowFile : SourceFile :=
  ⟨"shadow", ⟨⟨[.plain "main"], .zero⟩, [],
    [.typeAlias (.plain "Int" [] (.named "String" [])),
      .typeAlias (.plain "X" [] (.named "Int" []))]⟩⟩

/-- Both aliases are resolved in the first round, when `Int` is still the default type. -/
theorem ofFiles_alias_depends_on_round :
    ∃ bound, Bound.ofFiles [shadowFile] = .ok bound ∧
      Stands bound.table (.plain "X" [] (.named "Int" [])) .int ∧
      resolveAlias bound.table ⟨"shadow", .plain "X" [] (.named "Int" [])⟩ = .ok .string ∧
      Ty.equal .string .int = false :=
  ⟨_, by with_unfolding_all rfl, ⟨by with_unfolding_all rfl, by with_unfolding_all rfl⟩,
    by with_unfolding_all rfl, by decide⟩

end

end UnionChecker
