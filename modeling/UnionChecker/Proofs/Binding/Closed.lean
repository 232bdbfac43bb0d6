import UnionChecker.Proofs.Binding.Records
import UnionChecker.Proofs.Check.TypeInvariant
/-!
# Tables without dangling generics

In a closed table, aliases and fields mention no generics but their own, and package values mention
none. Written types then mention only generics in scope (`scoped_resolveType`), and so every step of
binding up to the declarations keeps the table closed (`closed_bindRecords`).

Field types are found by the name of the record. This asks that the declared types of a package are
told apart by their names (`Declares`), which holds when the package has a name of its own.
-/

namespace UnionChecker

open Syntax

/-- The declared types of a package: the built-in ones, the records of the standard library and
others, each known by its name. -/
structure Declares (known : Nominal → Prop) : Prop where
  builtin : ∀ t ∈ Library.defaultTypes, known t.1
  library : ∀ ref record, Library.lookup ref = some (.record record) → known record.decl
  unique : ∀ {d d' : Nominal}, known d → known d' → d.ref = d'.ref → d = d'

/-- What a symbol stands for has no generics but its own. -/
def TypeSymbol.Closed (known : Nominal → Prop) : TypeSymbol → Prop
  | .named decl _ => known decl
  | .synonym generics ty => Ty.Scoped known generics ty
  | .generic => False

/-- Nothing in the table mentions a generic that is not bound. -/
structure Table.Closed (known : Nominal → Prop) (table : Table) : Prop where
  types : ∀ entry ∈ table.types, entry.2.Closed known
  fileTypes : ∀ entry ∈ table.fileTypes, entry.2.Closed known
  values : ∀ entry ∈ table.values, Ty.Scoped known [] entry.2
  fileValues : ∀ entry ∈ table.fileValues, Ty.Scoped known [] entry.2.type
  fields : ∀ entry ∈ table.fields, ∃ decl, known decl ∧ decl.ref = entry.1 ∧
    ∀ field ∈ entry.2, Ty.Scoped known decl.formals field.2

section

variable {known : Nominal → Prop} {Γ : Context} {frames : Frames} {gs : List String} {t : Ty}

/-! ## Written types -/

theorem mem_scope_of_hasGeneric {name : String} (h : frames.hasGeneric name = true) :
    name ∈ Check.scope frames := by
  obtain ⟨frame, hframe, hname⟩ := List.any_eq_true.1 h
  exact List.mem_flatMap.2 ⟨frame, hframe, List.contains_iff_mem.1 hname⟩

theorem lookupType_closed {name : String} {symbol : TypeSymbol} (hd : Declares known)
    (hΓ : Γ.table.Closed known) (h : Γ.lookupType frames name = some symbol) :
    (symbol = .generic ∧ name ∈ Check.scope frames) ∨ symbol.Closed known := by
  unfold Context.lookupType at h
  split at h
  · rename_i hgeneric
    cases h
    exact Or.inl ⟨rfl, mem_scope_of_hasGeneric hgeneric⟩
  · right
    rcases Option.or_eq_some_iff.1 h with h | ⟨-, h⟩
    · exact hΓ.fileTypes _ (mem_of_lookup_eq_some h)
    rcases Option.or_eq_some_iff.1 h with h | ⟨-, h⟩
    · exact hΓ.types _ (mem_of_lookup_eq_some h)
    · obtain ⟨t, ht, rfl⟩ := Option.map_eq_some_iff.1 h
      exact hd.builtin t (List.mem_of_find?_eq_some ht)

theorem scoped_genericAt {name : Name} {args : List Ty} (h : Γ.genericAt name args = .ok t)
    (hname : name.text ∈ gs) : Ty.Scoped known gs t := by
  unfold Context.genericAt at h
  split at h <;> cases h
  exact .var hname

theorem scoped_typeAt {name : Name} {args : List Ty} (hd : Declares known)
    (hΓ : Γ.table.Closed known)
    (hargs : ∀ t ∈ args, Ty.Scoped known (gs ++ Check.scope frames) t)
    (h : Γ.typeAt frames gs name args = .ok t) :
    Ty.Scoped known (gs ++ Check.scope frames) t := by
  unfold Context.typeAt at h
  split at h
  · rename_i hgs
    exact scoped_genericAt h (List.mem_append_left _ (List.contains_iff_mem.1 hgs))
  split at h
  · cases h
  · rename_i hsymbol
    rcases lookupType_closed hd hΓ hsymbol with ⟨-, hscope⟩ | hclosed
    · exact scoped_genericAt h (List.mem_append_right _ hscope)
    · exact hclosed.elim
  · rename_i decl _ hsymbol
    have hdecl : known decl := (lookupType_closed hd hΓ hsymbol).resolve_left (by simp)
    split at h <;> cases h
    rename_i hlen
    exact .named hdecl (beq_iff_eq.1 hlen).symm hargs
  · rename_i formals ty hsymbol
    have hty : Ty.Scoped known formals ty := (lookupType_closed hd hΓ hsymbol).resolve_left (by simp)
    split at h <;> cases h
    rename_i hlen
    exact (hty.mono fun x hx => List.mem_append_left _ hx).resolve_ofLists (beq_iff_eq.1 hlen) hargs

section

set_option linter.unusedSectionVars false

variable (hd : Declares known) (hΓ : Γ.table.Closed known)
include hd hΓ

mutual

/-- **A written type mentions only generics in scope.** -/
theorem scoped_resolveType : ∀ (type : TypeExpr) {gs : List String} {t : Ty},
    Γ.resolveType frames gs type = .ok t → Ty.Scoped known (gs ++ Check.scope frames) t
  | ⟨alternatives, _⟩, gs, t, h => by
    rw [Context.resolveType, map_eq_ok] at h
    obtain ⟨ts, hts, rfl⟩ := h
    exact Ty.scoped_join (scoped_resolveAlternatives alternatives hts)

theorem scoped_resolveAlternative : ∀ (a : Alternative) {gs : List String} {t : Ty},
    Γ.resolveAlternative frames gs a = .ok t → Ty.Scoped known (gs ++ Check.scope frames) t
  | .hole _, _, _, h => by cases h
  | .named name args, gs, t, h => by
    rw [Context.resolveAlternative, bind_eq_ok] at h
    obtain ⟨ts, hts, h⟩ := h
    exact scoped_typeAt hd hΓ (scoped_resolveTypes args hts) h
  | .fn bound params result _, gs, t, h => by
    simp only [Context.resolveAlternative, bind_eq_ok] at h
    obtain ⟨ps, hps, r, hr, h⟩ := h
    cases h
    have hinner : ∀ x ∈ (gs ++ bound.map (·.text)) ++ Check.scope frames,
        x ∈ bound.map (·.text) ++ (gs ++ Check.scope frames) := by
      simp only [List.mem_append]
      rintro x ((hx | hx) | hx)
      · exact Or.inr (Or.inl hx)
      · exact Or.inl hx
      · exact Or.inr (Or.inr hx)
    exact .fn (fun p hp => (scoped_resolveParams params hps p hp).mono hinner)
      ((scoped_resolveType result hr).mono hinner)

theorem scoped_resolveAlternatives : ∀ (as : List Alternative) {gs : List String} {ts : List Ty},
    Γ.resolveAlternatives frames gs as = .ok ts →
    ∀ t ∈ ts, Ty.Scoped known (gs ++ Check.scope frames) t
  | [], _, _, h => by cases h; simp
  | a :: as, gs, ts, h => by
    simp only [Context.resolveAlternatives, bind_eq_ok] at h
    obtain ⟨first, hfirst, rest, hrest, h⟩ := h
    cases h
    exact List.forall_mem_cons.2 ⟨scoped_resolveAlternative a hfirst,
      scoped_resolveAlternatives as hrest⟩

theorem scoped_resolveTypes : ∀ (types : List TypeExpr) {gs : List String} {ts : List Ty},
    Γ.resolveTypes frames gs types = .ok ts →
    ∀ t ∈ ts, Ty.Scoped known (gs ++ Check.scope frames) t
  | [], _, _, h => by cases h; simp
  | type :: types, gs, ts, h => by
    simp only [Context.resolveTypes, bind_eq_ok] at h
    obtain ⟨first, hfirst, rest, hrest, h⟩ := h
    cases h
    exact List.forall_mem_cons.2 ⟨scoped_resolveType type hfirst,
      scoped_resolveTypes types hrest⟩

theorem scoped_resolveParams : ∀ (params : List (Option Name × TypeExpr)) {gs : List String}
    {ps : List (String × Ty)}, Γ.resolveParams frames gs params = .ok ps →
    ∀ p ∈ ps, Ty.Scoped known (gs ++ Check.scope frames) p.2
  | [], _, _, h => by cases h; simp
  | (_, type) :: params, gs, ps, h => by
    simp only [Context.resolveParams, bind_eq_ok] at h
    obtain ⟨first, hfirst, rest, hrest, h⟩ := h
    cases h
    exact List.forall_mem_cons.2 ⟨scoped_resolveType type hfirst,
      scoped_resolveParams params hrest⟩

end

end

/-- At package level only the generics of the construct itself are in scope. -/
theorem scoped_resolveType_initial {type : TypeExpr} (hd : Declares known)
    (hΓ : Γ.table.Closed known) (h : Γ.resolveType .initial gs type = .ok t) :
    Ty.Scoped known gs t :=
  (scoped_resolveType hd hΓ type h).mono (by simp [Check.scope, Frames.initial])

/-! ## The standard library -/

/-- The generics of an item are its own. -/
def LibraryItem.Closed (known : Nominal → Prop) : LibraryItem → Prop
  | .function signature => Ty.Scoped known [] signature.toTy
  | .record r => ∀ field ∈ r.fields, Ty.Scoped known r.decl.formals field.2

theorem library_closed {ref : Ref} {item : LibraryItem} (hd : Declares known)
    (h : Library.lookup ref = some item) : item.Closed known := by
  have hbuiltin := hd.builtin
  have hassert := hd.library ⟨"tenecs.test", "Assert"⟩ _ rfl
  have hkit := hd.library ⟨"tenecs.test", "UnitTestKit"⟩ _ rfl
  have htest := hd.library ⟨"tenecs.test", "UnitTest"⟩ _ rfl
  have hregistry := hd.library ⟨"tenecs.test", "UnitTestRegistry"⟩ _ rfl
  have hconsole := hd.library ⟨"tenecs.go", "Console"⟩ _ rfl
  have hruntime := hd.library ⟨"tenecs.go", "Runtime"⟩ _ rfl
  simp only [Library.defaultTypes, List.forall_mem_cons] at hbuiltin
  have hall : ∀ item ∈ Library.items, item.2.Closed known := by
    simp only [Library.items, Library.records, Library.functions, List.forall_mem_append,
      List.forall_mem_cons, Library.record, Library.function, LibraryItem.Closed, Library.fnType,
      Library.interface, Signature.toTy, Ty.string, Ty.int, Ty.boolean, Ty.void, Ty.list, Ty.builtin,
      Ty.scoped_fn, Ty.scoped_named]
    simp [*]
  exact hall _ (mem_of_lookup_eq_some h)

/-- The constructor of a record is closed when its fields mention only the generics of the record. -/
theorem scoped_constructor {record : RecordType} (hdecl : known record.decl)
    (h : ∀ field ∈ record.fields, Ty.Scoped known record.decl.formals field.2) :
    Ty.Scoped known [] record.constructor.toTy := by
  refine .fn (fun p hp => (h p hp).mono (by simp [RecordType.constructor])) ?_
  refine .named hdecl (by simp) (List.forall_mem_map.2 fun x hx => .var ?_)
  exact List.mem_append_left _ hx

/-! ## Fields -/

theorem scoped_fieldsOf {table : Table} {decl : Nominal} {args : List Ty}
    {fields : List (String × Ty)} (hd : Declares known) (ht : table.Closed known)
    (h : Ty.Scoped known gs (.named decl args)) (hf : table.fieldsOf decl args = some fields) :
    ∀ field ∈ fields, Ty.Scoped known gs field.2 := by
  obtain ⟨hdecl, hlen, hargs⟩ := Ty.scoped_named.1 h
  -- the fields are those of `decl` itself, since nothing else has its name
  have hown : ∀ {declared : List (String × Ty)} {owner : Nominal}, known owner →
      owner.ref = decl.ref → (∀ field ∈ declared, Ty.Scoped known owner.formals field.2) →
      ∀ field ∈ declared.map fun field => (field.1, field.2.resolve (.ofLists decl.formals args)),
        Ty.Scoped known gs field.2 := by
    intro declared owner howner href hdeclared
    obtain rfl := hd.unique howner hdecl href
    refine List.forall_mem_map.2 fun field hfield => ?_
    exact ((hdeclared field hfield).mono fun x hx => List.mem_append_left _ hx).resolve_ofLists
      hlen.symm hargs
  simp only [Table.fieldsOf, Option.bind_eq_bind, Option.bind_eq_some_iff] at hf
  obtain ⟨declared, hdeclared, hf⟩ := hf
  cases hf
  split at hdeclared
  · rename_i hlookup
    cases hdeclared
    obtain ⟨owner, howner, href, hscoped⟩ := ht.fields _ (mem_of_lookup_eq_some hlookup)
    exact hown howner href hscoped
  · split at hdeclared <;> cases hdeclared
    rename_i record hlookup
    exact hown (hd.library _ _ hlookup) (Binding.library_ref hlookup) (library_closed hd hlookup)

/-! ## Steps of binding -/

theorem forall_mem_put {κ α : Type} [BEq κ] {P : κ × α → Prop} {key : κ} {value : α}
    {entries : List (κ × α)} (h : P (key, value)) (hentries : ∀ entry ∈ entries, P entry) :
    ∀ entry ∈ put key value entries, P entry :=
  List.forall_mem_cons.2 ⟨h, fun entry hentry => hentries entry (List.mem_filter.1 hentry).1⟩

namespace Binding

variable {table table' : Table}

theorem closed_declareRecord {site : RecordSite} (ht : table.Closed known)
    (hsite : known (site.nominal table.package)) (h : declareRecord table site = .ok table') :
    table'.Closed known ∧ table'.package = table.package := by
  obtain ⟨-, rfl⟩ := declareRecord_eq_ok h
  exact ⟨{ ht with types := forall_mem_put hsite ht.types }, rfl⟩

theorem closed_recordFields {record : RecordType} (ht : table.Closed known)
    (hdecl : known record.decl)
    (h : ∀ field ∈ record.fields, Ty.Scoped known record.decl.formals field.2) :
    (recordFields table record.decl record.fields).Closed known ∧
      (recordFields table record.decl record.fields).package = table.package := by
  have hfields := forall_mem_put (P := fun entry : Ref × List (String × Ty) =>
    ∃ decl, known decl ∧ decl.ref = entry.1 ∧ ∀ field ∈ entry.2, Ty.Scoped known decl.formals field.2)
    ⟨record.decl, hdecl, rfl, h⟩ ht.fields
  unfold recordFields
  split
  · exact ⟨{ ht with fields := hfields }, rfl⟩
  · exact ⟨{ ht with fields := hfields }, rfl⟩

theorem closed_importValue {file : String} {target : ImportTarget} {signature : Signature}
    (ht : table.Closed known) (hs : Ty.Scoped known [] signature.toTy)
    (h : importValue table file target signature = some table') :
    table'.Closed known ∧ table'.package = table.package := by
  obtain rfl := importValue_eq_some h
  exact ⟨{ ht with fileValues := forall_mem_put hs ht.fileValues }, rfl⟩

theorem closed_defineFileType {file name : String} {symbol : TypeSymbol} (ht : table.Closed known)
    (h : table.defineFileType file name symbol = some table') (hs : symbol.Closed known) :
    table'.Closed known ∧ table'.package = table.package := by
  obtain rfl := defineFileType_eq_some h
  exact ⟨{ ht with fileTypes := forall_mem_put hs ht.fileTypes }, rfl⟩

theorem closed_importItem {file : String} {target : ImportTarget} {item : LibraryItem}
    (hd : Declares known) (ht : table.Closed known) (hitem : Library.lookup target.ref = some item)
    (h : importItem table file target item = some table') :
    table'.Closed known ∧ table'.package = table.package := by
  have hclosed := library_closed hd hitem
  cases item with
  | function signature => exact closed_importValue ht hclosed h
  | record record =>
    have hdecl := hd.library _ _ hitem
    obtain ⟨typed, valued, htype, hvalue, rfl⟩ := importRecord_eq_some h
    obtain ⟨ht, hp⟩ := closed_defineFileType ht htype hdecl
    obtain ⟨ht', hp'⟩ := closed_importValue ht (scoped_constructor hdecl hclosed) hvalue
    obtain ⟨ht'', hp''⟩ := closed_recordFields ht' hdecl hclosed
    exact ⟨ht'', hp''.trans (hp'.trans hp)⟩

theorem closed_bindImport {aliasNames : List String} {file : String} {i : Import}
    (hd : Declares known) (ht : table.Closed known)
    (h : bindImport aliasNames file table i = .ok table') :
    table'.Closed known ∧ table'.package = table.package := by
  obtain ⟨target, item, _, hitem, himport⟩ := bindImport_eq_ok h
  exact closed_importItem hd ht hitem himport

/-! ### Aliases -/

theorem closed_recordAlias {resolved : TypeAlias × Ty} (ht : table.Closed known)
    (h : Ty.Scoped known (resolved.1.generics.map (·.text)) resolved.2) :
    (recordAlias table resolved).Closed known :=
  { ht with types := forall_mem_put h ht.types }

theorem scoped_resolvedAliases {pending : List AliasSite} {resolved : TypeAlias × Ty}
    (hd : Declares known) (ht : table.Closed known)
    (h : resolved ∈ resolvedAliases table pending) :
    Ty.Scoped known (resolved.1.generics.map (·.text)) resolved.2 := by
  obtain ⟨site, -, hsite⟩ := List.mem_filterMap.1 h
  split at hsite
  · rename_i hty
    cases hsite
    exact scoped_resolveType_initial hd ht hty
  · cases hsite

theorem closed_aliasRounds (hd : Declares known) : ∀ (rounds : Nat) {table table' : Table}
    {pending : List AliasSite}, table.Closed known →
    aliasRounds rounds table pending = .ok table' → table'.Closed known
  | 0, table, table', pending, ht, h => by cases h; exact ht
  | rounds + 1, table, table', pending, ht, h => by
    simp only [aliasRounds] at h
    split at h
    · cases h
    · refine closed_aliasRounds hd rounds ?_ h
      exact foldl_invariant (I := fun t : Table => t.Closed known) (fun t resolved hresolved ht' =>
        closed_recordAlias ht' (scoped_resolvedAliases hd ht hresolved)) ht

/-! ### Records -/

theorem resolveRecord_scoped {site : RecordSite} {record : RecordType} (hd : Declares known)
    (ht : table.Closed known) (h : resolveRecord table site = .ok record) :
    record.decl = site.nominal table.package ∧
      ∀ field ∈ record.fields, Ty.Scoped known record.decl.formals field.2 := by
  obtain ⟨-, fields, hfields, rfl⟩ := resolveRecord_eq_ok h
  refine ⟨rfl, fun field hfield => ?_⟩
  obtain ⟨_, -, -, hty, -⟩ := forall₂_mem_right (forall₂_resolveFields hfields) hfield
  exact scoped_resolveType_initial hd ht hty

theorem closed_recordType {record : RecordType} (ht : table.Closed known)
    (hdecl : known record.decl)
    (h : ∀ field ∈ record.fields, Ty.Scoped known record.decl.formals field.2) :
    (recordType table record).Closed known := by
  have hfields := (closed_recordFields ht hdecl h).1
  exact { hfields with values := forall_mem_put (scoped_constructor hdecl h) hfields.values }

theorem closed_bindRecords {sites : List RecordSite} (hd : Declares known)
    (ht : table.Closed known) (hsites : ∀ site ∈ sites, known (site.nominal table.package))
    (h : bindRecords table sites = .ok table') : table'.Closed known := by
  rw [bindRecords, bind_eq_ok] at h
  obtain ⟨records, hrecords, h⟩ := h
  cases h
  refine foldl_invariant (I := fun t : Table => t.Closed known) (fun t record hrecord ht' => ?_) ht
  obtain ⟨site, hsite, hresolve⟩ := exists_of_mem_mapM hrecords record hrecord
  obtain ⟨hdecl, hfields⟩ := resolveRecord_scoped hd ht hresolve
  exact closed_recordType ht' (hdecl ▸ hsites site hsite) hfields

/-! ### All steps before the declarations -/

/-- The declared types of a package with given structs and interfaces. -/
inductive Known (package : String) (sites : List RecordSite) : Nominal → Prop
  | builtin {t : Nominal × List Ty} (h : t ∈ Library.defaultTypes) : Known package sites t.1
  | library {ref : Ref} {record : RecordType} (h : Library.lookup ref = some (.record record)) :
      Known package sites record.decl
  | own {site : RecordSite} (h : site ∈ sites) : Known package sites (site.nominal package)

theorem names_nodup_of_declareRecord : ∀ {sites : List RecordSite} {table table' : Table},
    sites.foldlM declareRecord table = .ok table' →
      (sites.map (·.record.name.text)).Nodup ∧
        ∀ site ∈ sites, hasKey site.record.name.text table.types = false
  | [], _, _, _ => by simp
  | site :: sites, table, table', h => by
    rw [List.foldlM_cons, bind_eq_ok] at h
    obtain ⟨t, hsite, h⟩ := h
    obtain ⟨hnd, hnew⟩ := names_nodup_of_declareRecord h
    obtain ⟨hfresh, rfl⟩ := declareRecord_eq_ok hsite
    -- what is declared after this one has a name that is new then
    have hother : ∀ s ∈ sites, s.record.name.text ≠ site.record.name.text ∧
        hasKey s.record.name.text table.types = false := by
      intro s hs
      have hs := hnew s hs
      by_cases hname : s.record.name.text = site.record.name.text
      · rw [hname, hasKey, lookup_put_self] at hs
        cases hs
      · rw [hasKey, lookup_put_of_ne hname] at hs
        exact ⟨hname, hs⟩
    refine ⟨List.nodup_cons.2 ⟨fun hmem => ?_, hnd⟩,
      List.forall_mem_cons.2 ⟨hfresh, fun s hs => (hother s hs).2⟩⟩
    obtain ⟨s, hs, hname⟩ := List.mem_map.1 hmem
    exact (hother s hs).1 hname

theorem declares_known {package : String} {sites : List RecordSite} (hp : package ≠ "")
    (hl : Library.hasPackage package = false)
    (hnd : (sites.map (·.record.name.text)).Nodup) : Declares (Known package sites) := by
  refine ⟨fun t => .builtin, fun ref record => .library, fun {d d'} hd hd' href => ?_⟩
  -- the three kinds of declarations are told apart by their packages
  have hbuiltin : ∀ t ∈ Library.defaultTypes, t.1.ref.package = "" := by decide
  have hlibrary : ∀ {ref : Ref} {record : RecordType},
      Library.lookup ref = some (.record record) → record.decl.ref.package ≠ package := by
    intro ref record h he
    rw [library_ref h] at he
    have hall := List.any_eq_false.1 hl _ (mem_of_lookup_eq_some h)
    simp [he] at hall
  cases hd with
  | builtin h =>
    cases hd' with
    | builtin h' =>
      have hinj : ∀ t ∈ Library.defaultTypes, ∀ t' ∈ Library.defaultTypes,
          t.1.ref = t'.1.ref → t.1 = t'.1 := by decide
      exact hinj _ h _ h' href
    | library h' => exact absurd (href ▸ hbuiltin _ h) (library_ref h' ▸ library_package_ne h')
    | own h' => exact absurd (hbuiltin _ h) (href ▸ hp)
  | library h =>
    cases hd' with
    | builtin h' => exact absurd (href ▸ hbuiltin _ h') (library_ref h ▸ library_package_ne h)
    | library h' =>
      rw [library_ref h, library_ref h'] at href
      subst href
      cases h.symm.trans h'
      rfl
    | own h' => exact absurd (congrArg Ref.package href) (hlibrary h)
  | own h =>
    cases hd' with
    | builtin h' => exact absurd (hbuiltin _ h') (href ▸ hp)
    | library h' => exact absurd (congrArg Ref.package href.symm) (hlibrary h')
    | own h' =>
      have hname := congrArg Ref.name href
      rw [List.inj_on_of_nodup_map hnd h h' hname]

end Binding

/-- Before its declarations are looked at, a package with a name of its own has a closed table. -/
theorem Bound.exists_closed {files : List SourceFile} {bound : Bound}
    (h : Bound.ofFiles files = .ok bound) (hp : Binding.packageName files ≠ "")
    (hl : Library.hasPackage (Binding.packageName files) = false) :
    ∃ (known : Nominal → Prop) (table : Table) (aliasNames : List String), Declares known ∧
      table.Closed known ∧
      Binding.bindDeclarations table aliasNames files = .ok (bound.table, bound.declarations) := by
  simp only [Bound.ofFiles, bind_eq_ok] at h
  obtain ⟨_, -, declared, hdeclared, aliasNames, -, imported, himported, aliased, haliased, recorded,
    hrecorded, ⟨final, declarations⟩, hfinal, h⟩ := h
  cases h
  let known := Binding.Known (Binding.packageName files) (Binding.recordSites files)
  have hd : Declares known :=
    Binding.declares_known hp hl (Binding.names_nodup_of_declareRecord hdeclared).1
  let Closed := fun t : Table => t.Closed known ∧ t.package = Binding.packageName files
  have h0 : Closed declared := by
    refine foldlM_invariant (I := Closed) (fun t site hsite t' ht hd => ?_) ?_ hdeclared
    · obtain ⟨hc, hp⟩ := Binding.closed_declareRecord ht.1 (ht.2 ▸ .own hsite) hd
      exact ⟨hc, hp.trans ht.2⟩
    · exact ⟨⟨by simp [Table.empty], by simp [Table.empty], by simp [Table.empty],
        by simp [Table.empty], by simp [Table.empty]⟩, rfl⟩
  have h1 : Closed imported := by
    refine foldlM_invariant (I := Closed) (fun _ file _ _ ht hfile => ?_) h0 himported
    refine foldlM_invariant (I := Closed) (fun _ _ _ _ ht hi => ?_) ht hfile
    obtain ⟨hc, hp⟩ := Binding.closed_bindImport hd ht.1 hi
    exact ⟨hc, hp.trans ht.2⟩
  have h2 := Binding.closed_aliasRounds hd _ h1.1 haliased
  have hpackage : aliased.package = Binding.packageName files :=
    (Binding.sameRecords_aliasRounds _ haliased).package.trans h1.2
  exact ⟨known, recorded, aliasNames, hd, Binding.closed_bindRecords hd h2
    (fun site hsite => hpackage ▸ .own hsite) hrecorded, hfinal⟩

end

end UnionChecker
