import UnionChecker.Proofs.Binding.Closed
import UnionChecker.Proofs.Binding.Types
import UnionChecker.Proofs.Syntax.Names
import UnionChecker.Proofs.Ty.Hereditary
/-!
# Hereditary properties of all types of a table

A hereditary property that holds of the types in a table holds of every type that is written against
it. So it goes through binding, step by step, up to the types of declarations.
-/

namespace UnionChecker

open Syntax

variable {Named written : String → Prop} {Declared : Nominal → Nat → Prop}
  {P : Ty → Prop}

/-- The property holds of the types of an item. -/
def LibraryItem.Satisfies (Declared : Nominal → Nat → Prop) (P : Ty → Prop) : LibraryItem → Prop
  | .function signature => P signature.toTy
  | .record r => Declared r.decl r.decl.formals.length ∧ P r.constructor.toTy

/-- The generics of an item. -/
def LibraryItem.generics : LibraryItem → List String
  | .function signature => signature.generics
  | .record r => r.decl.formals ++ r.fields.flatMap fun
    | (_, .fn generics _ _) => generics
    | _ => []

/-- The generics of the items of a package. -/
def Library.generics (package : String) : List String :=
  (items.filter fun item => item.1.package == package).flatMap (·.2.generics)

/-- All generics in the package of an item may be called so. -/
def Library.Within (Named : String → Prop) (ref : Ref) : Prop := ∀ g ∈ generics ref.package, Named g

/-- The property holds of what a package has without declaring it, as far as its generics may be
called so. -/
structure Predeclared (Named : String → Prop) (Declared : Nominal → Nat → Prop) (P : Ty → Prop) :
    Prop where
  builtin : ∀ t ∈ Library.defaultTypes, Declared t.1 t.1.formals.length
  item : ∀ ref item, Library.Within Named ref → Library.lookup ref = some item →
    item.Satisfies Declared P
  within : ∀ decl n, Declared decl n → Library.Within Named decl.ref

/-- The property holds of what a symbol stands for. -/
def TypeSymbol.Satisfies (Declared : Nominal → Nat → Prop) (P : Ty → Prop) : TypeSymbol → Prop
  | .named decl _ => Declared decl decl.formals.length
  | .synonym generics ty => (∀ g ∈ generics, P (.var g)) ∧ P ty
  | .generic => ∀ x, P (.var x)

/-- The property holds of what the names of types stand for. -/
structure Table.NamesSatisfy (Declared : Nominal → Nat → Prop) (P : Ty → Prop) (table : Table) :
    Prop where
  types : ∀ entry ∈ table.types, entry.2.Satisfies Declared P
  fileTypes : ∀ entry ∈ table.fileTypes, entry.2.Satisfies Declared P

/-- The property holds of all types in a table. -/
structure Table.Satisfies (Declared : Nominal → Nat → Prop) (P : Ty → Prop) (table : Table) : Prop
    extends table.NamesSatisfy Declared P where
  values : ∀ entry ∈ table.values, P entry.2
  fileValues : ∀ entry ∈ table.fileValues, P entry.2.type
  fields : ∀ entry ∈ table.fields, ∀ field ∈ entry.2, P field.2
  typeAliases : ∀ entry ∈ table.typeAliases, P entry.2.2
  constructors : ∀ entry ∈ table.constructors, P entry.2.toTy
  natives : ∀ entry ∈ table.natives, P entry.2.toTy

section

variable {Γ : Context} {frames : Frames} {gs : List String} {t : Ty}

/-! ## Written types -/

theorem lookupType_satisfies {name : String} {symbol : TypeSymbol}
    (hD : Predeclared Named Declared P) (hΓ : Γ.table.NamesSatisfy Declared P)
    (h : Γ.lookupType frames name = some symbol) :
    (symbol = .generic ∧ frames.hasGeneric name = true) ∨ symbol.Satisfies Declared P := by
  unfold Context.lookupType at h
  split at h
  · rename_i hgeneric
    cases h
    exact Or.inl ⟨rfl, hgeneric⟩
  · right
    rcases Option.or_eq_some_iff.1 h with h | ⟨-, h⟩
    · exact hΓ.fileTypes _ (mem_of_lookup_eq_some h)
    rcases Option.or_eq_some_iff.1 h with h | ⟨-, h⟩
    · exact hΓ.types _ (mem_of_lookup_eq_some h)
    · obtain ⟨t, ht, rfl⟩ := Option.map_eq_some_iff.1 h
      exact hD.builtin t (List.mem_of_find?_eq_some ht)

namespace Ty.Hereditary

theorem genericAt {name : Name} {args : List Ty} (hname : P (.var name.text))
    (h : Γ.genericAt name args = .ok t) : P t := by
  unfold Context.genericAt at h
  split at h <;> cases h
  exact hname

theorem typeAt {name : Name} {args : List Ty} (hP : Hereditary Named Declared P)
    (hD : Predeclared Named Declared P) (hΓ : Γ.table.NamesSatisfy Declared P)
    (hframes : ∀ x, frames.hasGeneric x = true → Named x) (hgs : ∀ g ∈ gs, Named g)
    (hargs : ∀ t ∈ args, P t) (h : Γ.typeAt frames gs name args = .ok t) : P t := by
  unfold Context.typeAt at h
  split at h
  · rename_i hname
    exact genericAt (hP.var.2 (hgs _ (List.contains_iff_mem.1 hname))) h
  split at h
  · cases h
  · rename_i hsymbol
    rcases lookupType_satisfies hD hΓ hsymbol with ⟨-, hname⟩ | hvars
    · exact genericAt (hP.var.2 (hframes _ hname)) h
    · exact genericAt (hvars _) h
  · rename_i decl _ hsymbol
    have hdecl : Declared decl decl.formals.length :=
      (lookupType_satisfies hD hΓ hsymbol).resolve_left (by simp)
    split at h <;> cases h
    rename_i hlen
    exact hP.named.2 ⟨beq_iff_eq.1 hlen ▸ hdecl, hargs⟩
  · rename_i formals ty hsymbol
    have hty : P ty := ((lookupType_satisfies hD hΓ hsymbol).resolve_left (by simp)).2
    split at h <;> cases h
    exact hP.resolve_ofLists hty hargs

section

set_option linter.unusedSectionVars false

variable (hP : Hereditary Named Declared P) (hD : Predeclared Named Declared P)
  (hΓ : Γ.table.NamesSatisfy Declared P) (hframes : ∀ x, frames.hasGeneric x = true → Named x)
include hP hD hΓ hframes

mutual

/-- **Written types have the property.** -/
theorem resolveType : ∀ (type : TypeExpr) {gs : List String} {t : Ty},
    type.Uses ⟨Named, written⟩ → (∀ g ∈ gs, Named g) → Γ.resolveType frames gs type = .ok t → P t
  | ⟨alternatives, _⟩, gs, t, hu, hgs, h => by
    rw [Context.resolveType, map_eq_ok] at h
    rw [TypeExpr.Uses] at hu
    obtain ⟨ts, hts, rfl⟩ := h
    exact hP.join (resolveAlternatives alternatives hu hgs hts)

theorem resolveAlternative : ∀ (a : Alternative) {gs : List String} {t : Ty},
    a.Uses ⟨Named, written⟩ → (∀ g ∈ gs, Named g) → Γ.resolveAlternative frames gs a = .ok t → P t
  | .hole _, _, _, _, _, h => by cases h
  | .named name args, gs, t, hu, hgs, h => by
    rw [Context.resolveAlternative, bind_eq_ok] at h
    rw [Alternative.Uses] at hu
    obtain ⟨ts, hts, h⟩ := h
    exact hP.typeAt hD hΓ hframes hgs (resolveTypes args hu.2 hgs hts) h
  | .fn bound params result _, gs, t, hu, hgs, h => by
    simp only [Context.resolveAlternative, bind_eq_ok] at h
    rw [Alternative.Uses] at hu
    obtain ⟨ps, hps, r, hr, h⟩ := h
    cases h
    have hbound : ∀ g ∈ bound.map (·.text), Named g := List.forall_mem_map.2 hu.1
    have hinner : ∀ g ∈ gs ++ bound.map (·.text), Named g :=
      List.forall_mem_append.2 ⟨hgs, hbound⟩
    exact hP.fn.2 ⟨hbound, resolveParams params hu.2.1 hinner hps,
      resolveType result hu.2.2 hinner hr⟩

theorem resolveAlternatives : ∀ (as : List Alternative) {gs : List String} {ts : List Ty},
    alternativesUse ⟨Named, written⟩ as → (∀ g ∈ gs, Named g) →
    Γ.resolveAlternatives frames gs as = .ok ts → ∀ t ∈ ts, P t
  | [], _, _, _, _, h => by cases h; simp
  | a :: as, gs, ts, hu, hgs, h => by
    simp only [Context.resolveAlternatives, bind_eq_ok] at h
    rw [alternativesUse] at hu
    obtain ⟨first, hfirst, rest, hrest, h⟩ := h
    cases h
    exact List.forall_mem_cons.2 ⟨resolveAlternative a hu.1 hgs hfirst,
      resolveAlternatives as hu.2 hgs hrest⟩

theorem resolveTypes : ∀ (types : List TypeExpr) {gs : List String} {ts : List Ty},
    typesUse ⟨Named, written⟩ types → (∀ g ∈ gs, Named g) →
    Γ.resolveTypes frames gs types = .ok ts → ∀ t ∈ ts, P t
  | [], _, _, _, _, h => by cases h; simp
  | type :: types, gs, ts, hu, hgs, h => by
    simp only [Context.resolveTypes, bind_eq_ok] at h
    rw [typesUse] at hu
    obtain ⟨first, hfirst, rest, hrest, h⟩ := h
    cases h
    exact List.forall_mem_cons.2 ⟨resolveType type hu.1 hgs hfirst,
      resolveTypes types hu.2 hgs hrest⟩

theorem resolveParams : ∀ (params : List (Option Name × TypeExpr)) {gs : List String}
    {ps : List (String × Ty)}, paramsUse ⟨Named, written⟩ params → (∀ g ∈ gs, Named g) →
    Γ.resolveParams frames gs params = .ok ps → ∀ p ∈ ps, P p.2
  | [], _, _, _, _, h => by cases h; simp
  | (_, type) :: params, gs, ps, hu, hgs, h => by
    simp only [Context.resolveParams, bind_eq_ok] at h
    rw [paramsUse] at hu
    obtain ⟨first, hfirst, rest, hrest, h⟩ := h
    cases h
    exact List.forall_mem_cons.2 ⟨resolveType type hu.1 hgs hfirst,
      resolveParams params hu.2 hgs hrest⟩

end

end

/-- At package level only the generics of the construct itself are in scope. -/
theorem resolveType_initial (hP : Hereditary Named Declared P) (hD : Predeclared Named Declared P)
    (hΓ : Γ.table.NamesSatisfy Declared P) {type : TypeExpr} (hu : type.Uses ⟨Named, written⟩)
    (hgs : ∀ g ∈ gs, Named g) (h : Γ.resolveType .initial gs type = .ok t) : P t :=
  hP.resolveType hD hΓ (by simp [Frames.hasGeneric, Frames.initial]) type hu hgs h

/-- Without a wish for names, all written types have the property. -/
theorem resolveType_any (hP : Hereditary (fun _ => True) Declared P)
    (hD : Predeclared (fun _ => True) Declared P) (hΓ : Γ.table.NamesSatisfy Declared P) {type : TypeExpr}
    (h : Γ.resolveType frames gs type = .ok t) : P t :=
  hP.resolveType hD hΓ (fun _ _ => trivial) type type.uses_any (fun _ _ => trivial) h

/-! ## The standard library -/

theorem list (hP : Hereditary Named Declared P) (hD : Predeclared Named Declared P) (h : P t) :
    P (.list t) :=
  hP.named.2 ⟨hD.builtin (⟨⟨"", "List"⟩, ["T"], true⟩, [.var "T"]) (by simp [Library.defaultTypes]),
    by simpa using h⟩

theorem builtin (hP : Hereditary Named Declared P) (hD : Predeclared Named Declared P)
    {name : String} (h : (⟨⟨"", name⟩, [], true⟩, []) ∈ Library.defaultTypes) :
    P (.builtin name) :=
  hP.named.2 ⟨hD.builtin _ h, by simp⟩

theorem literalType (hP : Hereditary Named Declared P) (hD : Predeclared Named Declared P)
    (value : Literal) : P (Check.literalType value) := by
  cases value <;> exact hP.builtin hD (by simp [Library.defaultTypes])

theorem declared (hP : Hereditary Named Declared P) {decl : Nominal}
    (hformals : ∀ x ∈ decl.formals, Named x) (h : Declared decl decl.formals.length) :
    P decl.declared :=
  hP.named.2 ⟨by simpa using h, List.forall_mem_map.2 fun x hx => hP.var.2 (hformals x hx)⟩

/-- The property holds of constructors exactly when it holds of fields. -/
theorem constructor_iff (hP : Hereditary Named Declared P) {record : RecordType}
    (hformals : ∀ x ∈ record.decl.formals, Named x)
    (hdecl : Declared record.decl record.decl.formals.length) :
    P record.constructor.toTy ↔ ∀ field ∈ record.fields, P field.2 :=
  hP.fn.trans ⟨fun h => h.2.1, fun h => ⟨hformals, h, hP.declared hformals hdecl⟩⟩

end Ty.Hereditary

/-- The property holds of library items when it holds of the declared types that they mention. -/
theorem library_satisfies {ref : Ref} {item : LibraryItem} (hP : Ty.Hereditary Named Declared P)
    (hbuiltin : ∀ t ∈ Library.defaultTypes, Declared t.1 t.1.formals.length)
    (hlibrary : ∀ ref record, Library.Within Named ref →
      Library.lookup ref = some (.record record) → Declared record.decl record.decl.formals.length)
    (hwithin : Library.Within Named ref) (h : Library.lookup ref = some item) :
    item.Satisfies Declared P := by
  simp only [Library.defaultTypes, List.forall_mem_cons, List.length_nil, List.length_singleton]
    at hbuiltin
  have hcompare : Library.generics "tenecs.compare" = ["T"] := by decide
  have hlist : Library.generics "tenecs.list" = ["A", "B", "A", "A", "A"] := by decide
  have htest : Library.generics "tenecs.test" = ["T"] := by decide
  have hgo : Library.generics "tenecs.go" = [] := by decide
  have hweb : Library.generics "tenecs.web" = ["Model", "Event"] := by decide
  have hassert := (hlibrary ⟨"tenecs.test", "Assert"⟩ _ · rfl)
  have hkit := (hlibrary ⟨"tenecs.test", "UnitTestKit"⟩ _ · rfl)
  have hunit := (hlibrary ⟨"tenecs.test", "UnitTest"⟩ _ · rfl)
  have hregistry := (hlibrary ⟨"tenecs.test", "UnitTestRegistry"⟩ _ · rfl)
  have hconsole := (hlibrary ⟨"tenecs.go", "Console"⟩ _ · rfl)
  have hruntime := (hlibrary ⟨"tenecs.go", "Runtime"⟩ _ · rfl)
  simp only [Library.Within, htest, hgo, List.forall_mem_singleton, List.length_nil]
    at hassert hkit hunit hregistry hconsole hruntime
  have hall : ∀ item ∈ Library.items, Library.Within Named item.1 →
      (∀ record, item.2 = .record record → Declared record.decl record.decl.formals.length) →
      item.2.Satisfies Declared P := by
    simp only [Library.items, Library.records, Library.functions, List.forall_mem_append,
      List.forall_mem_cons, Library.record, Library.function, LibraryItem.Satisfies, Library.fnType,
      Library.interface, Signature.toTy, RecordType.constructor, Nominal.declared, Ty.string, Ty.int,
      Ty.boolean, Ty.void, Ty.list, Ty.builtin, hP.fn, hP.named, Library.Within, hcompare, hlist,
      htest, hgo, hweb]
    simp +contextual [*, hP.var]
  refine hall _ (mem_of_lookup_eq_some h) hwithin fun record hrecord => ?_
  exact hlibrary ref record hwithin (hrecord ▸ h)

/-- If generics may be called anything, the whole library is at hand. -/
theorem Predeclared.of_declared (hP : Ty.Hereditary (fun _ => True) Declared P)
    (hbuiltin : ∀ t ∈ Library.defaultTypes, Declared t.1 t.1.formals.length)
    (hlibrary : ∀ ref record, Library.lookup ref = some (.record record) →
      Declared record.decl record.decl.formals.length) :
    Predeclared (fun _ => True) Declared P :=
  ⟨hbuiltin, fun _ _ => library_satisfies hP hbuiltin fun ref record _ => hlibrary ref record,
    fun _ _ _ _ _ => trivial⟩

/-! ## Fields -/

theorem fieldsOf_satisfies {table : Table} {decl : Nominal} {args : List Ty}
    {fields : List (String × Ty)} (hP : Ty.Hereditary Named Declared P)
    (hD : Predeclared Named Declared P) (ht : table.Satisfies Declared P)
    (hdecl : Declared decl args.length) (hargs : ∀ t ∈ args, P t)
    (h : table.fieldsOf decl args = some fields) : ∀ field ∈ fields, P field.2 := by
  simp only [Table.fieldsOf, Option.bind_eq_bind, Option.bind_eq_some_iff] at h
  obtain ⟨declared, hdeclared, h⟩ := h
  cases h
  have hown : ∀ field ∈ declared, P field.2 := by
    split at hdeclared
    · rename_i hlookup
      cases hdeclared
      exact ht.fields _ (mem_of_lookup_eq_some hlookup)
    · split at hdeclared <;> cases hdeclared
      rename_i record hlookup
      exact (hP.fn.1 (hD.item _ _ (hD.within _ _ hdecl) hlookup).2).2.1
  exact List.forall_mem_map.2 fun field hfield => hP.resolve_ofLists (hown field hfield) hargs

/-! ## Steps of binding -/

/-- All generics in the package of what is imported may be called so. -/
def Syntax.Import.Within (Named : String → Prop) (i : Import) : Prop :=
  ∀ target, Binding.ImportTarget.of? i = some target → Library.Within Named target.ref

namespace Binding

variable {table table' : Table}

theorem satisfies_declareRecord {site : RecordSite} (ht : table.Satisfies Declared P)
    (hsite : Declared (site.nominal table.package) (site.nominal table.package).formals.length)
    (h : declareRecord table site = .ok table') :
    table'.Satisfies Declared P ∧ table'.package = table.package := by
  obtain ⟨-, rfl⟩ := declareRecord_eq_ok h
  exact ⟨{ ht with types := forall_mem_put hsite ht.types }, rfl⟩

theorem satisfies_recordFields {fields : List (String × Ty)} (ht : table.Satisfies Declared P)
    (decl : Nominal) (h : ∀ field ∈ fields, P field.2) :
    (recordFields table decl fields).Satisfies Declared P ∧
      (recordFields table decl fields).package = table.package := by
  have hfields : ∀ entry ∈ put decl.ref fields table.fields, ∀ field ∈ entry.2, P field.2 :=
    forall_mem_put h ht.fields
  unfold recordFields
  split
  · exact ⟨{ ht with fields := hfields }, rfl⟩
  · exact ⟨{ ht with fields := hfields }, rfl⟩

theorem satisfies_importValue {file : String} {target : ImportTarget} {signature : Signature}
    (ht : table.Satisfies Declared P) (hs : P signature.toTy)
    (h : importValue table file target signature = some table') :
    table'.Satisfies Declared P ∧ table'.package = table.package := by
  obtain rfl := importValue_eq_some h
  exact ⟨{ ht with
    fileValues := forall_mem_put hs ht.fileValues
    natives := forall_mem_put hs ht.natives }, rfl⟩

theorem satisfies_defineFileType {file name : String} {symbol : TypeSymbol}
    (ht : table.Satisfies Declared P) (h : table.defineFileType file name symbol = some table')
    (hs : symbol.Satisfies Declared P) :
    table'.Satisfies Declared P ∧ table'.package = table.package := by
  obtain rfl := defineFileType_eq_some h
  exact ⟨{ ht with fileTypes := forall_mem_put hs ht.fileTypes }, rfl⟩

theorem satisfies_bindImport {aliasNames : List String} {file : String} {i : Import}
    (hP : Ty.Hereditary Named Declared P) (hD : Predeclared Named Declared P)
    (hi : i.Within Named) (ht : table.Satisfies Declared P)
    (h : bindImport aliasNames file table i = .ok table') :
    table'.Satisfies Declared P ∧ table'.package = table.package := by
  obtain ⟨target, item, htarget, hitem, himport⟩ := bindImport_eq_ok h
  have hsatisfies := hD.item _ _ (hi target htarget) hitem
  cases item with
  | function signature => exact satisfies_importValue ht hsatisfies himport
  | record record =>
    obtain ⟨hdecl, hconstructor⟩ := hsatisfies
    obtain ⟨typed, valued, htype, hvalue, rfl⟩ := importRecord_eq_some himport
    obtain ⟨ht, hp⟩ := satisfies_defineFileType ht htype hdecl
    obtain ⟨ht', hp'⟩ := satisfies_importValue ht hconstructor hvalue
    obtain ⟨ht'', hp''⟩ := satisfies_recordFields ht' record.decl (hP.fn.1 hconstructor).2.1
    exact ⟨ht'', hp''.trans (hp'.trans hp)⟩

theorem satisfies_recordAlias {known : Table} {site : AliasSite} {ty : Ty}
    (hP : Ty.Hereditary Named Declared P) (hD : Predeclared Named Declared P)
    (hu : site.typeAlias.Uses ⟨Named, written⟩) (hknown : known.NamesSatisfy Declared P)
    (ht : table.Satisfies Declared P) (h : resolveAlias known site = .ok ty) :
    (recordAlias table (site.typeAlias, ty)).Satisfies Declared P := by
  have hgenerics : ∀ g ∈ site.typeAlias.generics.map (·.text), Named g :=
    List.forall_mem_map.2 hu.1
  have hty : P ty := hP.resolveType_initial hD hknown hu.2 hgenerics h
  exact { ht with
    types := forall_mem_put ⟨fun g hg => hP.var.2 (hgenerics g hg), hty⟩ ht.types
    typeAliases := forall_mem_put hty ht.typeAliases }

theorem satisfies_recordType {known : Table} {site : RecordSite} {record : RecordType}
    (hP : Ty.Hereditary Named Declared P) (hD : Predeclared Named Declared P)
    (hu : site.record.Uses ⟨Named, written⟩) (hknown : known.NamesSatisfy Declared P)
    (hsite : Declared (site.nominal known.package) (site.nominal known.package).formals.length)
    (ht : table.Satisfies Declared P) (h : resolveRecord known site = .ok record) :
    (recordType table record).Satisfies Declared P := by
  obtain ⟨-, fields, hfields, rfl⟩ := resolveRecord_eq_ok h
  have hgenerics : ∀ g ∈ site.record.generics.map (·.text), Named g := List.forall_mem_map.2 hu.1
  have hfields : ∀ field ∈ fields, P field.2 := fun field hfield => by
    obtain ⟨source, hsource, -, hty, -⟩ :=
      forall₂_mem_right (forall₂_resolveFields hfields) hfield
    exact hP.resolveType_initial hD hknown (hu.2 source hsource) hgenerics hty
  have hconstructor : P (RecordType.constructor ⟨site.nominal known.package, fields⟩).toTy :=
    (hP.constructor_iff hgenerics hsite).2 hfields
  obtain ⟨ht', -⟩ := satisfies_recordFields ht (site.nominal known.package) hfields
  exact { ht' with
    values := forall_mem_put hconstructor ht'.values
    constructors := forall_mem_put hconstructor ht'.constructors }

end Binding

/-- The types that a package declares are worded as wanted, and its imports are within the wording. -/
structure Binding.TypesUse (W : Wording) (files : List SourceFile) : Prop where
  records : ∀ site ∈ recordSites files, site.record.Uses W
  aliases : ∀ site ∈ aliasSites files, site.typeAlias.Uses W
  imports : ∀ file ∈ files, ∀ i ∈ file.tree.imports, i.Within W.bound

theorem Binding.typesUse_any (files : List SourceFile) :
    TypesUse ⟨fun _ => True, fun _ => True⟩ files :=
  ⟨fun site _ => site.record.uses_any, fun site _ => site.typeAlias.uses_any,
    fun _ _ _ _ _ _ _ _ => trivial⟩

/-- Before its declarations are looked at, the property holds of all types in the table of a
package. -/
theorem Binding.bindTypes_satisfies {files : List SourceFile} {table : Table}
    {aliasNames : List String} (hP : Ty.Hereditary Named Declared P)
    (hD : Predeclared Named Declared P)
    (hsites : ∀ site ∈ recordSites files,
      Declared (site.nominal (packageName files)) (site.nominal (packageName files)).formals.length)
    (hu : TypesUse ⟨Named, written⟩ files) (h : bindTypes files = .ok (table, aliasNames)) :
    table.Satisfies Declared P := by
  let Kept := fun t : Table => t.Satisfies Declared P ∧ t.package = packageName files
  have hkept : Kept table := by
    refine bindTypes_invariant (I := Kept) ?_ ?_ ?_ ?_ ?_ h
    · exact ⟨⟨⟨by simp [Table.empty], by simp [Table.empty]⟩, by simp [Table.empty],
        by simp [Table.empty], by simp [Table.empty], by simp [Table.empty], by simp [Table.empty],
        by simp [Table.empty]⟩, rfl⟩
    · intro site hsite t t' ht hdeclare
      obtain ⟨ht', hp⟩ := satisfies_declareRecord ht.1 (ht.2 ▸ hsites site hsite) hdeclare
      exact ⟨ht', hp.trans ht.2⟩
    · intro file hfile i hi _ t t' ht himport
      obtain ⟨ht', hp⟩ := satisfies_bindImport hP hD (hu.imports file hfile i hi) ht.1 himport
      exact ⟨ht', hp.trans ht.2⟩
    · intro site hsite known t ty hknown ht hty
      exact ⟨satisfies_recordAlias hP hD (hu.aliases site hsite) hknown.1.toNamesSatisfy ht.1 hty,
        ht.2⟩
    · intro site hsite known t record hknown ht hrecord
      exact ⟨satisfies_recordType hP hD (hu.records site hsite) hknown.1.toNamesSatisfy
        (hknown.2 ▸ hsites site hsite) ht.1 hrecord, (package_recordType t record).trans ht.2⟩
  exact hkept.1

theorem Bound.exists_satisfies {files : List SourceFile} {bound : Bound}
    (hP : Ty.Hereditary Named Declared P) (hD : Predeclared Named Declared P)
    (hsites : ∀ site ∈ Binding.recordSites files,
      Declared (site.nominal (Binding.packageName files))
        (site.nominal (Binding.packageName files)).formals.length)
    (hu : Binding.TypesUse ⟨Named, written⟩ files)
    (h : Bound.ofFiles files = .ok bound) :
    ∃ (table : Table) (aliasNames : List String), table.Satisfies Declared P ∧
      Binding.bindDeclarations table aliasNames files = .ok (bound.table, bound.declarations) := by
  obtain ⟨table, aliasNames, htypes, hdeclarations⟩ := Bound.ofFiles_eq_ok.1 h
  exact ⟨table, aliasNames, Binding.bindTypes_satisfies hP hD hsites hu htypes, hdeclarations⟩

end

end UnionChecker
