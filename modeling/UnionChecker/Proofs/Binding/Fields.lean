import UnionChecker.Proofs.Binding.Aliases
import UnionChecker.Proofs.PackageLinks
import UnionChecker.Proofs.Ty.Unions
/-!
# The fields of structs

The fields of a struct are meant to be comparable, so they have no function types and no interfaces.
Binding opens the unions of a field, also those that type aliases stand for, and refuses the field if
a member is a function type or an interface (`Bound.ofFiles_fields_comparable`). It does not look at
the generics of a declared type, where both can hide (`ofFiles_stores_functions`).
-/

namespace UnionChecker

open Syntax

namespace Ty

variable {t p : Ty}

/-- The second type stands somewhere in the first one, in a union or as a generic of a declared
type. -/
inductive Contains : Ty → Ty → Prop
  | here (t : Ty) : Contains t t
  | member {ms : List Ty} {m p : Ty} (hm : m ∈ ms) (h : Contains m p) : Contains (.union ms) p
  | generic {decl : Nominal} {args : List Ty} {a p : Ty} (ha : a ∈ args) (h : Contains a p) :
      Contains (.named decl args) p

theorem Contains.trans {q : Ty} (h : Contains t p) (h' : Contains p q) : Contains t q := by
  induction h with
  | here => exact h'
  | member hm _ ih => exact .member hm (ih h')
  | generic ha _ ih => exact .generic ha (ih h')

theorem contains_of_mem_flatten (t : Ty) (h : p ∈ t.flatten) : Contains t p := by
  induction t with
  | union ms ih =>
    rw [flatten, flattenAll_eq_flatMap, List.mem_flatMap] at h
    obtain ⟨m, hm, h⟩ := h
    exact .member hm (ih m hm h)
  | _ =>
    obtain rfl := List.mem_singleton.1 h
    exact .here _

/-- What is no union is contained as a member of the type, or as one of a generic in it. -/
theorem Contains.cases_flatten (h : Contains t p) (hp : p.isUnion = false) :
    p ∈ t.flatten ∨ ∃ decl args, Contains t (.named decl args) ∧ ∃ a ∈ args, p ∈ a.flatten := by
  induction h with
  | here p =>
    left
    rw [flatten_of_not_isUnion hp]
    exact List.mem_singleton.2 rfl
  | member hm _ ih =>
    rcases ih hp with hmem | ⟨decl, args, hin, ha⟩
    · left
      rw [flatten, flattenAll_eq_flatMap, List.mem_flatMap]
      exact ⟨_, hm, hmem⟩
    · exact .inr ⟨decl, args, .member hm hin, ha⟩
  | generic ha _ ih =>
    rcases ih hp with hmem | ⟨decl, args, hin, ha'⟩
    · exact .inr ⟨_, _, .here _, _, ha, hmem⟩
    · exact .inr ⟨decl, args, .generic ha hin, ha'⟩

/-- A union is stored iff each of its members is. -/
theorem spreads_not_storable : Spreads fun t => t.storable = false := by
  intro ms
  induction ms with
  | nil => simp [storable, storableAll]
  | cons m ms ih =>
    simp only [storable, storableAll] at ih ⊢
    rw [Bool.and_eq_false_iff, ih, List.exists_mem_cons_iff]

end Ty

namespace Binding

variable {files : List SourceFile} {table table' : Table} {site : RecordSite} {Γ : Context}

/-! ## Function types and interfaces -/

/-- A declared type is an interface, of the package or of the standard library. -/
def IsInterface (files : List SourceFile) (decl : Nominal) : Prop :=
  (∃ site ∈ recordSites files, site.isStruct = false ∧ decl = site.nominal (packageName files)) ∨
    ∃ record, Library.lookup decl.ref = some (.record record) ∧ decl = record.decl ∧
      record.decl.storable = false

/-- Function types and interfaces, whose values cannot be compared. -/
inductive Incomparable (files : List SourceFile) : Ty → Prop
  | function (generics : List String) (params : List (String × Ty)) (result : Ty) :
      Incomparable files (.fn generics params result)
  | interface {decl : Nominal} (args : List Ty) (h : IsInterface files decl) :
      Incomparable files (.named decl args)

theorem Incomparable.not_storable {t : Ty} (h : Incomparable files t) : t.storable = false := by
  cases h with
  | function => rfl
  | interface args h =>
    rw [Ty.storable]
    rcases h with ⟨site, -, hstruct, rfl⟩ | ⟨record, -, rfl, hstorable⟩
    · exact hstruct
    · exact hstorable

theorem Incomparable.not_isUnion {t : Ty} (h : Incomparable files t) : t.isUnion = false := by
  cases h <;> rfl

/-- A type that can be stored has no incomparable member. -/
theorem not_incomparable_of_storable {t m : Ty} (h : t.storable = true) (hm : m ∈ t.flatten) :
    ¬ Incomparable files m := by
  intro hinc
  have hnot := (Ty.spreads_not_storable.flatten_iff t).1 ⟨m, hm, hinc.not_storable⟩
  rw [h] at hnot
  cases hnot

/-- An incomparable type inside of a type that can be stored is a member of a generic in it. -/
theorem contains_incomparable_iff {t : Ty} (h : t.storable = true) :
    (∃ p, t.Contains p ∧ Incomparable files p) ↔
      ∃ decl args, t.Contains (.named decl args) ∧ ∃ a ∈ args, ∃ m ∈ a.flatten,
        Incomparable files m := by
  constructor
  · rintro ⟨p, hp, hinc⟩
    rcases hp.cases_flatten hinc.not_isUnion with hmem | ⟨decl, args, hin, a, ha, hmem⟩
    · exact absurd hinc (not_incomparable_of_storable h hmem)
    · exact ⟨decl, args, hin, a, ha, p, hmem, hinc⟩
  · rintro ⟨decl, args, hin, a, ha, m, hm, hinc⟩
    exact ⟨m, hin.trans (.generic ha (Ty.contains_of_mem_flatten a hm)), hinc⟩

/-! ## One struct or interface -/

/-- The type that is written for a field. -/
def resolveField (table : Table) (site : RecordSite) (type : TypeExpr) : Except Failure Ty :=
  (fileContext table site.file).resolveType .initial (site.record.generics.map (·.text)) type

theorem resolveFields_cons (name : Name) (type : TypeExpr) (fields : List (Name × TypeExpr))
    (seen : List String) :
    resolveFields (fileContext table site.file) site ((name, type) :: fields) seen =
      if name.text ∈ seen then
        .error (Failure.of (.duplicateField name.text site.record.name.text) site.file name.span)
      else
        resolveField table site type >>= fun ty =>
          if site.isStruct = true ∧ ty.storable = false then
            .error (Failure.of (.incomparableField ty) site.file type.span)
          else
            (resolveFields (fileContext table site.file) site fields (name.text :: seen)).map
              ((name.text, ty) :: ·) := by
  simp only [resolveFields, List.contains_iff_mem]
  split
  · rfl
  · refine congrArg (resolveField table site type >>= ·) (funext fun ty => ?_)
    cases site.isStruct <;> cases ty.storable <;> rfl

theorem resolveFields_cons_eq_ok {name : Name} {type : TypeExpr} {fields : List (Name × TypeExpr)}
    {seen : List String} {resolved : List (String × Ty)} :
    resolveFields (fileContext table site.file) site ((name, type) :: fields) seen = .ok resolved ↔
      name.text ∉ seen ∧ ∃ ty rest, resolveField table site type = .ok ty ∧
        (site.isStruct = true → ty.storable = true) ∧
        resolveFields (fileContext table site.file) site fields (name.text :: seen) = .ok rest ∧
        resolved = (name.text, ty) :: rest := by
  rw [resolveFields_cons, ite_error_else_eq_ok, bind_eq_ok]
  simp only [ite_error_else_eq_ok, map_eq_ok, not_and, Bool.not_eq_false]
  constructor
  · rintro ⟨hseen, ty, hty, hstorable, rest, hrest, rfl⟩
    exact ⟨hseen, ty, rest, hty, hstorable, hrest, rfl⟩
  · rintro ⟨hseen, ty, rest, hty, hstorable, hrest, rfl⟩
    exact ⟨hseen, ty, hty, hstorable, rest, hrest, rfl⟩

/-- The first field of a struct that cannot be stored is reported, if all before it is right. -/
theorem resolveFields_incomparable {name : Name} {type : TypeExpr} {ty : Ty}
    (hstruct : site.isStruct = true) (hty : resolveField table site type = .ok ty)
    (hstorable : ty.storable = false) (later : List (Name × TypeExpr)) :
    ∀ (earlier : List (Name × TypeExpr)) (seen : List String) {resolved : List (String × Ty)},
    resolveFields (fileContext table site.file) site earlier seen = .ok resolved →
    name.text ∉ seen → name.text ∉ earlier.map (·.1.text) →
    resolveFields (fileContext table site.file) site (earlier ++ (name, type) :: later) seen =
      .error (Failure.of (.incomparableField ty) site.file type.span)
  | [], _, _, _, hseen, _ => by
    rw [List.nil_append, resolveFields_cons, if_neg hseen, hty]
    exact if_pos ⟨hstruct, hstorable⟩
  | (first, type') :: earlier, seen, resolved, h, hseen, hnew => by
    obtain ⟨hfirst, ty', rest, hty', hstorable', hrest, -⟩ := resolveFields_cons_eq_ok.1 h
    rw [List.map_cons, List.mem_cons, not_or] at hnew
    have hseen' : name.text ∉ first.text :: seen := by
      rw [List.mem_cons, not_or]
      exact ⟨hnew.1, hseen⟩
    have ih := resolveFields_incomparable hstruct hty hstorable later earlier _ hrest hseen' hnew.2
    rw [List.cons_append, resolveFields_cons, if_neg hfirst, hty', ih]
    refine if_neg fun hnot => ?_
    rw [hstorable' hstruct] at hnot
    cases hnot.2

/-! ## All structs and interfaces -/

/-- The table has the fields and the constructor of a struct or interface. -/
structure Describes (table : Table) (record : RecordType) : Prop where
  fields : table.fields.lookup record.decl.ref = some record.fields
  value : table.values.lookup record.decl.ref.name = some record.constructor.toTy

/-- Each struct and interface is resolved against the table before, and described in the one after. -/
theorem describes_bindRecords {sites : List RecordSite} (hapart : sites.Pairwise RecordSite.Apart)
    (h : bindRecords table sites = .ok table') (hsite : site ∈ sites) :
    ∃ record, resolveRecord table site = .ok record ∧ Describes table' record := by
  rw [bindRecords, bind_eq_ok] at h
  obtain ⟨records, hrecords, h⟩ := h
  cases h
  obtain ⟨record, hmem, hrecord⟩ := exists_ok_of_mem_mapM hrecords site hsite
  have hharmonious : (records.map recordPatch).Pairwise Table.Patch.Harmonious :=
    List.pairwise_map.2 ((apart_records hapart hrecords).imp harmonious_recordPatch)
  have hpatch := List.mem_map_of_mem (f := recordPatch) hmem
  rw [Table.foldl_eq_foldl_patch (g := fun _ => recordPatch) recordType_eq_patch]
  exact ⟨record, hrecord,
    Table.lookup_foldl_patch (fun _ _ => rfl) (·.fields) hharmonious hpatch rfl,
    Table.lookup_foldl_patch (fun _ _ => rfl) (·.values) hharmonious hpatch rfl⟩

/-! ## The whole package -/

/-- The steps of binding before fields are resolved. In the table at the end all names of types are
known. -/
def bindNames (files : List SourceFile) : Except Failure (Table × List String) := do
  files.forM (requirePackage (packageName files))
  let table ← (recordSites files).foldlM declareRecord (.empty (packageName files))
  let aliasNames ← (aliasSites files).foldlM (declareAlias table) []
  let table ← files.foldlM (bindFileImports aliasNames) table
  let table ← bindAliases table (aliasSites files)
  return (table, aliasNames)

theorem bindTypes_eq (files : List SourceFile) :
    bindTypes files = bindNames files >>= fun (table, aliasNames) =>
      bindRecords table (recordSites files) >>= fun table => pure (table, aliasNames) := by
  simp only [bindTypes, bindNames, bind_assoc, pure_bind]

theorem bindTypes_eq_ok {aliasNames : List String} :
    bindTypes files = .ok (table', aliasNames) ↔ ∃ table,
      bindNames files = .ok (table, aliasNames) ∧
        bindRecords table (recordSites files) = .ok table' := by
  rw [bindTypes_eq, bind_eq_ok]
  constructor
  · rintro ⟨⟨table, names⟩, hnames, h⟩
    obtain ⟨recorded, hrecorded, h⟩ := bind_eq_ok.1 h
    cases h
    exact ⟨table, hnames, hrecorded⟩
  · rintro ⟨table, hnames, hrecorded⟩
    exact ⟨_, hnames, bind_eq_ok.2 ⟨_, hrecorded, rfl⟩⟩

theorem bindNames_eq_ok {aliasNames : List String} (h : bindNames files = .ok (table, aliasNames)) :
    table.package = packageName files ∧ (recordSites files).Pairwise RecordSite.Apart := by
  simp only [bindNames, bind_eq_ok] at h
  obtain ⟨_, -, declared, hdeclared, names, -, imported, himported, aliased, haliased, h⟩ := h
  cases h
  rw [foldlM_bindFileImports] at himported
  have hdeclared' : declared.package = packageName files :=
    foldlM_invariant (I := fun t => t.package = packageName files)
      (fun _ _ _ _ ht hsite => (declareRecord_eq_ok_iff.1 hsite).2 ▸ ht) rfl hdeclared
  have himported' : imported.package = packageName files :=
    foldlM_invariant (I := fun t => t.package = packageName files)
      (fun _ _ _ _ ht hsite => (bindImport_eq_ok_iff.1 hsite).2 ▸ ht) hdeclared' himported
  exact ⟨(sameRecords_aliasRounds _ haliased).package.trans himported',
    (declareRecords_eq_ok_iff.1 hdeclared).1⟩

/-- Binding comes to a field of a struct or interface: the names of types are known, and there is
nothing wrong with the structs and interfaces before this one and with the fields before this one. -/
structure ComesTo (files : List SourceFile) (table : Table) (site : RecordSite)
    (field : Name × TypeExpr) : Prop where
  names : ∃ aliasNames, bindNames files = .ok (table, aliasNames)
  sites : ∃ before after, recordSites files = before ++ site :: after ∧
    ∀ s ∈ before, ∃ record, resolveRecord table s = .ok record
  generics : firstRepeated site.record.generics [] = none
  fields : ∃ earlier later, site.record.fields = earlier ++ field :: later ∧
    (∃ resolved, resolveFields (fileContext table site.file) site earlier [] = .ok resolved) ∧
    field.1.text ∉ earlier.map (·.1.text)

theorem ComesTo.ofFiles_eq_error {field : Name × TypeExpr} {ty : Ty}
    (h : ComesTo files table site field) (hstruct : site.isStruct = true)
    (hty : resolveField table site field.2 = .ok ty) (hstorable : ty.storable = false) :
    Bound.ofFiles files = .error (Failure.of (.incomparableField ty) site.file field.2.span) := by
  obtain ⟨aliasNames, hnames⟩ := h.names
  obtain ⟨before, after, hsites, hbefore⟩ := h.sites
  obtain ⟨earlier, later, hfields, ⟨resolved, hearlier⟩, hnew⟩ := h.fields
  have hrecord : resolveRecord table site =
      .error (Failure.of (.incomparableField ty) site.file field.2.span) := by
    simp only [resolveRecord, h.generics, hfields]
    rw [resolveFields_incomparable hstruct hty hstorable later earlier [] hearlier
      List.not_mem_nil hnew]
    rfl
  have hrecords : bindRecords table (recordSites files) =
      .error (Failure.of (.incomparableField ty) site.file field.2.span) := by
    rw [bindRecords, hsites, mapM_eq_error hrecord after before hbefore]
    rfl
  have htypes : bindTypes files =
      .error (Failure.of (.incomparableField ty) site.file field.2.span) := by
    rw [bindTypes_eq, hnames]
    exact congrArg (· >>= fun table => pure (table, aliasNames)) hrecords
  rw [Bound.ofFiles_eq, htypes]
  rfl

end Binding

open Binding

/-- **Fields of structs are comparable, apart from generics.** Every struct of a package is recorded
with the fields that are written for it. No member of a field, with all unions and type aliases
opened, is a function type or an interface. So the only place where these can stand is as a generic of
a declared type. A struct with a field that has such a member is refused, and the field is named as
the reason, unless something before it is wrong. -/
theorem Bound.ofFiles_fields_comparable (files : List SourceFile) :
    (∀ bound, Bound.ofFiles files = .ok bound → ∀ site ∈ recordSites files, site.isStruct = true →
      ∃ fields, bound.table.fields.lookup ⟨packageName files, site.record.name.text⟩ = some fields ∧
        List.Forall₂ (fun written field => field.1 = written.1.text ∧
          resolveField bound.table site written.2 = .ok field.2 ∧
          (∀ m ∈ field.2.flatten, ¬ Incomparable files m) ∧
          ((∃ p, field.2.Contains p ∧ Incomparable files p) ↔
            ∃ decl args, field.2.Contains (.named decl args) ∧ ∃ a ∈ args, ∃ m ∈ a.flatten,
              Incomparable files m)) site.record.fields fields) ∧
    ∀ table site field ty, ComesTo files table site field → site.isStruct = true →
      resolveField table site field.2 = .ok ty → (∃ m ∈ ty.flatten, Incomparable files m) →
      Bound.ofFiles files = .error (Failure.of (.incomparableField ty) site.file field.2.span) := by
  constructor
  · intro bound h site hsite hstruct
    obtain ⟨recorded, aliasNames, htypes, hdeclarations⟩ := Bound.ofFiles_eq_ok.1 h
    obtain ⟨table, hnames, hrecorded⟩ := bindTypes_eq_ok.1 htypes
    obtain ⟨hpackage, hapart⟩ := bindNames_eq_ok hnames
    obtain ⟨record, hrecord, hdescribes⟩ := describes_bindRecords hapart hrecorded hsite
    obtain ⟨-, fields, hfields, rfl⟩ := resolveRecord_eq_ok hrecord
    obtain ⟨slots, hbacked, -⟩ := backed_bindDeclarations hdeclarations
    obtain ⟨values, hvalues⟩ := hbacked.others
    -- fields are resolved before declarations, which do not change what type names refer to
    have hcompletes : Completes [] table bound.table :=
      (completes_bindRecords hrecorded).trans (completes_bindDeclarations hdeclarations)
    refine ⟨fields, ?_, (forall₂_resolveFields hfields).imp ?_⟩
    · rw [hvalues, ← hpackage]
      exact hdescribes.fields
    · rintro written field ⟨hname, hty, hstorable⟩
      refine ⟨hname, ?_, fun m => not_incomparable_of_storable (hstorable hstruct),
        contains_incomparable_iff (hstorable hstruct)⟩
      exact resolveType_of_keeps _ _ _ (hcompletes.keeps site.file .initial (by simp)) hty
  · rintro table site field ty hcomes hstruct hty ⟨m, hm, hinc⟩
    refine hcomes.ofFiles_eq_error hstruct hty ?_
    exact (Ty.spreads_not_storable.flatten_iff ty).1 ⟨m, hm, hinc.not_storable⟩

section

/-- `interface Shape(area: () ~> Int)`. -/
def shapeRecord : Record := .plain "Shape" [] [("area", .fn [] [] (.named "Int" []))]

def shapeType : Ty := .named ⟨⟨"main", "Shape"⟩, [], false⟩ []

/-- `(Int) ~> Int`. -/
def handlerType : Ty := .fn [] [("_", .int)] .int

/-- `struct Drawing(name: String, shapes: Int | Shapes)`. -/
def drawingRecord : Record :=
  .plain "Drawing" []
    [("name", .named "String" []), ("shapes", .oneOf [.named "Int" [], .named "Shapes" []])]

/-- A drawing, with the interface `Shape` and `alias Shapes = Shape | Void`. -/
def drawingFile : SourceFile :=
  ⟨"drawing", ⟨⟨[.plain "main"], .zero⟩, [],
    [.interface shapeRecord,
      .typeAlias (.plain "Shapes" [] (.oneOf [.named "Shape" [], .named "Void" []])),
      .struct drawingRecord]⟩⟩

/-- `struct Row(cells: List<Cell>, last: Cell | Void)`. -/
def rowRecord : Record :=
  .plain "Row" []
    [("cells", .named "List" [.named "Cell" []]),
      ("last", .oneOf [.named "Cell" [], .named "Void" []])]

/-- A row, with `alias Cell = Int | String`. -/
def rowFile : SourceFile :=
  ⟨"row", ⟨⟨[.plain "main"], .zero⟩, [],
    [.typeAlias (.plain "Cell" [] (.oneOf [.named "Int" [], .named "String" []])),
      .struct rowRecord]⟩⟩

theorem ofFiles_fields_comparable_drawing :
    (∃ bound, Bound.ofFiles [rowFile] = .ok bound ∧
      ∃ fields, bound.table.fields.lookup ⟨"main", "Row"⟩ = some fields ∧
        ∀ field ∈ fields, ∀ m ∈ field.2.flatten, ¬ Incomparable [rowFile] m) ∧
    Bound.ofFiles [drawingFile] =
      .error (Failure.of (.incomparableField (.union [.int, .void, shapeType])) "drawing" .zero) := by
  constructor
  · obtain ⟨bound, hbound⟩ : ∃ bound, Bound.ofFiles [rowFile] = .ok bound :=
      ⟨_, by with_unfolding_all rfl⟩
    obtain ⟨fields, hfields, hall⟩ := (Bound.ofFiles_fields_comparable [rowFile]).1 bound hbound
      ⟨"row", rowRecord, true⟩ List.mem_cons_self rfl
    refine ⟨bound, hbound, fields, hfields, fun field hfield => ?_⟩
    obtain ⟨written, -, -, -, hmembers, -⟩ := forall₂_mem_right hall hfield
    exact hmembers
  · refine (Bound.ofFiles_fields_comparable [drawingFile]).2 _ ⟨"drawing", drawingRecord, true⟩
      (.plain "shapes", .oneOf [.named "Int" [], .named "Shapes" []]) _
      ⟨⟨_, by with_unfolding_all rfl⟩, ⟨[⟨"drawing", shapeRecord, false⟩], [], rfl, ?_⟩, rfl,
        ⟨[(.plain "name", .named "String" [])], [], rfl, ⟨_, by with_unfolding_all rfl⟩, by decide⟩⟩
      rfl (by with_unfolding_all rfl) ⟨shapeType, by simp [Ty.flatten, Ty.flattenAll, shapeType], ?_⟩
    · exact List.forall_mem_singleton.2 ⟨_, by with_unfolding_all rfl⟩
    · exact .interface [] (.inl ⟨⟨"drawing", shapeRecord, false⟩, List.mem_cons_self, rfl, rfl⟩)

/-- `interface Shape(area: () ~> Int)`, `alias Shapes = List<Shape>` and
`struct Holder(handlers: List<(Int) ~> Int>, shapes: Shapes)`. -/
def holderFile : SourceFile :=
  ⟨"holder", ⟨⟨[.plain "main"], .zero⟩, [],
    [.interface shapeRecord,
      .typeAlias (.plain "Shapes" [] (.named "List" [.named "Shape" []])),
      .struct (.plain "Holder" []
        [("handlers", .named "List" [.fn [] [.named "Int" []] (.named "Int" [])]),
          ("shapes", .named "Shapes" [])])]⟩⟩

/-- Functions and interfaces in lists are stored, whether the list is written or an alias. -/
theorem ofFiles_stores_functions :
    ∃ bound, Bound.ofFiles [holderFile] = .ok bound ∧
      bound.table.fields.lookup ⟨"main", "Holder"⟩ =
        some [("handlers", .list handlerType), ("shapes", .list shapeType)] ∧
      ((Ty.list handlerType).Contains handlerType ∧ Incomparable [holderFile] handlerType) ∧
      (Ty.list shapeType).Contains shapeType ∧ Incomparable [holderFile] shapeType := by
  refine ⟨_, by with_unfolding_all rfl, by with_unfolding_all rfl, ⟨?_, .function _ _ _⟩, ?_, ?_⟩
  · exact .generic List.mem_cons_self (.here _)
  · exact .generic List.mem_cons_self (.here _)
  · exact .interface [] (.inl ⟨⟨"holder", shapeRecord, false⟩, List.mem_cons_self, rfl, rfl⟩)

end

end UnionChecker
