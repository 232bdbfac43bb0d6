import UnionChecker.Proofs.Binding.Patches
import UnionChecker.Proofs.Binding.Slots
import UnionChecker.Proofs.Binding.Types
import UnionChecker.Proofs.PackageTypes
import UnionChecker.Proofs.Program.WellTyped
import UnionChecker.Syntax.Construct
/-!
# Linking

An accepted program is closed: every reference to a package-level value leads to an import, to a
constructor or to a declaration of the program (`checkFiles_references_linked`).

Names are looked up in the table. Before declarations are bound, its values are the constructors of
the package, and what a file imports is among the natives under its own name (`Table.Linked`). All
other values are types of slots, in every round of inference (`Backed`), and each slot becomes the
one declaration of its name.
-/

namespace UnionChecker

open Syntax Check

/-! ## What a reference leads to -/

/-- A reference of a type leads to an entry of the program: to an import or a constructor of the
same type, or to the only declaration of that name, if its type can be assigned. -/
inductive Program.Links (p : Program) : Ty → Ref → Prop
  | native {ref : Ref} {signature : Signature}
      (hnative : p.table.natives.lookup ref = some signature) : Program.Links p signature.toTy ref
  | constructor {ref : Ref} {signature : Signature} (hpackage : ref.package = p.table.package)
      (hconstructor : p.table.constructors.lookup ref = some signature) :
      Program.Links p signature.toTy ref
  | declaration {ref : Ref} {d : TypedDeclaration} {ty : Ty}
      (hpackage : ref.package = p.table.package)
      (honly : p.declarations.filter (fun d => d.name == ref.name) = [d])
      (hty : d.ty.isAssignable ty = true) : Program.Links p ty ref

/-! ## Imports and constructors -/

/-- The function that an item of the standard library is. -/
def LibraryItem.signature : LibraryItem → Signature
  | .record r => r.constructor
  | .function s => s

/-- What the table of a package says about values before declarations are bound. -/
structure Table.Linked (home : String) (t : Table) : Prop where
  package : t.package = home
  /-- Whatever a file imports is among the natives, under its own name. -/
  imports : ∀ key imported, t.fileValues.lookup key = some imported →
    ∃ item, Library.lookup imported.origin = some item ∧ imported.type = item.signature.toTy ∧
      t.natives.lookup imported.origin = some item.signature
  /-- The values are the constructors. -/
  values : ∀ name ty, t.values.lookup name = some ty →
    ∃ signature, t.constructors.lookup ⟨home, name⟩ = some signature ∧ ty = signature.toTy

namespace Binding

variable {package : String} {table table' : Table} {slots : List Slot}

theorem importPatch_fileValues (file : String) (target : ImportTarget) (item : LibraryItem) :
    (importPatch file target item).fileValues =
      some ((file, target.localName.text), ⟨target.ref, item.signature.toTy⟩) := by
  cases item <;> rfl

theorem importPatch_natives (file : String) (target : ImportTarget) (item : LibraryItem) :
    (importPatch file target item).natives = some (target.ref, item.signature) := by
  cases item <;> rfl

theorem linked_importPatch {file : String} {target : ImportTarget} {item : LibraryItem}
    (hitem : Library.lookup target.ref = some item) (h : table.Linked package) :
    (table.patch (importPatch file target item)).Linked package := by
  have hnatives : (table.patch (importPatch file target item)).natives =
      put target.ref item.signature table.natives := by
    rw [Table.patch, importPatch_natives]
    rfl
  have hvalues : (table.patch (importPatch file target item)).fileValues =
      put (file, target.localName.text) ⟨target.ref, item.signature.toTy⟩ table.fileValues := by
    rw [Table.patch, importPatch_fileValues]
    rfl
  refine ⟨h.package, fun key imported himported => ?_, ?_⟩
  · rw [hnatives]
    rw [hvalues] at himported
    by_cases hkey : key = (file, target.localName.text)
    · subst hkey
      rw [lookup_put_self] at himported
      cases himported
      exact ⟨item, hitem, rfl, lookup_put_self _ _ _⟩
    · rw [lookup_put_of_ne hkey] at himported
      obtain ⟨item', hitem', hty, hnative⟩ := h.imports key imported himported
      refine ⟨item', hitem', hty, ?_⟩
      by_cases hsame : imported.origin = target.ref
      · -- the standard library has one item under each name
        rw [hsame, hitem] at hitem'
        cases hitem'
        rw [hsame, lookup_put_self]
      · rw [lookup_put_of_ne hsame]
        exact hnative
  · cases item <;> exact h.values

theorem linked_recordType {record : RecordType} (hrecord : record.decl.ref.package = package)
    (h : table.Linked package) : (recordType table record).Linked package := by
  rw [recordType_eq_patch]
  refine ⟨h.package, h.imports, fun name ty hty => ?_⟩
  have hconstructors : (table.patch (recordPatch record)).constructors =
      put record.decl.ref record.constructor table.constructors := rfl
  have hvalues : (table.patch (recordPatch record)).values =
      put record.decl.ref.name record.constructor.toTy table.values := rfl
  rw [hvalues] at hty
  rw [hconstructors]
  by_cases hname : name = record.decl.ref.name
  · subst hname
    rw [lookup_put_self] at hty
    cases hty
    exact ⟨record.constructor, by rw [← hrecord, lookup_put_self], rfl⟩
  · rw [lookup_put_of_ne hname] at hty
    obtain ⟨signature, hsignature, rfl⟩ := h.values name ty hty
    refine ⟨signature, ?_, rfl⟩
    rw [lookup_put_of_ne fun href => hname (congrArg Ref.name href)]
    exact hsignature

theorem linked_bindTypes {files : List SourceFile} {aliasNames : List String}
    (h : bindTypes files = .ok (table, aliasNames)) : table.Linked (packageName files) := by
  refine bindTypes_invariant (I := Table.Linked (packageName files)) ?_ ?_ ?_ ?_ ?_ h
  · exact ⟨rfl, nofun, nofun⟩
  · intro site _ t t' ht hdeclare
    obtain ⟨-, rfl⟩ := declareRecord_eq_ok_iff.1 hdeclare
    exact ⟨ht.package, ht.imports, ht.values⟩
  · intro file _ i _ aliasNames t t' ht himport
    obtain ⟨target, item, -, hitem, hbrought⟩ := bindImport_eq_ok himport
    obtain ⟨-, rfl⟩ := importItem_eq_some_iff.1 hbrought
    exact linked_importPatch hitem ht
  · intro site _ known t ty _ ht _
    exact ⟨ht.package, ht.imports, ht.values⟩
  · intro site _ known t record hknown ht hresolve
    obtain ⟨-, fields, -, rfl⟩ := resolveRecord_eq_ok hresolve
    exact linked_recordType hknown.package ht

/-! ## Declarations -/

/-- A declaration that is typed, or still to be typed, has the name of its slot. -/
def Slot.Named (s : Slot) : Prop := ∀ d, s.Declares d → d.name = s.name

theorem Slot.named_ofDeclaration (file : String) (d : Declaration) :
    (Slot.ofDeclaration file d).Named := by
  intro e he
  obtain ⟨-, hdesugared⟩ := Slot.declares_ofDeclaration.1 he
  obtain ⟨value, -, rfl⟩ := desugarTopDeclaration_eq_ok hdesugared
  rfl

theorem Slot.Named.annotate {s : Slot} (h : s.Named) (table : Table) :
    (s.annotate table).Named := by
  intro d hd
  rw [name_annotate]
  exact h d (declares_of_annotate hd)

theorem Slot.Named.attempt {s : Slot} (h : s.Named) (table : Table) (pending : List String)
    (final : Bool) : (s.attempt table pending final).Named := by
  intro d hd
  rw [(s.later_attempt pending final).name]
  exact h d (declares_of_attempt hd)

/-- Every value is one of another table or the type of a slot. -/
def ValuesFrom (base : Table) (slots : List Slot) (table : Table) : Prop :=
  ∀ name ty, table.values.lookup name = some ty → base.values.lookup name = some ty ∨
    ∃ s ∈ slots, s.name.text = name ∧ ∃ d, s.state = .typed d ty

/-- The table is another one with the types of some slots. -/
structure Backed (base table : Table) (slots : List Slot) : Prop where
  others : ∃ values, table = { base with values }
  values : ValuesFrom base slots table
  named : ∀ s ∈ slots, s.Named
  nodup : (slots.map (·.name.text)).Nodup

theorem Backed.attempts {base : Table} (h : Backed base table slots) (pending : List String)
    (final : Bool) : Backed base table (slots.map (Slot.attempt table pending final)) := by
  refine ⟨h.others, fun name ty hty => ?_, List.forall_mem_map.2 fun s hs => ?_, ?_⟩
  · refine (h.values name ty hty).imp_right ?_
    rintro ⟨s, hs, rfl, d, hstate⟩
    have hlater : s.Later (s.attempt table pending final) := s.later_attempt pending final
    exact ⟨_, List.mem_map_of_mem hs, congrArg Name.text hlater.name, d, hlater.typed hstate⟩
  · exact (h.named s hs).attempt table pending final
  · rw [names_attempts]
    exact h.nodup

theorem Backed.recordSlots {base : Table} (h : Backed base table slots) :
    Backed base (recordSlots table slots) slots := by
  obtain ⟨values, hvalues⟩ := recordSlots_values table slots
  obtain ⟨_, rfl⟩ := h.others
  refine ⟨⟨values, hvalues⟩, ?_, h.named, h.nodup⟩
  refine foldl_invariant (I := ValuesFrom base slots) (fun t s hs ht => ?_) h.values
  split
  · rename_i d ty hstate
    intro name ty' hlookup
    -- the name of this slot has its type now, all others are as they were
    by_cases hname : name = s.name.text
    · subst hname
      rw [lookup_put_self] at hlookup
      cases hlookup
      exact .inr ⟨s, hs, rfl, d, hstate⟩
    · rw [lookup_put_of_ne hname] at hlookup
      exact ht name ty' hlookup
  · exact ht

theorem Backed.inferenceRounds {base : Table} :
    ∀ (rounds : Nat) {table : Table} {slots : List Slot}, Backed base table slots →
    Backed base (inferenceRounds rounds table slots).1 (inferenceRounds rounds table slots).2
  | 0, table, slots, h => h.attempts _ _
  | rounds + 1, table, slots, h => by
    simp only [Binding.inferenceRounds]
    split
    · exact Backed.inferenceRounds rounds (h.attempts _ _).recordSlots
    · exact h.attempts _ _

/-- Declarations are bound as slots whose types are the only new values. -/
theorem backed_bindDeclarations {aliasNames : List String} {files : List SourceFile}
    {declarations : List BoundDeclaration}
    (h : bindDeclarations table aliasNames files = .ok (table', declarations)) :
    ∃ slots, Backed table table' slots ∧ declarations = slots.map Slot.bound := by
  rw [bindDeclarations, bind_eq_ok] at h
  obtain ⟨slots, hslots, h⟩ := h
  cases h
  refine ⟨_, Backed.inferenceRounds _ (Backed.recordSlots ?_), rfl⟩
  obtain ⟨hnd, -⟩ := collectSlots_names hslots
  obtain ⟨-, -, rfl⟩ := collectSlots_eq_ok_iff.1 hslots
  refine ⟨⟨table.values, rfl⟩, fun name ty hty => .inl hty, ?_, ?_⟩
  · simp only [List.forall_mem_map]
    exact fun d _ => (Slot.named_ofDeclaration d.1 d.2).annotate table
  · rw [List.map_map]
    simpa only [Function.comp_def, name_annotate] using hnd

end Binding

/-! ## Programs -/

theorem PackageCheck.name_of_checked {table : Table} {pending : List String} {s : Binding.Slot}
    {typed : TypedDeclaration} (hs : s.Named) (h : checked table pending s.bound = .ok typed) :
    typed.name = s.name.text := by
  obtain ⟨d, ty, -, hresult, hname, -⟩ := checked_eq_ok h
  rw [hname, hs d (.inr ⟨ty, s.bound_result_eq_ok.1 hresult⟩)]

/-- The declarations of a program are what checking its slots gives, under a table that has no other
values than constructors and the types of slots. -/
structure Program.BuiltFrom (p : Program) (base : Table) (slots : List Binding.Slot) : Prop where
  linked : base.Linked p.table.package
  backed : Binding.Backed base p.table slots
  checked : List.Forall₂ (fun s d => PackageCheck.checked p.table [] s.bound = .ok d) slots
    p.declarations

theorem checkFiles_builtFrom {config : Config} {files : List SourceFile} {p : Program}
    (h : checkFiles config files = .ok p) : ∃ base slots, p.BuiltFrom base slots := by
  obtain ⟨bound, hbound, htable, hall⟩ := checkFiles_bound h
  obtain ⟨base, aliasNames, htypes, hdeclarations⟩ := Bound.ofFiles_eq_ok.1 hbound
  obtain ⟨slots, hbacked, hslots⟩ := Binding.backed_bindDeclarations hdeclarations
  rw [← htable] at hbacked
  rw [hslots, List.forall₂_map_left_iff] at hall
  have hlinked : base.Linked p.table.package := by
    obtain ⟨values, hothers⟩ := hbacked.others
    have hbase := Binding.linked_bindTypes htypes
    rwa [hothers, hbase.package]
  exact ⟨base, slots, hlinked, hbacked, hall⟩

namespace Program

variable {p : Program} {base : Table} {slots : List Binding.Slot}

/-- There is one declaration for each slot, with its name. -/
theorem BuiltFrom.names_eq (h : p.BuiltFrom base slots) :
    p.declarations.map (·.name) = slots.map (·.name.text) := by
  refine (map_eq_map_of_forall₂ h.checked fun s hs d _ hchecked => ?_).symm
  exact (PackageCheck.name_of_checked (h.backed.named s hs) hchecked).symm

theorem BuiltFrom.links_slot (h : p.BuiltFrom base slots) {s : Binding.Slot} (hs : s ∈ slots)
    {d : Declaration} {ty : Ty} (hstate : s.state = .typed d ty) :
    p.Links ty ⟨p.table.package, s.name.text⟩ := by
  obtain ⟨typed, htyped, hchecked⟩ := forall₂_mem_left h.checked hs
  have hname : typed.name = s.name.text :=
    PackageCheck.name_of_checked (h.backed.named s hs) hchecked
  have hnd : (p.declarations.map (·.name)).Nodup := by
    rw [h.names_eq]
    exact h.backed.nodup
  obtain ⟨d', ty', frames, hresult, -, hrun⟩ := PackageCheck.checked_eq_ok hchecked
  cases (s.bound_result_eq_ok.2 hstate).symm.trans hresult
  have hty : typed.ty.isAssignable ty = true := fits_some.1 (typed_checkTerm _ d.value hrun).2
  rw [← hname]
  exact .declaration rfl (filter_key_eq_singleton hnd htyped) hty

/-- Whatever a name refers to is linked, unless it is local. -/
theorem BuiltFrom.links_resolveValue (h : p.BuiltFrom base slots) {file name home : String}
    {frames : Frames} {found : Resolved}
    (hfound : Context.resolveValue ⟨p.table, file, []⟩ frames name = .ok found)
    (hhome : found.package = some home) : p.Links found.type ⟨home, found.name⟩ := by
  obtain ⟨values, hothers⟩ := h.backed.others
  rcases resolveValue_cases hfound with ⟨ty, -, rfl⟩ | ⟨imported, himported, rfl⟩ |
    ⟨ty, hvalue, rfl⟩
  · -- locals have no package
    cases hhome
  · cases hhome
    rw [hothers] at himported
    obtain ⟨item, -, hty, hnative⟩ := h.linked.imports _ imported himported
    rw [hty]
    refine .native ?_
    rw [hothers]
    exact hnative
  · cases hhome
    rcases h.backed.values name ty hvalue with hvalue | ⟨s, hs, rfl, d, hstate⟩
    · obtain ⟨signature, hsignature, rfl⟩ := h.linked.values name ty hvalue
      have hconstructors : p.table.constructors = base.constructors := by rw [hothers]
      exact .constructor rfl (hconstructors ▸ hsignature)
    · exact h.links_slot hs hstate

/-- References to package-level values are linked. -/
def LinksNode (p : Program) : TypedExpr → Prop
  | .reference ty (some package) name => p.Links ty ⟨package, name⟩
  | _ => True

theorem BuiltFrom.builds_linksNode (h : p.BuiltFrom base slots) (file : String) :
    Builds ⟨p.table, file, []⟩ p.LinksNode where
  plain e he := by cases e <;> first | exact trivial | cases he
  reference frames name found hfound := by
    obtain ⟨type, home, name'⟩ := found
    cases home with
    | none => exact trivial
    | some home => exact h.links_resolveValue hfound rfl
  choice _ _ _ _ _ _ := trivial

theorem BuiltFrom.linksNode (h : p.BuiltFrom base slots) : ∀ n ∈ p.nodes, p.LinksNode n := by
  intro n hn
  obtain ⟨typed, htyped, hn⟩ := List.mem_flatMap.1 hn
  obtain ⟨s, -, hs⟩ := forall₂_mem_right h.checked htyped
  obtain ⟨d, ty, frames, -, -, hrun⟩ := PackageCheck.checked_eq_ok hs
  exact everywhere_checkTerm (h.builds_linksNode _) d.value (some ty) _ _ _ hrun n hn

end Program

/-- **Programs are closed.** In an accepted package every reference to a package-level value leads
to an import or a constructor of its type, or to the one declaration of its name. -/
theorem checkFiles_references_linked {config : Config} {files : List SourceFile} {p : Program}
    (h : checkFiles config files = .ok p) {ty : Ty} {package name : String}
    (href : .reference ty (some package) name ∈ p.nodes) : p.Links ty ⟨package, name⟩ := by
  obtain ⟨base, slots, hbuilt⟩ := checkFiles_builtFrom h
  exact hbuilt.linksNode _ href

/-! ## A package with all kinds of references -/

section

/-- Uses of an import under another name, of a constructor, and of declarations that come later. -/
def countFile : SourceFile :=
  ⟨"count", ⟨⟨[.plain "main"], .zero⟩,
    [⟨[.plain "tenecs", .plain "int", .plain "plus"], some (.plain "add"), .zero⟩],
    [.declaration (.plain "start" none (.call "Point" [] [.var "next", .literal (.int 1)])),
      .declaration (.plain "next" none (.call "add" [] [.var "first", .literal (.int 2)]))]⟩⟩

def pointFile : SourceFile :=
  ⟨"point", ⟨⟨[.plain "main"], .zero⟩, [],
    [.struct (.plain "Point" [] [("x", itemExpr "Int"), ("y", itemExpr "Int")]),
      .declaration (.plain "first" none (.literal (.int 3)))]⟩⟩

def plusSignature : Signature := ⟨[], [("a", .int), ("b", .int)], .int⟩

def pointType : RecordType := ⟨⟨⟨"main", "Point"⟩, [], true⟩, [("x", .int), ("y", .int)]⟩

def pointProgram : Program :=
  ⟨{ package := "main"
     types := [("Point", .named pointType.decl [])]
     values := [("first", .int), ("next", .int), ("start", pointType.decl.declared),
       ("Point", pointType.constructor.toTy)]
     fileValues := [(("count", "add"), ⟨⟨"tenecs.int", "plus"⟩, plusSignature.toTy⟩)]
     fields := [(pointType.decl.ref, pointType.fields)]
     constructors := [(pointType.decl.ref, pointType.constructor)]
     natives := [(⟨"tenecs.int", "plus"⟩, plusSignature)]
     nativePackages := [(("count", "add"), "tenecs.int")] },
    [⟨"start", .invocation pointType.decl.declared
        (.reference pointType.constructor.toTy (some "main") "Point") []
        [.reference .int (some "main") "next", .literal (.int 1) .int]⟩,
      ⟨"next", .invocation .int (.reference plusSignature.toTy (some "tenecs.int") "plus") []
        [.reference .int (some "main") "first", .literal (.int 2) .int]⟩,
      ⟨"first", .literal (.int 3) .int⟩]⟩

/-- What is known before declarations are bound. -/
def pointTable : Table :=
  { pointProgram.table with values := [("Point", pointType.constructor.toTy)] }

def pointDeclarations : List Binding.BoundDeclaration :=
  [⟨"count", .plain "start", .zero, .ok (.plain "start" none
      (.call "Point" [] [.var "next", .literal (.int 1)]), pointType.decl.declared)⟩,
    ⟨"count", .plain "next", .zero, .ok (.plain "next" none
      (.call "add" [] [.var "first", .literal (.int 2)]), .int)⟩,
    ⟨"point", .plain "first", .zero, .ok (.plain "first" none (.literal (.int 3)), .int)⟩]

theorem pointFiles_bound :
    Bound.ofFiles [countFile, pointFile] = .ok ⟨pointProgram.table, pointDeclarations⟩ := by
  refine Bound.ofFiles_eq_ok.2 ⟨pointTable, [], ?_, ?_⟩
  · with_unfolding_all rfl
  · with_unfolding_all rfl

theorem pointFiles_accepted :
    checkFiles .sequential [countFile, pointFile] = .ok pointProgram :=
  checkFiles_of_bound pointFiles_bound (by with_unfolding_all rfl)

theorem checkFiles_references_linked_point :
    checkFiles .sequential [countFile, pointFile] = .ok pointProgram ∧
      pointProgram.Links plusSignature.toTy ⟨"tenecs.int", "plus"⟩ ∧
      pointProgram.Links pointType.constructor.toTy ⟨"main", "Point"⟩ ∧
      pointProgram.Links .int ⟨"main", "next"⟩ ∧ pointProgram.Links .int ⟨"main", "first"⟩ := by
  refine ⟨pointFiles_accepted, ?_, ?_, ?_, ?_⟩
  · exact checkFiles_references_linked pointFiles_accepted (List.mem_of_getElem? (i := 5) rfl)
  · exact checkFiles_references_linked pointFiles_accepted (List.mem_of_getElem? (i := 1) rfl)
  · exact checkFiles_references_linked pointFiles_accepted (List.mem_of_getElem? (i := 2) rfl)
  · exact checkFiles_references_linked pointFiles_accepted (List.mem_of_getElem? (i := 6) rfl)

end

end UnionChecker
