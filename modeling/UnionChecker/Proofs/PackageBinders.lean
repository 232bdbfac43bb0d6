import UnionChecker.Proofs.PackageLinks
/-!
# The names that packages bind

`true` and `false` stand for literals, and `_` for nothing. A declaration called `true` or `false` is
refused, at package level and inside blocks. The names of parameters, arms and short circuits are not
looked at, so these are the only places where such a name can be bound (`checkFiles_reserved_names`).
No local is ever called `_`. A declaration, a struct or an interface of the package may be, and can
then be referred to.
-/

namespace UnionChecker

open Syntax Check

/-! ## Frames -/

namespace Frames

variable {frames : Frames}

/-- No local is called `_`. -/
def Clean (frames : Frames) : Prop := ∀ frame ∈ frames, frame.values.lookup "_" = none

theorem Clean.value? (h : frames.Clean) : frames.value? "_" = none :=
  List.findSome?_eq_none_iff.2 h

theorem Clean.modifyInnermost (h : frames.Clean) {f : Frame → Frame}
    (hf : ∀ frame, frame.values.lookup "_" = none → (f frame).values.lookup "_" = none) :
    (frames.modifyInnermost f).Clean := by
  cases frames with
  | nil => exact List.forall_mem_singleton.2 (hf {} rfl)
  | cons frame frames =>
    obtain ⟨hframe, hframes⟩ := List.forall_mem_cons.1 h
    exact List.forall_mem_cons.2 ⟨hf frame hframe, hframes⟩

theorem Clean.pop (h : frames.Clean) : frames.pop.Clean := by
  unfold Frames.pop
  split
  · exact (List.forall_mem_cons.1 h).2
  · exact h

theorem closed_clean : Closed Clean where
  value {frames frames' name ty} h hdefined := by
    unfold defineValue at hdefined
    split at hdefined
    · cases hdefined
      exact h
    · rename_i hname
      split at hdefined <;> cases hdefined
      refine h.modifyInnermost fun frame hframe => ?_
      rw [lookup_put_of_ne fun heq => hname (by simp [← heq])]
      exact hframe
  generic h hdefined := by
    unfold defineGeneric at hdefined
    split at hdefined <;> cases hdefined
    exact h.modifyInnermost fun _ hframe => hframe
  push h := List.forall_mem_cons.2 ⟨rfl, h⟩
  pop := Clean.pop

end Frames

/-! ## Values -/

namespace Binding

variable {files : List SourceFile} {table : Table} {aliasNames : List String}

/-- Before declarations are bound, the values of a package are its constructors. -/
theorem values_bindTypes (h : bindTypes files = .ok (table, aliasNames)) {name : String} {ty : Ty}
    (hvalue : table.values.lookup name = some ty) :
    name ∈ (recordSites files).map (·.record.name.text) := by
  refine bindTypes_invariant (I := fun t : Table => ∀ name ty, t.values.lookup name = some ty →
    name ∈ (recordSites files).map (·.record.name.text)) ?_ ?_ ?_ ?_ ?_ h name ty hvalue
  · intro name ty hvalue
    cases hvalue
  · intro site _ t t' ht hdeclare
    obtain ⟨-, rfl⟩ := declareRecord_eq_ok_iff.1 hdeclare
    exact ht
  · intro file _ i _ aliasNames t t' ht himport
    obtain ⟨target, item, -, -, hbrought⟩ := bindImport_eq_ok himport
    obtain ⟨-, rfl⟩ := importItem_eq_some_iff.1 hbrought
    cases item <;> exact ht
  · intro site _ known t ty _ ht _
    exact ht
  · intro site hsite known t record _ ht hresolve name ty hvalue
    obtain ⟨-, fields, -, rfl⟩ := resolveRecord_eq_ok hresolve
    rw [recordType_eq_patch] at hvalue
    by_cases hname : name = site.record.name.text
    · subst hname
      exact List.mem_map_of_mem hsite
    · exact ht name ty ((lookup_put_of_ne hname _ _).symm.trans hvalue)

end Binding

open Binding

theorem library_name_ne {ref : Ref} {item : LibraryItem} (h : Library.lookup ref = some item) :
    ref.name ≠ "_" := by
  have hall : ∀ item ∈ Library.items, item.1.name ≠ "_" := by decide
  exact hall _ (mem_of_lookup_eq_some h)

/-- Every declaration of a program is a declaration of the source, checked without its sugar. -/
theorem checkFiles_sources {config : Config} {files : List SourceFile} {p : Program}
    (h : checkFiles config files = .ok p) {typed : TypedDeclaration}
    (htyped : typed ∈ p.declarations) :
    ∃ file source d ty frames, (file, source) ∈ files.flatMap valueDeclarations ∧
      ¬ Reserved source.name.text ∧ typed.name = source.name.text ∧
      desugarTopDeclaration file source = .ok d ∧
      Runs (checkTerm ⟨p.table, file, []⟩ d.value (some ty)) .initial typed.value frames := by
  obtain ⟨bound, hbound, htable, hall⟩ := checkFiles_bound h
  obtain ⟨base, aliasNames, -, hdeclarations⟩ := Bound.ofFiles_eq_ok.1 hbound
  obtain ⟨b, hb, hchecked⟩ := forall₂_mem_right hall htyped
  obtain ⟨d, ty, frames, hresult, hsame, hrun⟩ := PackageCheck.checked_eq_ok hchecked
  obtain ⟨source, hsource, -, hdeclares⟩ := declared_bindDeclarations hdeclarations b hb
  obtain ⟨hname, hdesugared⟩ := hdeclares d ty hresult
  refine ⟨b.file, source, d, ty, frames, hsource, hname, ?_, hdesugared, hrun⟩
  obtain ⟨value, -, rfl⟩ := desugarTopDeclaration_eq_ok hdesugared
  exact hsame

/-! ## Names in programs -/

/-- A declaration, a struct or an interface of the files has a name. -/
def DefinesValue (files : List SourceFile) (name : String) : Prop :=
  name ∈ (recordSites files).map (·.record.name.text) ∨
    name ∈ (files.flatMap valueDeclarations).map (·.2.name.text)

/-- A name that refers to something called `_` does not refer to a local or an import. -/
theorem resolveValue_underscore {config : Config} {files : List SourceFile} {p : Program}
    (h : checkFiles config files = .ok p) {frames : Frames} (hframes : frames.Clean)
    {file name : String} {found : Resolved}
    (hfound : Context.resolveValue ⟨p.table, file, []⟩ frames name = .ok found)
    (hname : found.name = "_") : found.package = some p.table.package ∧ DefinesValue files "_" := by
  obtain ⟨bound, hbound, htable, -⟩ := checkFiles_bound h
  obtain ⟨base, aliasNames, htypes, hdeclarations⟩ := Bound.ofFiles_eq_ok.1 hbound
  obtain ⟨slots, hbacked, hslots⟩ := backed_bindDeclarations hdeclarations
  rw [← htable] at hbacked
  obtain ⟨values, hothers⟩ := hbacked.others
  rcases Check.resolveValue_cases hfound with ⟨ty, hvalue, rfl⟩ | ⟨imported, himported, rfl⟩ |
    ⟨ty, hvalue, rfl⟩
  · obtain rfl : name = "_" := hname
    cases hframes.value?.symm.trans hvalue
  · rw [hothers] at himported
    obtain ⟨item, hitem, -⟩ := (linked_bindTypes htypes).imports _ imported himported
    exact (library_name_ne hitem hname).elim
  · obtain rfl : name = "_" := hname
    refine ⟨rfl, ?_⟩
    rcases hbacked.values "_" ty hvalue with hvalue | ⟨s, hs, hname, -⟩
    · exact .inl (values_bindTypes htypes hvalue)
    · have hbound : s.bound ∈ bound.declarations := by
        rw [hslots]
        exact List.mem_map_of_mem hs
      obtain ⟨d, hd, hsame, -⟩ := declared_bindDeclarations hdeclarations _ hbound
      exact .inr (List.mem_map.2 ⟨_, hd, (congrArg Name.text hsame).symm.trans hname⟩)

/-- Names in a node are as they should be: those that it binds are bound in the source, and `_`
refers to what is called so in the package. -/
structure NamesOk (files : List SourceFile) (home : String) (names : List String) (n : TypedExpr) :
    Prop where
  binds : n.BindsAmong names
  underscore : ∀ ty package, n = .reference ty package "_" →
    package = some home ∧ DefinesValue files "_"

theorem TypedExpr.BindsAmong.mem {names : List String} {n : TypedExpr} {x : String}
    (h : n.BindsAmong names) (hx : x ∈ n.binders) (hreserved : Reserved x) : x ∈ names := by
  cases n with
  | declaration name value =>
    obtain rfl := List.mem_singleton.1 hx
    exact (h hreserved).elim
  | _ => exact h hx

theorem makes_namesOk {config : Config} {files : List SourceFile} {p : Program}
    (h : checkFiles config files = .ok p) (file : String) (names : List String) :
    Makes ⟨p.table, file, []⟩ Frames.Clean names
      (NamesOk files p.table.package names) where
  frames := Frames.closed_clean
  reference hframes hfound := by
    refine ⟨List.nil_subset _, fun ty package heq => ?_⟩
    obtain ⟨-, rfl, hname⟩ := TypedExpr.reference.inj heq
    exact resolveValue_underscore h hframes hfound hname
  node href hsound := by
    refine ⟨hsound.binds, fun ty package heq => ?_⟩
    subst heq
    cases href

theorem namesOk_nodes {config : Config} {files : List SourceFile} {p : Program}
    (h : checkFiles config files = .ok p) {n : TypedExpr} (hn : n ∈ p.nodes) :
    ∃ d ∈ files.flatMap valueDeclarations,
      NamesOk files p.table.package (unusedBinding :: d.2.value.binders) n := by
  obtain ⟨typed, htyped, hn⟩ := List.mem_flatMap.1 hn
  obtain ⟨file, source, d, ty, frames, hsource, -, -, hdesugared, hrun⟩ :=
    checkFiles_sources h htyped
  obtain ⟨value, hvalue, rfl⟩ := desugarTopDeclaration_eq_ok hdesugared
  have hbinders : value.binders ⊆ unusedBinding :: source.value.binders :=
    binders_desugarTerm List.mem_cons_self (List.subset_cons_self _ _) hvalue
  have hclean : Frames.Clean .initial := List.forall_mem_singleton.2 rfl
  have hmade := made_checkTerm (makes_namesOk h file _) hbinders hclean hrun
  exact ⟨(file, source), hsource, hmade.1.1 n hn⟩

/-- **Reserved names.** No declaration of an accepted package is called `true` or `false`, at package
level or inside. Where such a name is bound nevertheless, a parameter, an arm or a short circuit of
the source is called so. A reference to `_` is not to a local or an import, and needs a declaration,
a struct or an interface of this name in the package. -/
theorem checkFiles_reserved_names {config : Config} {files : List SourceFile} {p : Program}
    (h : checkFiles config files = .ok p) :
    (∀ d ∈ p.declarations, ¬ Reserved d.name) ∧
    (∀ name value, .declaration name value ∈ p.nodes → ¬ Reserved name) ∧
    (∀ n ∈ p.nodes, ∀ x ∈ n.binders, Reserved x →
      ∃ d ∈ files.flatMap valueDeclarations, x ∈ d.2.value.binders) ∧
    ∀ ty package, .reference ty package "_" ∈ p.nodes →
      package = some p.table.package ∧ DefinesValue files "_" := by
  refine ⟨fun d hd => ?_, fun name value hn => ?_, fun n hn x hx hreserved => ?_,
    fun ty package hn => ?_⟩
  · obtain ⟨file, source, -, -, -, -, hname, hsame, -⟩ := checkFiles_sources h hd
    rwa [hsame]
  · obtain ⟨_, -, hok⟩ := namesOk_nodes h hn
    exact hok.binds
  · obtain ⟨d, hd, hok⟩ := namesOk_nodes h hn
    refine ⟨d, hd, (List.mem_cons.1 (hok.binds.mem hx hreserved)).resolve_left ?_⟩
    rintro rfl
    exact absurd hreserved (by simp [Reserved, unusedBinding])
  · obtain ⟨_, -, hok⟩ := namesOk_nodes h hn
    exact hok.underscore ty package rfl

/-! ## Packages with such names -/

section

/-- `Int | String`. -/
def wordExpr : TypeExpr := .oneOf [itemExpr "Int", itemExpr "String"]

def wordType : Ty := .union [.int, .string]

/-- A parameter and a short circuit that are called `_`. -/
def skipFile : SourceFile :=
  ⟨"skip", ⟨⟨[.plain "main"], .zero⟩, [],
    [.declaration (.plain "skip" none (.lambda []
      [("x", some wordExpr), ("_", some (itemExpr "Int"))] (some wordExpr)
      [.shortCircuit "_" (some (itemExpr "Int")) (some (itemExpr "String")) (.var "x"),
        .declare "y" none none (.literal (.int 1)), .var "y"]))]⟩⟩

def skipDeclarations : List TypedDeclaration :=
  [⟨"skip", .function ⟨⟨[], [("x", wordType), ("_", .int)], wordType⟩, ["x", "_"],
    [.choice wordType (.reference wordType none "x")
      [⟨some unusedBinding, .int, .tag ⟨"", "Int"⟩ [],
          [.declaration "y" (.literal (.int 1) .int), .reference .int none "y"]⟩,
        ⟨some unusedBinding, .string, .tag ⟨"", "String"⟩ [],
          [.reference .string none unusedBinding]⟩] none none]⟩⟩]

theorem skipFile_accepted :
    ∃ table, checkFiles .sequential [skipFile] = .ok ⟨table, skipDeclarations⟩ :=
  ⟨_, by with_unfolding_all rfl⟩

theorem checkFiles_reserved_names_skip :
    ∃ p, checkFiles .sequential [skipFile] = .ok p ∧ (∀ d ∈ p.declarations, ¬ Reserved d.name) ∧
      (∃ value, .declaration "y" value ∈ p.nodes ∧ ¬ Reserved "y") ∧
      (∀ n ∈ p.nodes, ∀ x ∈ n.binders, ¬ Reserved x) ∧
      ∀ ty package, .reference ty package "_" ∉ p.nodes := by
  obtain ⟨table, haccepted⟩ := skipFile_accepted
  obtain ⟨hdeclarations, hlocals, hbinders, hunderscore⟩ := checkFiles_reserved_names haccepted
  have hlocal : .declaration "y" (.literal (.int 1) .int) ∈
      Program.nodes ⟨table, skipDeclarations⟩ := List.mem_of_getElem? (i := 3) rfl
  refine ⟨_, haccepted, hdeclarations, ⟨_, hlocal, hlocals _ _ hlocal⟩, ?_, ?_⟩
  · intro n hn x hx hreserved
    obtain ⟨d, hd, hmem⟩ := hbinders n hn x hx hreserved
    obtain rfl := List.mem_singleton.1 hd
    have hnames : x ∈ ["x", "_", "_"] := hmem
    rcases hreserved with rfl | rfl <;> revert hnames <;> decide
  · intro ty package hn
    have hdefined : DefinesValue [skipFile] "_" := (hunderscore ty package hn).2
    revert hdefined
    exact not_or.2 ⟨by decide, by decide⟩

/-- A parameter called `true`, a short circuit called `false`, and a declaration called `_`. -/
def literalsFile : SourceFile :=
  ⟨"literals", ⟨⟨[.plain "main"], .zero⟩, [],
    [.declaration (.plain "same" none (.lambda [] [("true", some (itemExpr "Int"))]
        (some (itemExpr "Int")) [.var "true"])),
      .declaration (.plain "either" none (.lambda [] [("x", some wordExpr)] (some wordExpr)
        [.shortCircuit "false" (some (itemExpr "Int")) (some (itemExpr "String")) (.var "x"),
          .var "false"])),
      .declaration (.plain "_" (some (itemExpr "Int")) (.literal (.int 1))),
      .declaration (.plain "copy" (some (itemExpr "Int")) (.var "_"))]⟩⟩

def literalsDeclarations : List TypedDeclaration :=
  [⟨"same", .function ⟨⟨[], [("true", .int)], .int⟩, ["true"], [.reference .int none "true"]⟩⟩,
    ⟨"either", .function ⟨⟨[], [("x", wordType)], wordType⟩, ["x"],
      [.choice wordType (.reference wordType none "x")
        [⟨some "false", .int, .tag ⟨"", "Int"⟩ [], [.reference .int none "false"]⟩,
          ⟨some "false", .string, .tag ⟨"", "String"⟩ [], [.reference .string none "false"]⟩]
        none none]⟩⟩,
    ⟨"_", .literal (.int 1) .int⟩,
    ⟨"copy", .reference .int (some "main") "_"⟩]

theorem literalsFile_accepted :
    ∃ table, checkFiles .sequential [literalsFile] = .ok ⟨table, literalsDeclarations⟩ :=
  ⟨_, by with_unfolding_all rfl⟩

/-- The name `true` is an integer inside `same`, and `false` has two meanings inside `either`. -/
theorem checkFiles_binds_literals :
    ∃ p, checkFiles .sequential [literalsFile] = .ok p ∧
      (∃ f, .function f ∈ p.nodes ∧ "true" ∈ f.params) ∧
      (∃ type subject cases other name, .choice type subject cases other name ∈ p.nodes ∧
        ∃ c ∈ cases, c.name = some "false") ∧
      .reference .int (some "main") "_" ∈ p.nodes := by
  obtain ⟨table, haccepted⟩ := literalsFile_accepted
  refine ⟨_, haccepted, ⟨_, List.mem_of_getElem? (i := 0) rfl, List.mem_cons_self⟩, ?_,
    List.mem_of_getElem? (i := 8) rfl⟩
  exact ⟨_, _, _, _, _, List.mem_of_getElem? (i := 3) rfl, _, List.mem_cons_self, rfl⟩

end

end UnionChecker
