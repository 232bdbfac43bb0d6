import UnionChecker.Proofs.Spelling.Package
import UnionChecker.Syntax.Construct
/-!
# Calling a generic by another name

Inference compares generics by their names, and unions are sorted by the names of their members. So a
generic cannot be called by just any name: under a name that another generic has it is taken for that
one, and under a name elsewhere in the order the members of a union change places, which inference goes
through one by one (`checkFiles_clash_and_order`). Apart from that it does not matter how a generic is
called (`checkFiles_rename`).
-/

namespace UnionChecker

open Syntax Binding

/-! ## Names in the same order -/

theorem lt_iff_not_lt_of_ne {as bs : List Char} (h : as ≠ bs) : bs < as ↔ ¬ as < bs := by
  refine ⟨fun hlt => List.lt_asymm hlt, fun hlt => ?_⟩
  by_contra hlt'
  exact h (List.le_antisymm (List.not_lt.1 hlt') (List.not_lt.1 hlt))

theorem append_singleton_ne {x y : String} (h : x ≠ y) (c d : Char) :
    x.toList ++ [c] ≠ y.toList ++ [d] := fun heq =>
  h (String.toList_inj.1 (List.append_inj' heq rfl).1)

theorem SameOrder.flip {x y x' y' : String} (h : SameOrder x y x' y') (hxy : x ≠ y)
    (hxy' : x' ≠ y') : SameOrder y x y' x' := by
  intro c hc d hd
  rw [lt_iff_not_lt_of_ne (append_singleton_ne hxy d c),
    lt_iff_not_lt_of_ne (append_singleton_ne hxy' d c), h d hd c hc]

/-- A name that starts with a letter, a digit or an underscore. -/
def isWord (text : String) : Bool :=
  isIdentifier text && text.toList.head?.any fun c => Text.isAlphanumeric c || c == '_'

theorem isIdentifier_of_isWord {x : String} (h : isWord x = true) : isIdentifier x = true :=
  (Bool.and_eq_true _ _ ▸ h).1

theorem lt_of_isAlphanumeric {c : Char} (h : Text.isAlphanumeric c = true) : '$' < c := by
  have hruns : ∀ run ∈ Text.alphanumericRuns, '0'.toNat ≤ run.first := by decide +kernel
  obtain ⟨run, hrun, hc⟩ := List.any_eq_true.1 h
  simp only [Text.Run.contains, Bool.and_eq_true, decide_eq_true_eq] at hc
  exact lt_of_lt_of_le (by decide : '$'.toNat < '0'.toNat) ((hruns run hrun).trans hc.1.1)

/-- Positional names come before words. -/
theorem positional_lt {x : String} (hx : isWord x = true) (depth index : Nat) (c d : Char) :
    (Ty.positional depth index).toList ++ [c] < x.toList ++ [d] := by
  simp only [isWord, Bool.and_eq_true, Option.any_eq_true] at hx
  obtain ⟨-, first, hfirst, hword⟩ := hx
  obtain ⟨rest, hrest⟩ := List.head?_eq_some_iff.1 hfirst
  rw [Ty.toList_positional, hrest, List.cons_append, List.cons_append, List.cons_lt_cons_iff]
  refine Or.inl ?_
  rcases Bool.or_eq_true _ _ ▸ hword with h | h
  · exact lt_of_isAlphanumeric h
  · rw [beq_iff_eq.1 h]
    decide

theorem bare_of_isIdentifier {x : String} (h : isIdentifier x = true) : Bare x := by
  simp only [isIdentifier, Bool.and_eq_true, List.all_eq_true] at h
  exact ⟨fun hc => by simpa [isNameChar] using h.2 _ hc,
    fun hc => by simpa [isNameChar] using h.2 _ hc⟩

theorem bare_positional (depth index : Nat) : Bare (Ty.positional depth index) := by
  have hdigits : ∀ {c : Char} {n : Nat}, c ∈ Nat.toDigits 10 n → c ≠ ',' ∧ c ≠ '>' := by
    intro c n hc
    have := Nat.isDigit_of_mem_toDigits (by omega) (by omega) hc
    exact ⟨by rintro rfl; simp at this, by rintro rfl; simp at this⟩
  rw [Bare, Ty.toList_positional]
  simp only [List.mem_cons, List.mem_append, not_or]
  exact ⟨⟨by decide, fun h => (hdigits h).1 rfl, by decide, fun h => (hdigits h).1 rfl⟩,
    ⟨by decide, fun h => (hdigits h).2 rfl, by decide, fun h => (hdigits h).2 rfl⟩⟩

theorem ne_positional {x : String} (hx : isIdentifier x = true) (depth index : Nat) :
    Ty.positional depth index ≠ x := by
  rintro rfl
  simp only [isIdentifier, Bool.and_eq_true, List.all_eq_true] at hx
  have := hx.2 '$' (by rw [Ty.toList_positional]; exact List.mem_cons_self)
  simp [isNameChar] at this

/-! ## One name for another -/

instance (x : String) : Decidable (Bare x) := inferInstanceAs (Decidable (_ ∧ _))

-- the instance for lists is named, as all characters would be gone through with the one for `Char`
instance (x y x' y' : String) : Decidable (SameOrder x y x' y') :=
  @List.decidableBAll Char _ (fun c =>
    @List.decidableBAll Char _ (fun d =>
      inferInstanceAs (Decidable (x.toList ++ [c] < y.toList ++ [d] ↔
        x'.toList ++ [c] < y'.toList ++ [d]))) _) _

/-- Call `G` by the name `H`. -/
def rename (G H x : String) : String := if x = G then H else x

/-- What a generic may be called where `G` gets the name `H`: it is not `H`, and if it is not `G`
either, it is in the same order with both. -/
structure Beside (G H x : String) : Prop where
  bare : Bare x
  ne : x ≠ H
  order : x ≠ G → SameOrder x G x H

instance (G H x : String) : Decidable (Beside G H x) :=
  decidable_of_iff (Bare x ∧ x ≠ H ∧ (x ≠ G → SameOrder x G x H))
    ⟨fun h => ⟨h.1, h.2.1, h.2.2⟩, fun h => ⟨h.bare, h.ne, h.order⟩⟩

/-- What a generic may be called that keeps its name. -/
def Kept (G H x : String) : Prop := Beside G H x ∧ rename G H x = x

instance (G H x : String) : Decidable (Kept G H x) := inferInstanceAs (Decidable (_ ∧ _))

/-- The generic `G` in the values of a package may be called `H`. -/
structure Renamable (G H : String) (files : List SourceFile) : Prop where
  old : isWord G = true
  new : isWord H = true
  /-- In values `H` is not written, and all generics are in the same order with it as with `G`. -/
  values : ∀ d ∈ files.flatMap valueDeclarations, d.2.Uses ⟨Beside G H, (· ≠ H)⟩
  /-- The generics of the types that are declared, and of what is imported, are others than `G`. -/
  types : TypesUse ⟨Kept G H, fun _ => True⟩ files
  library : ∀ g ∈ Library.generics (packageName files), Kept G H g
  /-- Neither `G` nor `H` is the name of a type. -/
  names : TypeNames (fun x => x ≠ G ∧ x ≠ H) files
  builtin : ∀ t ∈ Library.defaultTypes, t.1.ref.name ≠ G ∧ t.1.ref.name ≠ H
  records : ∀ site ∈ recordSites files, isIdentifier site.record.name.text = true
  package : isDotted (packageName files) = true

section

variable {G H x y : String} {files : List SourceFile}

theorem rename_inj (hx : x ≠ H) (hy : y ≠ H) (h : rename G H x = rename G H y) : x = y := by
  unfold rename at h
  split at h <;> split at h
  · simp_all
  · exact absurd h.symm hy
  · exact absurd h hx
  · exact h

theorem beside_positional (hG : isWord G = true) (hH : isWord H = true) (depth index : Nat) :
    Beside G H (Ty.positional depth index) where
  bare := bare_positional depth index
  ne := ne_positional (isIdentifier_of_isWord hH) depth index
  order _ c _ d _ :=
    iff_of_true (positional_lt hG depth index c d) (positional_lt hH depth index c d)

theorem bare_rename (hH : isWord H = true) (hx : Beside G H x) : Bare (rename G H x) := by
  unfold rename
  split
  · exact bare_of_isIdentifier (isIdentifier_of_isWord hH)
  · exact hx.bare

theorem sameOrder_rename (hx : Beside G H x) (hy : Beside G H y) (hxy : x ≠ y) :
    SameOrder x y (rename G H x) (rename G H y) := by
  unfold rename
  by_cases hxG : x = G <;> by_cases hyG : y = G
  · exact absurd (hxG.trans hyG.symm) hxy
  · rw [if_pos hxG, if_neg hyG, hxG]
    exact (hy.order hyG).flip hyG hy.ne
  · rw [if_neg hxG, if_pos hyG, hyG]
    exact hx.order hxG
  · rw [if_neg hxG, if_neg hyG]
    exact fun _ _ _ _ => Iff.rfl

/-- Calling `G` by the name `H` as a respelling. -/
def Respelling.renaming (G H : String) (hG : isWord G = true) (hH : isWord H = true) :
    Respelling where
  generic := Beside G H
  decl d := d.ref.Legible ∧ Library.Within (Kept G H) d.ref ∧
    (d.ref.package = "" ∨ ∀ x ∈ d.formals, Kept G H x)
  spell := rename G H
  written x := x ≠ H
  written_of_generic h := h.ne
  spell_inj := rename_inj
  positional := beside_positional hG hH
  spell_positional depth index := if_neg (ne_positional (isIdentifier_of_isWord hG) depth index)
  bare h := ⟨h.bare, bare_rename hH h⟩
  order := sameOrder_rename
  legible h := h.1
  builtin {t} ht := by
    have hpackage : ∀ t ∈ Library.defaultTypes, t.1.ref.package = "" := by decide
    have hgenerics : Library.generics "" = [] := by decide
    refine ⟨Nominal.Legible.ref ⟨rfl, Or.inl ⟨t, ht, rfl⟩⟩, ?_, Or.inl (hpackage t ht)⟩
    rw [Library.Within, hpackage t ht, hgenerics]
    exact List.forall_mem_nil _

theorem mem_generics_of_mem_formals {ref : Ref} {record : RecordType}
    (h : Library.lookup ref = some (.record record)) (hx : x ∈ record.decl.formals) :
    x ∈ Library.generics ref.package := by
  have hitem : (ref, LibraryItem.record record) ∈
      Library.items.filter fun item => item.1.package == ref.package :=
    List.mem_filter.2 ⟨mem_of_lookup_eq_some h, beq_self_eq_true _⟩
  exact List.mem_flatMap.2 ⟨_, hitem, List.mem_append_left _ hx⟩

theorem Respelling.renaming_keepsTypes (hG : isWord G = true) (hH : isWord H = true) :
    (Respelling.renaming G H hG hH).KeepsTypes where
  formals _ hd := hd.2.2
  within _ hd := hd.2.1
  library ref record hwithin hrecord := by
    have href := library_ref hrecord
    refine ⟨Nominal.Legible.ref ⟨rfl, Or.inr (href ▸ library_names hrecord)⟩, href ▸ hwithin, ?_⟩
    exact Or.inr fun x hx => hwithin x (mem_generics_of_mem_formals hrecord hx)

theorem Renamable.suits (h : Renamable G H files) :
    (Respelling.renaming G H h.old h.new).Suits (fun x => x ≠ G ∧ x ≠ H) files where
  toKeepsTypes := Respelling.renaming_keepsTypes h.old h.new
  values := h.values
  types := h.types
  records site hsite := by
    refine ⟨Nominal.Legible.ref ⟨rfl, Or.inr ⟨h.records site hsite, h.package⟩⟩, h.library, Or.inr ?_⟩
    exact List.forall_mem_map.2 (h.types.records site hsite).1
  package hempty := by
    have hdotted := h.package
    simp [hempty, isDotted] at hdotted
  names := h.names
  builtin := h.builtin
  apart x _ hx := by
    have hxG : x = G := by_contra fun hne => hx (if_neg hne)
    exact ⟨fun hK => hK.1 hxG, fun hK => hK.2 (if_pos hxG)⟩

/-- **It does not matter how a generic is called**, as long as no other generic has its old or its new
name, and all others are in the same order with both names. If one lambda has the generic `G`, calling
it `H` is to call it so in the generics of this lambda and in all annotations inside of it, and nothing
else is changed. -/
theorem checkFiles_rename {G H : String} {files : List SourceFile} (h : Renamable G H files)
    (config : Config) :
    (∃ p, checkFiles config (files.map (·.respell (rename G H))) = .ok p) ↔
      ∃ p, checkFiles config files = .ok p :=
  Respelling.checkFiles_respell h.suits config

/-! ## A package whose generic is renamed -/

theorem exists_eq_ok_iff {ε α : Type} {x : Except ε α} : (∃ a, x = .ok a) ↔ x.isOk = true := by
  cases x <;> simp [Except.isOk, Except.toBool]

/-- A function with a generic in a union and inside a struct, and a call that infers it. -/
def boxFile : SourceFile :=
  ⟨"box", ⟨⟨[.plain "main"], .zero⟩, [],
    [.struct ⟨.plain "Box", [.plain "T"], [(.plain "value", .named "T" [])], .zero⟩,
      .declaration (.plain "pick" none (.lambda ["A"]
        [("x", some (.oneOf [.named "A" [], .named "Int" []])),
          ("box", some (.named "Box" [.named "A" []]))]
        (some (.oneOf [.named "A" [], .named "Int" []])) [.var "x"])),
      .declaration (.plain "use" none (.lambda [] [("box", some (.named "Box" [.named "String" []]))]
        (some (.oneOf [.named "String" [], .named "Int" []]))
        [.call "pick" [] [.literal (.int 1), .var "box"]]))]⟩⟩

theorem boxFile_accepted : ∃ p, checkFiles .sequential [boxFile] = .ok p :=
  exists_eq_ok_iff.2 (by decide +kernel)

theorem boxFile_renamable : Renamable "A" "C" [boxFile] where
  old := by decide
  new := by decide
  values := by
    have hA : Beside "A" "C" "A" := by decide +kernel
    simp [hA, boxFile, valueDeclarations, Declaration.plain, Declaration.Uses, Term.Uses, Term.ofExpr,
      Term.lambda, Term.literal, Term.var, Term.call, Term.arguments, Expr.Uses, Lambda.Uses,
      Arguments.Uses, termsUse, linksUse, itemsUse, optionUses, TypeExpr.Uses, TypeExpr.named,
      TypeExpr.oneOf, Alternative.Uses, alternativesUse, typesUse, Wording.Binds, Name.plain]
  types := by
    have hT : Kept "A" "C" "T" := by decide +kernel
    refine ⟨?_, by simp [boxFile, aliasSites, AliasSite.ofTopLevel?], by simp [boxFile]⟩
    simp [hT, boxFile, recordSites, RecordSite.ofTopLevel?, Record.Uses, Wording.Binds,
      TypeExpr.Uses, TypeExpr.named, alternativesUse, Alternative.Uses, typesUse, Name.plain]
  library := by decide
  names := ⟨by decide, by decide, by simp [boxFile]⟩
  builtin := by decide
  records := by decide
  package := by decide

/-- Instead of `A`, the generic of a function may be called `C`. -/
theorem checkFiles_rename_box :
    ∃ p, checkFiles .sequential ([boxFile].map (·.respell (rename "A" "C"))) = .ok p :=
  (checkFiles_rename boxFile_renamable .sequential).2 boxFile_accepted

/-! ## Names that matter -/

/-- A function with a generic `A`, which calls `map`, where the generics are `A` and `B`. -/
def onesFile : SourceFile :=
  ⟨"ones", ⟨⟨[.plain "main"], .zero⟩,
    [⟨[.plain "tenecs", .plain "list", .plain "map"], none, .zero⟩],
    [.declaration (.plain "ones" none (.lambda ["A"] [("xs", some (.named "List" [.named "A" []]))]
      (some (.named "List" [.named "Int" []]))
      [.call "map" [] [.var "xs", .lambda [] [("x", none)] none [.literal (.int 1)]]]))]⟩⟩

/-- A function with a union whose members differ in the order of the generics `A` and `B`, and a call
where `B` is written and `A` is left open. -/
def swapFile : SourceFile :=
  ⟨"swap", ⟨⟨[.plain "main"], .zero⟩, [],
    [.struct ⟨.plain "Pair", [.plain "T", .plain "U"],
        [(.plain "first", .named "T" []), (.plain "second", .named "U" [])], .zero⟩,
      .declaration (.plain "swap" none (.lambda ["A", "B"]
        [("p", some (.oneOf [.named "Pair" [.named "A" [], .named "B" []],
          .named "Pair" [.named "B" [], .named "A" []]]))]
        (some (.named "Void" [])) [.literal .null])),
      .declaration (.plain "use" none (.lambda ["C"]
        [("p", some (.named "Pair" [.oneOf [.named "C" [], .named "Int" []], .named "C" []]))]
        (some (.named "Void" [])) [.call "swap" [.hole, .named "C" []] [.var "p"]]))]⟩⟩

/-- In the first package `A` is inferred for the generic `A` of `map`, and so this generic looks as if
it were still open when the lambda without annotations is checked; with another name for the caller's
generic it does not. In the second one `Pair<A, B>` comes before `Pair<B, A>`, and with `Z` for `A` it
comes after it. So the two types for the open generic are found in another order, and only a wider one
may follow. -/
theorem checkFiles_clash_and_order :
    ((¬ ∃ p, checkFiles .sequential [onesFile] = .ok p) ∧
      ∃ p, checkFiles .sequential ([onesFile].map (·.respell (rename "A" "H"))) = .ok p) ∧
    (¬ ∃ p, checkFiles .sequential [swapFile] = .ok p) ∧
      ∃ p, checkFiles .sequential ([swapFile].map (·.respell (rename "A" "Z"))) = .ok p := by
  simp only [exists_eq_ok_iff]
  refine ⟨⟨?_, ?_⟩, ?_, ?_⟩
  · decide +kernel
  · decide +kernel
  · decide +kernel
  · decide +kernel

end

end UnionChecker
