import UnionChecker.Library
import UnionChecker.Proofs.Ty.Reading
import UnionChecker.Proofs.Value.Tests
/-!
# The names of types that can be tested

A `when` can test neither function types nor generics. So when the names of declared types are
identifiers, the types that it can test are told apart by their names (`members_of_name_eq`).
-/

namespace UnionChecker

/-- A built-in type, or one of a named package whose name is an identifier, at all its generics. -/
def Nominal.Legible (decl : Nominal) (args : Nat) : Prop :=
  args = decl.formals.length ∧ ((∃ t ∈ Library.defaultTypes, t.1 = decl) ∨
    isIdentifier decl.ref.name = true ∧ isDotted decl.ref.package = true)

/-- A built-in type stands with as many generics as it is declared with. -/
def Nominal.AtArity (decl : Nominal) (args : Nat) : Prop :=
  ∀ t ∈ Library.defaultTypes, t.1.ref = decl.ref → args = t.1.formals.length

namespace Ty

/-! ## Types that can be tested -/

/-- Types that can be tested, with legible names. Only the elements of a list may be of a union. -/
inductive Shown : Ty → Prop
  | record {decl : Nominal} {args : List Ty} (hdecl : decl.ref.Legible)
      (hlist : decl.ref ≠ ⟨"", "List"⟩) (h : ∀ t ∈ args, Shown t) : Shown (.named decl args)
  | list {decl : Nominal} {t : Ty} (hdecl : decl.ref = ⟨"", "List"⟩) (h : ∀ m ∈ t.members, Shown m) :
      Shown (.named decl [t])

theorem legible_list : Ref.Legible ⟨"", "List"⟩ :=
  Ref.legible_of_isIdentifier (by decide) (.inl rfl)

theorem Shown.readable {t : Ty} (h : Shown t) : ReadableMember t := by
  induction h with
  | record hdecl _ _ ih =>
    exact ⟨⟨.named hdecl fun t ht => (ih t ht).worded, .named fun t ht => (ih t ht).flat⟩, rfl⟩
  | list hdecl _ ih =>
    obtain ⟨hworded, hflat⟩ := readable_of_members ih
    exact ⟨⟨.named (hdecl ▸ legible_list) (List.forall_mem_singleton.2 hworded),
      .named (List.forall_mem_singleton.2 hflat)⟩, rfl⟩

theorem readable_of_shown {t : Ty} (h : ∀ m ∈ t.members, Shown m) : Readable t :=
  readable_of_members fun m hm => (h m hm).readable

/-- Types whose members can be tested have equal members if they have one name. -/
theorem members_of_name_eq {a b : Ty} (ha : ∀ m ∈ a.members, Shown m)
    (hb : ∀ m ∈ b.members, Shown m) (h : a.name = b.name) :
    List.Forall₂ (fun x y => x.equal y = true) a.members b.members :=
  (readable_of_shown ha).members_of_name_eq (readable_of_shown hb) h

/-- Declared types have legible names, and no union is a member of a union. -/
inductive Legible : Ty → Prop
  | var (x : String) : Legible (.var x)
  | named {decl : Nominal} {args : List Ty} (hdecl : decl.Legible args.length)
      (h : ∀ t ∈ args, Legible t) : Legible (.named decl args)
  | fn {gs : List String} {ps : List (String × Ty)} {r : Ty} (hp : ∀ p ∈ ps, Legible p.2)
      (hr : Legible r) : Legible (.fn gs ps r)
  | union {ms : List Ty} (h : ∀ m ∈ ms, Legible m) (hflat : ∀ m ∈ ms, m.isUnion = false) :
      Legible (.union ms)

theorem Legible.of_mem_flatten {t m : Ty} (h : Legible t) (hm : m ∈ t.flatten) :
    Legible m ∧ m.isUnion = false := by
  cases h with
  | union h hflat =>
    rw [flatten, flattenAll_of_not_isUnion hflat] at hm
    exact ⟨h m hm, hflat m hm⟩
  | var x => rw [List.mem_singleton.1 hm]; exact ⟨.var x, rfl⟩
  | named hdecl h => rw [List.mem_singleton.1 hm]; exact ⟨.named hdecl h, rfl⟩
  | fn hp hr => rw [List.mem_singleton.1 hm]; exact ⟨.fn hp hr, rfl⟩

theorem Legible.flat {t : Ty} (h : Legible t) : Flat t := by
  induction h with
  | var x => exact .var x
  | named _ _ ih => exact .named ih
  | fn _ _ ihp ihr => exact .fn ihp ihr
  | union _ hflat ih => exact .union ih hflat

theorem legible_join {ts : List Ty} (h : ∀ t ∈ ts, Legible t) : Legible (.join ts) := by
  have hmem : ∀ m ∈ flattenAll ts, Legible m ∧ m.isUnion = false := by
    intro m hm
    rw [flattenAll_eq_flatMap] at hm
    obtain ⟨t, ht, hm⟩ := List.mem_flatMap.1 hm
    exact (h t ht).of_mem_flatten hm
  rcases unionWith_cases equal ts with hone | ⟨ms, hms, hsub⟩
  · exact (hmem _ hone).1
  · rw [join, hms]
    exact .union (fun m hm => (hmem m (hsub m hm)).1) fun m hm => (hmem m (hsub m hm)).2

theorem hereditary_legible : Hereditary (fun _ => True) Nominal.Legible Legible where
  var := iff_of_true (.var _) trivial
  named := ⟨fun h => by cases h with | named hdecl h => exact ⟨hdecl, h⟩, fun h => .named h.1 h.2⟩
  fn := ⟨fun h => by cases h with | fn hp hr => exact ⟨fun _ _ => trivial, hp, hr⟩,
    fun h => .fn h.2.1 h.2.2⟩
  member h hm := by cases h with | union h => exact h _ hm
  join := legible_join

end Ty

/-- All names in the standard library are identifiers, in dotted packages. -/
theorem library_names {ref : Ref} {item : LibraryItem} (h : Library.lookup ref = some item) :
    isIdentifier ref.name = true ∧ isDotted ref.package = true := by
  have hall : ∀ item ∈ Library.items,
      isIdentifier item.1.name = true ∧ isDotted item.1.package = true := by decide +kernel
  exact hall _ (mem_of_lookup_eq_some h)

namespace Nominal.Legible

variable {decl : Nominal} {n : Nat}

theorem ref (h : decl.Legible n) : decl.ref.Legible := by
  rcases h.2 with ⟨t, ht, rfl⟩ | ⟨hname, hpackage⟩
  · have hbuiltin : ∀ t ∈ Library.defaultTypes,
        isIdentifier t.1.ref.name = true ∧ t.1.ref.package = "" := by decide
    obtain ⟨hname, hpackage⟩ := hbuiltin t ht
    exact Ref.legible_of_isIdentifier hname (.inl hpackage)
  · exact Ref.legible_of_isIdentifier hname (.inr hpackage)

theorem atArity (h : decl.Legible n) : decl.AtArity n := by
  intro s hs href
  rcases h.2 with ⟨t, ht, rfl⟩ | ⟨-, hpackage⟩
  · have hbuiltin : ∀ s ∈ Library.defaultTypes, ∀ t ∈ Library.defaultTypes,
        s.1.ref = t.1.ref → s.1.formals.length = t.1.formals.length := by decide
    rw [h.1, hbuiltin s hs t ht href]
  · have hbuiltin : ∀ s ∈ Library.defaultTypes, s.1.ref.package = "" := by decide
    simp [← href, hbuiltin s hs, isDotted] at hpackage

end Nominal.Legible

theorem Nominal.AtArity.void {decl : Nominal} {args : List Ty} (h : decl.AtArity args.length)
    (href : decl.ref = ⟨"", "Void"⟩) : args = [] :=
  List.length_eq_zero_iff.1
    (h (⟨⟨"", "Void"⟩, [], true⟩, []) (by simp [Library.defaultTypes]) href.symm)

theorem Nominal.AtArity.list {decl : Nominal} {t : Ty} {ts : List Ty}
    (h : decl.AtArity (t :: ts).length) (href : decl.ref = ⟨"", "List"⟩) : ts = [] := by
  have hlength := h (⟨⟨"", "List"⟩, ["T"], true⟩, [.var "T"])
    (by simp [Library.defaultTypes]) href.symm
  simpa using hlength

namespace Ty

/-- Declared types have legible names, and built-in ones as many generics as they are declared
with. -/
inductive WellNamed : Ty → Prop
  | var (x : String) : WellNamed (.var x)
  | named {decl : Nominal} {args : List Ty} (hname : decl.ref.Legible)
      (harity : decl.AtArity args.length) (h : ∀ t ∈ args, WellNamed t) : WellNamed (.named decl args)
  | fn {gs : List String} {ps : List (String × Ty)} {r : Ty} (hp : ∀ p ∈ ps, WellNamed p.2)
      (hr : WellNamed r) : WellNamed (.fn gs ps r)
  | union {ms : List Ty} (h : ∀ m ∈ ms, WellNamed m) : WellNamed (.union ms)

theorem WellNamed.of_mem_args {decl : Nominal} {args : List Ty} (h : WellNamed (.named decl args)) :
    ∀ t ∈ args, WellNamed t := by
  cases h with
  | named _ _ h => exact h

theorem WellNamed.atArity {decl : Nominal} {args : List Ty} (h : WellNamed (.named decl args)) :
    decl.AtArity args.length := by
  cases h with
  | named _ harity => exact harity

theorem WellNamed.of_mem_union {ms : List Ty} (h : WellNamed (.union ms)) :
    ∀ m ∈ ms, WellNamed m := by
  cases h with
  | union h => exact h

theorem Legible.wellNamed {t : Ty} (h : Legible t) : WellNamed t := by
  induction h with
  | var x => exact .var x
  | named hdecl _ ih => exact .named hdecl.ref hdecl.atArity ih
  | fn _ _ ihp ihr => exact .fn ihp ihr
  | union _ _ ih => exact .union ih

variable {matchFields : MatchFields}

/-- What can be tested is made of types that are known by their names. -/
theorem WellNamed.shown (t : Ty) : ∀ {position : Discriminator.Position} {test : Discriminator},
    WellNamed t → Flat t → Discriminator.synthesize matchFields position t = .ok test →
    ∀ m ∈ t.members, Shown m := by
  induction t with
  | var x => exact fun _ _ h => (Discriminator.synthesize_var_ne_ok h).elim
  | fn gs ps r => exact fun _ _ h => (Discriminator.synthesize_fn_ne_ok h).elim
  | union ms ih =>
    intro position test hnamed hflat h m hm
    obtain ⟨tests, htests, -⟩ := Discriminator.synthesize_union_eq_ok h
    obtain ⟨test, -, htest⟩ := forall₂_mem_left htests hm
    obtain ⟨hms, hnested⟩ := flat_union.1 hflat
    cases hnamed with
    | union hnamed =>
      refine ih m hm (hnamed m hm) (hms m hm) htest m ?_
      simp [members_of_not_isUnion (hnested m hm)]
  | named decl args ih =>
    intro position test hnamed hflat h m hm
    obtain rfl := List.mem_singleton.1 hm
    rw [flat_named] at hflat
    cases hnamed with
    | named hname harity hargs =>
      rcases Discriminator.synthesize_named_eq_ok h with ⟨href, -⟩ |
        ⟨href, element, rest, inner, rfl, helement, -⟩ | ⟨-, hlist, ws, -, hws⟩
      · obtain rfl := harity.void href
        exact .record hname (by simp [href]) (by simp)
      · obtain rfl := harity.list href
        exact .list href (ih element (by simp) (hargs element (by simp)) (hflat element (by simp))
          helement)
      · refine .record hname hlist fun t ht => ?_
        obtain ⟨w, -, hw⟩ := forall₂_mem_left (Discriminator.synthesizeWitnesses_eq_ok hws).1 ht
        refine ih t ht (hargs t ht) (hflat t ht) hw t ?_
        cases t with
        | union ms => simp [Discriminator.synthesize] at hw
        | var | named | fn => simp [members]

theorem shown_of_test (t : Ty) {position : Discriminator.Position} {test : Discriminator}
    (hlegible : Legible t) (h : Discriminator.synthesize matchFields position t = .ok test) :
    ∀ m ∈ t.members, Shown m :=
  hlegible.wellNamed.shown t hlegible.flat h

end Ty

end UnionChecker
