import UnionChecker.Proofs.Value.Names
/-!
# Tests tell types apart

A test forgets much of a type: how its generics were called where it was declared, whether it can be
stored in a struct, and all that the names of its parts do not show. Still, two types in normal form
have the same test exactly when they are equal (`ofTy_eq_iff_equal`).

That one test belongs to one type is read off the test. For the converse, equal unions could list
their members in different orders. They do not: members are sorted by name, equal types that can be
tested have one name (`Worded.name_eq`), and a name belongs to one type, so that the members are equal
one by one (`Normal.forall₂_members`).
-/

namespace UnionChecker

namespace Ty

/-! ## Equal types in normal form -/

/-- **Equal types in normal form have equal members in the same order.** -/
theorem Normal.forall₂_members {a b : Ty} (ha : Normal a) (hb : Normal b)
    (hsa : ∀ m ∈ a.members, Shown m) (hsb : ∀ m ∈ b.members, Shown m) (h : a.equal b = true) :
    List.Forall₂ (fun x y => x.equal y = true) a.members b.members :=
  members_of_name_eq hsa hsb ((readable_of_shown hsa).worded.name_eq a (readable_of_shown hsb).worded
    ha hb h)

theorem Normal.not_forall₂_singleton {R : Ty → Ty → Prop} {ms : List Ty} {t : Ty}
    (h : Normal (.union ms)) : ¬ List.Forall₂ R ms [t] := fun hms => by
  cases h with
  | union _ _ _ hlength => exact hlength hms.length_eq

end Ty

namespace Discriminator

open Ty

/-! ## Types and their tests -/

/-- Which test a type has, by its form. -/
inductive Tests (matchFields : MatchFields) : Ty → Discriminator → Prop
  | void {decl : Nominal} {args : List Ty} (href : decl.ref = ⟨"", "Void"⟩) :
      Tests matchFields (.named decl args) .void
  | list {decl : Nominal} {t : Ty} {rest : List Ty} {inner : Discriminator}
      (href : decl.ref = ⟨"", "List"⟩) (h : synthesize matchFields .arm t = .ok inner) :
      Tests matchFields (.named decl (t :: rest)) (.list inner)
  | tag {decl : Nominal} {args : List Ty} {ref : Ref} {ws : List (String × Discriminator)}
      (href : decl.ref = ref) (hvoid : ref ≠ ⟨"", "Void"⟩) (hlist : ref ≠ ⟨"", "List"⟩)
      (h : synthesizeWitnesses matchFields decl ((matchFields.lookup ref).getD []) decl.formals
        args = .ok ws) : Tests matchFields (.named decl args) (.tag ref ws)
  | anyOf {ms : List Ty} {tests : List Discriminator}
      (h : List.Forall₂ (fun m test => synthesize matchFields .arm m = .ok test) ms tests) :
      Tests matchFields (.union ms) (.anyOf tests)

variable {matchFields : MatchFields}

theorem tests_of_synthesize {t : Ty} {position : Position} {test : Discriminator}
    (h : synthesize matchFields position t = .ok test) : Tests matchFields t test := by
  cases t with
  | var x => exact (synthesize_var_ne_ok h).elim
  | fn gs ps r => exact (synthesize_fn_ne_ok h).elim
  | union ms =>
    obtain ⟨tests, htests, rfl⟩ := synthesize_union_eq_ok h
    exact .anyOf htests
  | named decl args =>
    rcases synthesize_named_eq_ok h with ⟨href, rfl⟩ |
      ⟨href, t, rest, inner, rfl, ht, rfl⟩ | ⟨hvoid, hlist, ws, rfl, hws⟩
    · exact .void href
    · exact .list href ht
    · exact .tag rfl hvoid hlist hws

/-- **What a test is for can be read off it.** -/
theorem equal_of_test_eq (t : Ty) : ∀ {u : Ty} {position position' : Position} {test : Discriminator},
    WellNamed t → WellNamed u → synthesize matchFields position t = .ok test →
    synthesize matchFields position' u = .ok test → t.equal u = true := by
  induction t with
  | var x => exact fun _ _ h => (synthesize_var_ne_ok h).elim
  | fn gs ps r => exact fun _ _ h => (synthesize_fn_ne_ok h).elim
  | union ms ih =>
    intro u position position' test ht hu h h'
    cases tests_of_synthesize h with
    | anyOf hms =>
      cases tests_of_synthesize h' with
      | anyOf hns =>
        refine equal_of_members (forall₂_comp hms hns.flip fun m hm test _ n hn htest htest' => ?_)
        exact ih m hm (ht.of_mem_union m hm) (hu.of_mem_union n hn) htest htest'
  | named decl args ih =>
    intro u position position' test ht hu h h'
    cases tests_of_synthesize h with
    | void href =>
      cases tests_of_synthesize h' with
      | void href' =>
        obtain rfl := ht.atArity.void href
        obtain rfl := hu.atArity.void href'
        exact equal_named.2 ⟨href.trans href'.symm, .nil⟩
    | list href helement =>
      cases tests_of_synthesize h' with
      | list href' helement' =>
        obtain rfl := ht.atArity.list href
        obtain rfl := hu.atArity.list href'
        refine equal_named.2 ⟨href.trans href'.symm, .cons ?_ .nil⟩
        exact ih _ (by simp) (ht.of_mem_args _ (by simp)) (hu.of_mem_args _ (by simp)) helement
          helement'
    | tag href _ _ hws =>
      cases tests_of_synthesize h' with
      | tag href' _ _ hws' =>
        -- one witness for each generic, so the generics are equal one by one
        have hargs := (synthesizeWitnesses_eq_ok hws).1
        have hargs' := (synthesizeWitnesses_eq_ok hws').1
        refine equal_named.2 ⟨href.trans href'.symm, forall₂_comp hargs hargs'.flip
          fun a ha w _ b hb hw hw' => ?_⟩
        exact ih a ha (ht.of_mem_args a ha) (hu.of_mem_args b hb) hw hw'

/-- The types have no different tests. -/
def SameTest (matchFields : MatchFields) (t u : Ty) : Prop :=
  ∀ {position position' : Position} {d e : Discriminator},
    synthesize matchFields position t = .ok d → synthesize matchFields position' u = .ok e → d = e

theorem tests_eq_of_sameTest {ms ns : List Ty} (h : List.Forall₂ (SameTest matchFields) ms ns) :
    ∀ {tests tests' : List Discriminator},
      List.Forall₂ (fun m test => synthesize matchFields .arm m = .ok test) ms tests →
      List.Forall₂ (fun n test => synthesize matchFields .arm n = .ok test) ns tests' →
      tests = tests' := by
  induction h with
  | nil =>
    rintro _ _ ⟨⟩ ⟨⟩
    rfl
  | cons hmn _ ih =>
    rintro _ _ (_ | ⟨htest, htests⟩) (_ | ⟨htest', htests'⟩)
    rw [hmn htest htest', ih htests htests']

/-- The witness fields depend only on the struct, and their tests on the generics. -/
theorem witnesses_eq_of_sameTest {decl decl' : Nominal} {args args' : List Ty}
    (hargs : List.Forall₂ (SameTest matchFields) args args') :
    ∀ {fields : List (Option String)} {formals formals' : List String}
      {ws ws' : List (String × Discriminator)},
      synthesizeWitnesses matchFields decl fields formals args = .ok ws →
      synthesizeWitnesses matchFields decl' fields formals' args' = .ok ws' → ws = ws' := by
  induction hargs with
  | nil =>
    intro fields formals formals' ws ws' h h'
    rw [synthesizeWitnesses] at h h'
    cases h
    cases h'
    rfl
  | cons hab _ ih =>
    intro fields formals formals' ws ws' h h'
    rw [synthesizeWitnesses] at h h'
    cases hfield : fields.head?.join with
    | none => rw [hfield] at h; cases h
    | some field =>
      rw [hfield] at h h'
      obtain ⟨test, htest, h⟩ := bind_eq_ok.1 h
      obtain ⟨rest, hrest, h⟩ := bind_eq_ok.1 h
      obtain ⟨test', htest', h'⟩ := bind_eq_ok.1 h'
      obtain ⟨rest', hrest', h'⟩ := bind_eq_ok.1 h'
      cases h
      cases h'
      rw [hab htest htest', ih hrest hrest']

/-- **Equal types in normal form have the same test.** -/
theorem sameTest_of_equal (t : Ty) : ∀ {u : Ty}, Normal t → Normal u → WellNamed t → WellNamed u →
    t.equal u = true → SameTest matchFields t u := by
  induction t with
  | var x => exact fun _ _ _ _ _ _ _ _ _ h => (synthesize_var_ne_ok h).elim
  | fn gs ps r => exact fun _ _ _ _ _ _ _ _ _ h => (synthesize_fn_ne_ok h).elim
  | union ms ih =>
    intro u hnt hnu ht hu hequal position position' d e h h'
    have hmembers := hnt.forall₂_members hnu (ht.shown _ hnt.flat h) (hu.shown _ hnu.flat h') hequal
    cases tests_of_synthesize h with
    | anyOf hms =>
      cases tests_of_synthesize h' with
      -- a union in normal form never has a single member
      | void | list | tag => exact (hnt.not_forall₂_singleton hmembers).elim
      | anyOf hns =>
        have hsame := forall₂_imp_of_mem hmembers fun m hm n hn =>
          ih m hm (hnt.of_mem_members hm) (hnu.of_mem_members hn) (ht.of_mem_union m hm)
            (hu.of_mem_union n hn)
        rw [tests_eq_of_sameTest hsame hms hns]
  | named decl args ih =>
    intro u hnt hnu ht hu hequal position position' d e h h'
    cases u with
    | var x => exact (synthesize_var_ne_ok h').elim
    | fn gs ps r => exact (synthesize_fn_ne_ok h').elim
    | union ns =>
      have hmembers := hnt.forall₂_members hnu (ht.shown _ hnt.flat h) (hu.shown _ hnu.flat h') hequal
      exact (hnu.not_forall₂_singleton hmembers.flip).elim
    | named decl' args' =>
      obtain ⟨href, hargs⟩ := equal_named.1 hequal
      have hsame := forall₂_imp_of_mem hargs fun a ha b hb =>
        ih a ha (hnt.of_mem_args a ha) (hnu.of_mem_args b hb) (ht.of_mem_args a ha)
          (hu.of_mem_args b hb)
      cases tests_of_synthesize h with
      | void hvoid =>
        cases tests_of_synthesize h' with
        | void => rfl
        | list hlist => simp [← href, hvoid] at hlist
        | tag htag hne => exact absurd (htag.symm.trans (href.symm.trans hvoid)) hne
      | list hlist helement =>
        cases tests_of_synthesize h' with
        | void hvoid => simp [← href, hlist] at hvoid
        | list _ helement' => rw [(List.forall₂_cons.1 hsame).1 helement helement']
        | tag htag _ hne => exact absurd (htag.symm.trans (href.symm.trans hlist)) hne
      | tag htag hvoid hlist hws =>
        cases tests_of_synthesize h' with
        | void hvoid' => exact absurd (htag.symm.trans (href.trans hvoid')) hvoid
        | list hlist' => exact absurd (htag.symm.trans (href.trans hlist')) hlist
        | tag htag' _ _ hws' =>
          obtain rfl := htag.symm.trans (href.trans htag')
          rw [witnesses_eq_of_sameTest hsame hws hws']

/-- **Two types in normal form have the same test exactly when they are equal**, whatever fields
witness the generics. So the arms of different types are told apart at run time, and how a type is
written makes no difference. -/
theorem ofTy_eq_iff_equal (matchFields : MatchFields) {t u : Ty} {d e : Discriminator}
    (hnt : t.Normal) (hnu : u.Normal) (ht : t.WellNamed) (hu : u.WellNamed)
    (hd : ofTy matchFields t = .ok d) (he : ofTy matchFields u = .ok e) :
    d = e ↔ t.equal u = true := by
  constructor
  · rintro rfl
    exact equal_of_test_eq t ht hu hd he
  · exact fun h => sameTest_of_equal t hnt hnu ht hu h hd he

/-- A box with a list of numbers and values of another type. -/
def boxOf (generic : String) (t : Ty) : Ty :=
  .named ⟨⟨"demo", "Box"⟩, [generic], true⟩ [.list (.union [.int, t])]

/-- The test of a box looks into its list. -/
def boxTest (inner : Discriminator) : Discriminator :=
  .tag ⟨"demo", "Box"⟩ [("items", .list (.anyOf [.tag ⟨"", "Int"⟩ [], inner]))]

def boxFields : MatchFields := [(⟨"demo", "Box"⟩, [some "items"])]

theorem wellNamed_boxOf (generic : String) {t : Ty} (ht : t = .void ∨ t = .string) :
    (boxOf generic t).WellNamed := by
  have hbuiltin : ∀ {name : String}, name ∈ ["Int", "String", "Void"] →
      (Ty.builtin name).WellNamed := fun {name} hname => by
    have hall : ∀ name ∈ ["Int", "String", "Void"], isIdentifier name = true ∧
      ∀ t ∈ Library.defaultTypes, t.1.ref = ⟨"", name⟩ → 0 = t.1.formals.length := by decide
    exact .named (Ref.legible_of_isIdentifier (hall name hname).1 (.inl rfl)) (hall name hname).2
      (by simp)
  have hbox : Ref.Legible ⟨"demo", "Box"⟩ :=
    Ref.legible_of_isIdentifier (by decide) (.inr (by decide))
  refine .named hbox (by simp [Nominal.AtArity, Library.defaultTypes])
    (List.forall_mem_singleton.2 ?_)
  refine .named legible_list (by simp [Nominal.AtArity, Library.defaultTypes])
    (List.forall_mem_singleton.2 (.union ?_))
  intro m hm
  rcases ht with rfl | rfl <;> rcases List.mem_pair.1 hm with rfl | rfl <;>
    exact hbuiltin (by decide)

theorem normal_boxOf (generic : String) {t : Ty} (ht : t = .void ∨ t = .string) :
    (boxOf generic t).Normal := by
  refine .named (List.forall_mem_singleton.2 (.named (List.forall_mem_singleton.2 ?_)))
  rcases ht with rfl | rfl <;>
    exact .union (by simp [Ty.int, Ty.void, Ty.string, Ty.builtin, Ty.Normal.named]) (by decide)
      (by decide) (by decide) (by decide)

/-- What the generic of the box was called does not matter, what the list holds does. -/
theorem ofTy_eq_iff_equal_boxes :
    ofTy boxFields (boxOf "T" .void) = .ok (boxTest .void) ∧
    ofTy boxFields (boxOf "Item" .void) = .ok (boxTest .void) ∧
    ofTy boxFields (boxOf "T" .string) = .ok (boxTest (.tag ⟨"", "String"⟩ [])) ∧
    (boxOf "T" .void).equal (boxOf "Item" .void) = true ∧
    (boxOf "T" .void).equal (boxOf "T" .string) = false := by
  have hT : ofTy boxFields (boxOf "T" .void) = .ok (boxTest .void) := rfl
  have hItem : ofTy boxFields (boxOf "Item" .void) = .ok (boxTest .void) := rfl
  have hstring : ofTy boxFields (boxOf "T" .string) = .ok (boxTest (.tag ⟨"", "String"⟩ [])) := rfl
  refine ⟨hT, hItem, hstring, ?_, ?_⟩
  · exact (ofTy_eq_iff_equal boxFields (normal_boxOf "T" (.inl rfl)) (normal_boxOf "Item" (.inl rfl))
      (wellNamed_boxOf "T" (.inl rfl)) (wellNamed_boxOf "Item" (.inl rfl)) hT hItem).1 rfl
  · refine Bool.eq_false_iff.2 fun h => ?_
    have hsame := (ofTy_eq_iff_equal boxFields (normal_boxOf "T" (.inl rfl))
      (normal_boxOf "T" (.inr rfl)) (wellNamed_boxOf "T" (.inl rfl)) (wellNamed_boxOf "T" (.inr rfl))
      hT hstring).2 h
    simp [boxTest] at hsame

end Discriminator

end UnionChecker
