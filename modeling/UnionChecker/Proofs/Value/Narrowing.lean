import UnionChecker.Proofs.Value.Exhaustive
/-!
# What a passed test says about a value

A test looks at the witness field of each generic and at nothing else of a record, and an empty list
passes the test of every list type. So a value that passes the test of a case need not have its type:
of a pair of lists the test may see the one that is empty.

Whether it can happen is a matter of the types. A case is settled (`Settled`) when every type that
the subject may have is within the type of the case, or has no values that pass the test, or agrees
with it in all fields that the test does not look at. In a settled case, a value that passes the test
has the type of the case (`Settled.hasType`).
-/

namespace UnionChecker

open Discriminator

variable {table : Table} {ρ : String → Value → Prop}

/-! ## Within, apart and settled -/

/-- All values of the first type have the second, by the form of the types. A generic in scope may be
replaced by a type that has all its values. -/
inductive Within (table : Table) (ρ : String → Value → Prop) : Ty → Ty → Prop
  | equal {a b : Ty} (h : a.equal b = true) : Within table ρ a b
  | var {x : String} {a b : Ty} (hx : ∀ v, ρ x v → HasType table ρ v a) (h : Within table ρ a b) :
      Within table ρ (.var x) b
  /-- Functions cannot be looked into. -/
  | fn {gs hs : List String} {ps qs : List (String × Ty)} {r s : Ty} :
      Within table ρ (.fn gs ps r) (.fn hs qs s)
  | named {d e : Nominal} {as bs : List Ty} (href : d.ref = e.ref) (hlength : as.length = bs.length)
      (h : ∀ a b, (a, b) ∈ as.zip bs → Within table ρ a b) : Within table ρ (.named d as) (.named e bs)
  | left {ms : List Ty} {b : Ty} (h : ∀ m ∈ ms, Within table ρ m b) : Within table ρ (.union ms) b
  | right {a m : Ty} {ms : List Ty} (hm : m ∈ ms) (h : Within table ρ a m) :
      Within table ρ a (.union ms)

/-- No value of the first type passes the test for the second. -/
inductive Apart (table : Table) (ρ : String → Value → Prop) : Ty → Ty → Prop
  | var {x : String} {a b : Ty} (hx : ∀ v, ρ x v → HasType table ρ v a) (h : Apart table ρ a b) :
      Apart table ρ (.var x) b
  | fn {gs : List String} {ps : List (String × Ty)} {r b : Ty} : Apart table ρ (.fn gs ps r) b
  | tag {d e : Nominal} {as bs : List Ty} (href : d.ref ≠ e.ref) :
      Apart table ρ (.named d as) (.named e bs)
  /-- The witness field of a generic fails its test. -/
  | witness {d e : Nominal} {as bs : List Ty} {a b : Ty} (hvoid : e.ref ≠ ⟨"", "Void"⟩)
      (hlist : e.ref ≠ ⟨"", "List"⟩) (hab : (a, b) ∈ as.zip bs) (h : Apart table ρ a b) :
      Apart table ρ (.named d as) (.named e bs)
  | left {ms : List Ty} {b : Ty} (h : ∀ m ∈ ms, Apart table ρ m b) : Apart table ρ (.union ms) b
  | right {a : Ty} {ms : List Ty} (h : ∀ m ∈ ms, Apart table ρ a m) : Apart table ρ a (.union ms)

/-- A field that tests look at: the witness field of a generic. -/
def Signature.IsWitness (s : Signature) (field : String × Ty) : Prop :=
  ∃ (i : Nat) (g : String), s.generics[i]? = some g ∧ field.2 = .var g ∧
    (witnessFields s.generics s.params)[i]? = some (some field.1)

/-- The test for the second type tells of the values of the first which have the second. -/
inductive Settled (table : Table) (ρ : String → Value → Prop) : Ty → Ty → Prop
  | within {a b : Ty} (h : Within table ρ a b) : Settled table ρ a b
  | apart {a b : Ty} (h : Apart table ρ a b) : Settled table ρ a b
  | var {x : String} {a b : Ty} (hx : ∀ v, ρ x v → HasType table ρ v a) (h : Settled table ρ a b) :
      Settled table ρ (.var x) b
  | list {d e : Nominal} {a b : Ty} (hlist : e.ref = ⟨"", "List"⟩) (h : Settled table ρ a b) :
      Settled table ρ (.named d [a]) (.named e [b])
  /-- The generics are settled, and all fields but the witness fields have types within. -/
  | record {d e : Nominal} {as bs : List Ty} {generic : Signature} (href : d.ref = e.ref)
      (hlist : e.ref ≠ ⟨"", "List"⟩)
      (hgeneric : table.constructor? e.ref = some generic) (hlength : as.length = bs.length)
      (hargs : ∀ a b, (a, b) ∈ as.zip bs → Settled table ρ a b)
      (hfields : ∀ p ∈ generic.params, generic.IsWitness p ∨
        Within table ρ (p.2.resolve (.ofLists generic.generics as))
          (p.2.resolve (.ofLists generic.generics bs))) :
      Settled table ρ (.named d as) (.named e bs)
  | left {ms : List Ty} {b : Ty} (h : ∀ m ∈ ms, Settled table ρ m b) : Settled table ρ (.union ms) b
  | right {a : Ty} {ms : List Ty} (h : ∀ m ∈ ms, Settled table ρ a m) :
      Settled table ρ a (.union ms)

theorem Within.hasType {a b : Ty} (h : Within table ρ a b) :
    ∀ v, HasType table ρ v a → HasType table ρ v b := by
  induction h with
  | equal h => exact fun v => (HasType.equal_iff h v).1
  | var hx _ ih => exact fun v hv => ih v (hx v (hasType_var_iff.1 hv))
  | fn => exact fun v hv => hasType_fn_iff.2 (hasType_fn_iff.1 hv)
  | named href hlength _ ih =>
    exact fun v => HasType.named_mono href (List.forall₂_iff_zip.2 ⟨hlength, fun hab => ih _ _ hab⟩)
  | left _ ih =>
    intro v hv
    cases hv with
    | union hm hv => exact ih _ hm v hv
  | right hm _ ih => exact fun v hv => .union hm (ih v hv)

/-! ## Values that fail a test -/

mutual

/-- No test looks for a function. -/
theorem accepts_function : ∀ test : Discriminator, test.accepts .function = false
  | .void => by simp [accepts]
  | .tag _ _ => by simp [accepts, Value.tag?]
  | .list _ => by simp [accepts]
  | .anyOf tests => by rw [accepts, acceptsSome_function tests]

theorem acceptsSome_function : ∀ tests : List Discriminator, acceptsSome tests .function = false
  | [] => rfl
  | test :: tests => by rw [acceptsSome, accepts_function test, acceptsSome_function tests]; rfl

end

/-- A value of a declared type only passes the tests for instances of the same declaration. -/
theorem HasType.ref_eq_of_accepts {d e : Nominal} {as bs : List Ty} {v : Value} {position : Position}
    {test : Discriminator} (hv : HasType table ρ v (.named d as))
    (h : synthesize table.matchFields position (.named e bs) = .ok test)
    (haccepts : test.accepts v = true) : d.ref = e.ref := by
  rcases synthesize_named_eq_ok h with ⟨hvoid, rfl⟩ |
    ⟨hlist, element, rest, inner, rfl, hinner, rfl⟩ | ⟨hvoid, hlist, ws, rfl, hws⟩
  · obtain rfl := accepts_void_iff.1 haccepts
    cases hv with
    | literal hl => exact hl.trans hvoid.symm
  · obtain ⟨items, rfl, -⟩ := accepts_list_iff.1 haccepts
    cases hv with
    | list hdecl _ => exact hdecl.trans hlist.symm
  · obtain ⟨htag, -⟩ := accepts_tag_iff.1 haccepts
    cases hv with
    | literal hl => exact hl.trans (Option.some.inj htag)
    | list _ _ => cases htag
    | record hdecl _ _ _ _ => exact hdecl.trans (Option.some.inj htag)

/-- The witness field of a generic has the type that stands for the generic, and it passes the test
for the type that stands for it in the case. -/
theorem HasType.witness_accepts (hagree : table.WitnessesAgree) {d e : Nominal} {as bs : List Ty}
    {tag : Ref} {fields : List (String × Value)} {ws : List (String × Discriminator)}
    (hv : HasType table ρ (.record tag fields) (.named d as))
    (hws : synthesizeWitnesses table.matchFields e ((table.matchFields.lookup tag).getD [])
      e.formals bs = .ok ws)
    (haccepts : (Discriminator.tag tag ws).accepts (.record tag fields) = true) {i : Nat} {a b : Ty}
    (ha : as[i]? = some a) (hb : bs[i]? = some b) :
    ∃ name test u, ((table.matchFields.lookup tag).getD [])[i]? = some (some name) ∧
      synthesize table.matchFields .generic b = .ok test ∧ fields.lookup name = some u ∧
      HasType table ρ u a ∧ test.accepts u = true := by
  obtain ⟨htests, hnames⟩ := synthesizeWitnesses_eq_ok hws
  obtain ⟨w, hw, htest⟩ := forall₂_getElem?_left htests hb
  obtain ⟨u, hu, hut⟩ := hv.witness hagree (hnames i w hw) ha
  obtain ⟨u', hu', hacc⟩ := (accepts_tag_iff.1 haccepts).2 w (List.mem_of_getElem? hw)
  obtain rfl : u = u' := Option.some.inj (hu.symm.trans hu')
  exact ⟨w.1, w.2, u, hnames i w hw, htest, hu, hut, hacc⟩

theorem Apart.not_accepts (hagree : table.WitnessesAgree) {a b : Ty} (h : Apart table ρ a b) :
    ∀ {position : Position} {test : Discriminator} {v : Value},
      synthesize table.matchFields position b = .ok test → HasType table ρ v a →
        test.accepts v ≠ true := by
  induction h with
  | var hx _ ih => exact fun h hv => ih h (hx _ (hasType_var_iff.1 hv))
  | fn =>
    intro position test v h hv
    rw [hasType_fn_iff.1 hv, accepts_function]
    exact Bool.false_ne_true
  | tag href => exact fun h hv haccepts => href (hv.ref_eq_of_accepts h haccepts)
  | @witness d e as bs a b hvoid hlist hab _ ih =>
    intro position test v h hv haccepts
    -- the field that witnesses the generic has a value of type `a` that passes the test of `b`
    obtain ⟨i, hi⟩ := List.mem_iff_getElem?.1 hab
    obtain ⟨ha, hb⟩ := List.getElem?_zip_eq_some.1 hi
    have href := hv.ref_eq_of_accepts h haccepts
    obtain ⟨-, hshape⟩ := hv.eq_tag (href ▸ hlist)
    rcases hshape with rfl | ⟨fields, rfl⟩
    · cases ha
    · rcases synthesize_named_eq_ok h with ⟨h, -⟩ | ⟨h, -⟩ | ⟨-, -, ws, rfl, hws⟩
      · exact hvoid h
      · exact hlist h
      · rw [href] at hv haccepts
        obtain ⟨_, test, u, -, htest, -, hut, hacc⟩ := hv.witness_accepts hagree hws haccepts ha hb
        exact ih htest hut hacc
  | left _ ih =>
    intro position test v h hv
    cases hv with
    | union hm hv => exact ih _ hm h hv
  | right _ ih =>
    intro position test v h hv haccepts
    obtain ⟨tests, htests, rfl⟩ := synthesize_union_eq_ok h
    rw [accepts, acceptsSome_iff] at haccepts
    obtain ⟨test, htest, haccepts⟩ := haccepts
    obtain ⟨m, hm, h⟩ := forall₂_mem_right htests htest
    exact ih m hm h hv haccepts

/-! ## Settled cases -/

/-- A record that agrees with the type of a case in the fields the test does not look at. -/
theorem HasType.record_of_accepts (hagree : table.WitnessesAgree) {d e : Nominal} {as bs : List Ty}
    {generic : Signature} {fields : List (String × Value)} {ws : List (String × Discriminator)}
    (hgeneric : table.constructor? e.ref = some generic) (hlength : as.length = bs.length)
    (hv : HasType table ρ (.record e.ref fields) (.named d as))
    (hws : synthesizeWitnesses table.matchFields e ((table.matchFields.lookup e.ref).getD [])
      e.formals bs = .ok ws)
    (haccepts : (Discriminator.tag e.ref ws).accepts (.record e.ref fields) = true)
    (hargs : ∀ a b, (a, b) ∈ as.zip bs → ∀ {position test u},
      synthesize table.matchFields position b = .ok test → HasType table ρ u a →
        test.accepts u = true → HasType table ρ u b)
    (hfields : ∀ p ∈ generic.params, generic.IsWitness p ∨
      Within table ρ (p.2.resolve (.ofLists generic.generics as))
        (p.2.resolve (.ofLists generic.generics bs))) :
    HasType table ρ (.record e.ref fields) (.named e bs) := by
  obtain ⟨-, generic', hgeneric', hlen, h⟩ := hasType_record_iff.1 hv
  obtain rfl : generic' = generic := Option.some.inj (hgeneric'.symm.trans hgeneric)
  refine hasType_record_iff.2 ⟨rfl, generic', hgeneric, hlen.trans hlength, fun p hp => ?_⟩
  obtain ⟨u, hu, hut⟩ := h p hp
  refine ⟨u, hu, ?_⟩
  rcases hfields p hp with ⟨i, g, hg, hvar, hname⟩ | hwithin
  · -- the test has looked at this field
    obtain ⟨hi, -⟩ := List.getElem?_eq_some_iff.1 hg
    have ha : as[i]? = some (as[i]) := List.getElem?_eq_getElem (by omega)
    have hb : bs[i]? = some (bs[i]) := List.getElem?_eq_getElem (by omega)
    obtain ⟨name, test, u', hname', htest, hu', hua, hacc⟩ :=
      hv.witness_accepts hagree hws haccepts ha hb
    obtain ⟨hname', hnd⟩ := hagree.witnessField_eq hgeneric hg hname'
    obtain rfl : name = p.1 := by simpa [hname'] using hname
    obtain rfl : u' = u := Option.some.inj (hu'.symm.trans hu)
    rw [hvar, Ty.resolve_var_ofLists hnd (hlen.trans hlength) hg hb]
    exact hargs _ _ (List.mem_of_getElem? (List.getElem?_zip_eq_some.2 ⟨ha, hb⟩)) htest hua hacc
  · exact hwithin.hasType u hut

theorem Settled.hasType (hagree : table.WitnessesAgree) {a b : Ty} (h : Settled table ρ a b) :
    ∀ {position : Position} {test : Discriminator} {v : Value},
      synthesize table.matchFields position b = .ok test → HasType table ρ v a →
        test.accepts v = true → HasType table ρ v b := by
  induction h with
  | within h => exact fun _ hv _ => h.hasType _ hv
  | apart h => exact fun hs hv haccepts => absurd haccepts (h.not_accepts hagree hs hv)
  | var hx _ ih => exact fun hs hv => ih hs (hx _ (hasType_var_iff.1 hv))
  | list hlist _ ih =>
    intro position test v hs hv haccepts
    rcases synthesize_named_eq_ok hs with ⟨hvoid, -⟩ | ⟨-, _, _, inner, heq, hinner, rfl⟩ | ⟨-, hne, -⟩
    · simp [hvoid] at hlist
    · obtain ⟨items, rfl, hitems⟩ := accepts_list_iff.1 haccepts
      cases heq
      cases hv with
      | list _ hv => exact .list hlist fun u hu => ih hinner (hv u hu) (hitems u hu)
    · exact absurd hlist hne
  | @record d e as bs generic href hlist hgeneric hlength _ hfields ih =>
    intro position test v hs hv haccepts
    obtain ⟨-, rfl | ⟨fields, rfl⟩⟩ := hv.eq_tag (href ▸ hlist)
    · obtain rfl : bs = [] := List.length_eq_zero_iff.1 hlength.symm
      exact hv.named_mono href .nil
    · rw [href] at hv haccepts ⊢
      rcases synthesize_named_eq_ok hs with ⟨-, rfl⟩ | ⟨hne, -⟩ | ⟨-, -, ws, rfl, hws⟩
      · cases accepts_void_iff.1 haccepts
      · exact absurd hne hlist
      · exact hv.record_of_accepts hagree hgeneric hlength hws haccepts
          (fun a b hab => ih a b hab) hfields
  | left _ ih =>
    intro position test v hs hv
    cases hv with
    | union hm hv => exact ih _ hm hs hv
  | right _ ih =>
    intro position test v hs hv haccepts
    obtain ⟨tests, htests, rfl⟩ := synthesize_union_eq_ok hs
    rw [accepts, acceptsSome_iff] at haccepts
    obtain ⟨test, htest, haccepts⟩ := haccepts
    obtain ⟨m, hm, hs⟩ := forall₂_mem_right htests htest
    exact .union hm (ih m hm hs hv haccepts)

/-- **Narrowing is sound in settled cases.** In an accepted package, a value of the subject of a
`when` that passes the test of a settled case has the type of the case. -/
theorem checkFiles_choice_narrows {config : Config} {files : List Syntax.SourceFile} {p : Program}
    (hok : checkFiles config files = .ok p) {type : Ty} {subject : TypedExpr} {cases : List TypedCase}
    {other : Option (List TypedExpr)} {name : Option String}
    (hnode : .choice type subject cases other name ∈ p.nodes) {c : TypedCase} (hc : c ∈ cases)
    (hsettled : Settled p.table ρ subject.ty c.type) {v : Value}
    (hv : HasType p.table ρ v subject.ty) (haccepts : c.test.accepts v = true) :
    HasType p.table ρ v c.type := by
  obtain ⟨hagree, hnodes⟩ := checkFiles_accepted hok
  exact hsettled.hasType hagree ((hnodes _ hnode).1 c hc) hv haccepts

/-- Lists of pairs are told apart by their elements. -/
theorem settled_pairSubject :
    Settled pairProgram.table (fun _ _ => False) pairSubject (.list (pairOf .int)) := by
  have hitem : Apart pairProgram.table (fun _ _ => False) .string .int := .tag (by decide)
  have hpair : Apart pairProgram.table (fun _ _ => False) (pairOf .string) (pairOf .int) :=
    .witness (by decide) (by decide) List.mem_cons_self hitem
  have htag : ∀ t, Apart pairProgram.table (fun _ _ => False) (pairOf t) (.list (pairOf .int)) :=
    fun t => .tag (by decide)
  refine .left ?_
  simp only [List.forall_mem_cons, List.not_mem_nil, false_implies, implies_true, and_true]
  exact ⟨.within (.equal (by decide +kernel)), .list rfl (.apart hpair), .apart (htag _),
    .apart (htag _)⟩

/-- An empty list passes the test for a list of pairs of strings and the one for a list of pairs of
numbers, and it has both types. -/
theorem checkFiles_choice_narrows_lists : ∃ c ∈ pairCases,
    Settled pairProgram.table (fun _ _ => False) pairSubject c.type ∧
      HasType pairProgram.table (fun _ _ => False) (.list []) pairSubject ∧
      c.test.accepts (.list []) = true ∧
      HasType pairProgram.table (fun _ _ => False) (.list []) c.type := by
  have hempty : HasType pairProgram.table (fun _ _ => False) (.list []) pairSubject :=
    .union (m := .list (pairOf .string)) (by simp) (.list rfl (by simp))
  refine ⟨_, List.mem_cons_self, settled_pairSubject, hempty, rfl, ?_⟩
  exact checkFiles_choice_narrows pairFile_accepted pairChoice_mem List.mem_cons_self
    settled_pairSubject hempty rfl

/-- **A test can pass without the type.** The pair has the type of the subject and passes the test for
pairs of lists of strings, which sees the empty list only. -/
theorem pairFile_accepts_untested_field :
    checkFiles .sequential [pairFile] = .ok pairProgram ∧ pairChoice ∈ pairProgram.nodes ∧
      HasType pairProgram.table (fun _ _ => False) unevenPair pairSubject ∧
      ∃ c ∈ pairCases, c.test.accepts unevenPair = true ∧
        ¬ HasType pairProgram.table (fun _ _ => False) unevenPair c.type := by
  refine ⟨pairFile_accepted, pairChoice_mem, hasType_unevenPair, _,
    List.mem_of_getElem? (i := 3) rfl, rfl, fun h => ?_⟩
  obtain ⟨-, hsecond⟩ := hasType_pair_iff.1 h
  cases hsecond with
  | list _ hitems =>
    cases hitems _ List.mem_cons_self with
    | literal href => exact absurd href (by decide)

end UnionChecker
