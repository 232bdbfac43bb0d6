import UnionChecker.Proofs.Ty.Order
/-!
# Equality is a congruence

Equal types may stand for each other in a built union, as arguments of a declared type and in a
function type without generics. Unions go by assignability: what is built has no unions as members,
also when the types themselves are nested, so it is equal to another when each is assignable to the
other. Function types go by meanings: a comparison renames the parts, which opens their unions, and
parts that mean the same are equal then as long as no name in them is taken for a positional one.
-/

namespace UnionChecker.Ty

/-! ## Unions -/

theorem isUnion_of_mem_flatten (t : Ty) {m : Ty} (hm : m ∈ t.flatten) : m.isUnion = false := by
  induction t with
  | union ms ih =>
    rw [flatten, flattenAll_eq_flatMap] at hm
    obtain ⟨t, ht, hm⟩ := List.mem_flatMap.1 hm
    exact ih t ht hm
  | _ => rw [List.mem_singleton.1 hm]; rfl

/-- A built union has no unions to open. -/
theorem flatten_join (ts : List Ty) : (join ts).flatten = (join ts).members := by
  have hnot : ∀ m ∈ flattenAll ts, m.isUnion = false := fun m hm =>
    isUnion_of_mem_flatten (.union ts) hm
  rcases unionWith_cases equal ts with hm | ⟨ms, hms, hsub⟩
  · rw [join, flatten_of_not_isUnion (hnot _ hm)]
    exact (members_of_not_isUnion (hnot _ hm)).symm
  · rw [join, hms]
    exact flattenAll_of_not_isUnion fun m hm => hnot m (hsub m hm)

theorem isAssignable_join_of_forall₂ {as bs : List Ty}
    (h : List.Forall₂ (fun a b => equal a b = true) as bs) :
    isAssignable (join as) (join bs) = true := by
  rw [isAssignable_join_iff]
  intro a ha
  obtain ⟨b, hb, hab⟩ := forall₂_mem_left h ha
  exact isAssignable_trans (isAssignable_of_equal hab) (isAssignable_join_of_mem hb)

theorem equal_join {as bs : List Ty} (h : List.Forall₂ (fun a b => equal a b = true) as bs) :
    equal (join as) (join bs) = true := by
  have hback : List.Forall₂ (fun b a => equal b a = true) bs as :=
    List.Forall₂.flip (h.imp fun _ _ => equal_symm)
  rw [equal_iff_isAssignable_of_flatten_eq (flatten_join as) (flatten_join bs)]
  exact ⟨isAssignable_join_of_forall₂ h, isAssignable_join_of_forall₂ hback⟩

/-! ## Function types -/

theorem bind_nil (v : Valuation) : v.bind [] = v := rfl

theorem meaning_fn_nil {v : Valuation} (hv : Positional v) {ps qs : List (String × Ty)} {r t : Ty}
    (hps : List.Forall₂ (fun p q => equal p.2 q.2 = true) ps qs) (hr : equal r t = true) :
    meaning v (.fn [] ps r) = meaning v (.fn [] qs t) := by
  have hparams : ps.map (fun p => meaning v p.2) = qs.map fun q => meaning v q.2 :=
    map_eq_map_of_forall₂ hps fun _ _ _ _ h => meaning_eq_of_equal hv h
  simp only [meaning, bind_nil, meaningParams_eq_map, hparams, meaning_eq_of_equal hv hr]

theorem NoDollar.fn {gs : List String} {ps : List (String × Ty)} {r : Ty}
    (hps : ∀ p ∈ ps, NoDollar p.2) (hr : NoDollar r) : NoDollar (.fn gs ps r) := by
  intro x hx
  obtain ⟨-, ⟨p, hp, hx⟩ | hx⟩ := mentionsAny_fn.1 hx
  · exact hps p hp x hx
  · exact hr x hx

theorem equal_fn_nil {ps qs : List (String × Ty)} {r t : Ty}
    (hps : List.Forall₂ (fun p q => equal p.2 q.2 = true) ps qs) (hr : equal r t = true)
    (cleft : NoDollar (.fn [] ps r)) (cright : NoDollar (.fn [] qs t)) :
    equal (.fn [] ps r) (.fn [] qs t) = true :=
  equal_fn_of_meaning_eq (equal_of_meaning_eq _) (Nat.le_succ _) cleft.clean cright.clean
    (meaning_fn_nil positional_atoms hps hr)

/-! ## The congruence -/

/-- **Equality is an equivalence and a congruence.** On all types, also with unions as they come, it is
an equivalence, and equal types give equal unions and equal instances of a declared type. Equal
parameters and results without positional names give equal function types without generics. -/
theorem equal_congruence :
    Equivalence (fun a b : Ty => equal a b = true) ∧
      (∀ as bs : List Ty, List.Forall₂ (fun a b => equal a b = true) as bs →
        equal (join as) (join bs) = true ∧
          ∀ decl, equal (.named decl as) (.named decl bs) = true) ∧
      ∀ (ps qs : List (String × Ty)) (r t : Ty), (∀ p ∈ ps, NoDollar p.2) →
        (∀ q ∈ qs, NoDollar q.2) → NoDollar r → NoDollar t →
        List.Forall₂ (fun p q => equal p.2 q.2 = true) ps qs → equal r t = true →
        equal (.fn [] ps r) (.fn [] qs t) = true :=
  ⟨⟨equal_refl, equal_symm, equal_trans⟩,
    fun _ _ h => ⟨equal_join h, fun _ => equal_named.2 ⟨rfl, h⟩⟩,
    fun _ _ _ _ cps cqs cr ct hps hr => equal_fn_nil hps hr (.fn cps cr) (.fn cqs ct)⟩

/-- A nested union with a repeated member and a generic function type under another name, in a union
and in a function type. -/
theorem equal_congruence_nested :
    equal (join [.union [.union [int, string]], .fn ["A"] [("x", .var "A")] int])
        (join [.union [.union [string, int, int]], .fn ["B"] [("y", .var "B")] int]) = true ∧
      equal (.fn [] [("f", .union [.union [int, string]])] (.list (.var "T")))
        (.fn [] [("g", .union [.union [string, int, int]])] (.list (.var "T"))) = true := by
  have hunion : equal (.union [.union [int, string]]) (.union [.union [string, int, int]]) = true := by
    decide
  have hfn : equal (.fn ["A"] [("x", .var "A")] int) (.fn ["B"] [("y", .var "B")] int) = true := by
    decide
  refine ⟨(equal_congruence.2.1 _ _ (.cons hunion (.cons hfn .nil))).1,
    equal_congruence.2.2 _ _ _ _ ?_ ?_ ?_ ?_ (.cons hunion .nil) (by decide)⟩ <;>
    simp [NoDollar, int, string, list, builtin, mentionsAny_named, mentionsAny_union, mentionsAny_var]

end UnionChecker.Ty
