import UnionChecker.Proofs.Ty.Congruence
import UnionChecker.Proofs.Ty.Substitution
/-!
# Substitution and equality

A substitution respects the names that a function type binds only in one direction: it does not
replace them. What it puts in may mention such a name, and is captured then, so that equal types can
become different ones (`resolve_captures`). Where nothing is captured equal types stay equal
(`equal_resolve`). Function types go by their meanings, which are those of the types where the names
mean what is put in for them. For the others the comparison goes on with the parts, and built unions
are compared by assignability.
-/

namespace UnionChecker.Ty

/-- No name in the type, free or bound, starts with a dollar sign. -/
structure Dollarless (t : Ty) : Prop where
  free : NoDollar t
  bound : ∀ g ∈ t.binders, g.toList.head? ≠ some '$'

theorem Dollarless.plainBinders {t : Ty} (h : Dollarless t) : PlainBinders t :=
  fun d i hm => h.bound _ hm (head_positional d i)

theorem Dollarless.args {decl : Nominal} {args : List Ty} (h : Dollarless (.named decl args))
    {t : Ty} (ht : t ∈ args) : Dollarless t :=
  ⟨fun x hx => h.free x (mentionsAny_named.2 ⟨t, ht, hx⟩),
    fun g hg => h.bound g (mem_binders_named.2 ⟨t, ht, hg⟩)⟩

theorem Dollarless.of_mem_members {t m : Ty} (h : Dollarless t) (hm : m ∈ t.members) :
    Dollarless m := by
  cases t with
  | union ms =>
    exact ⟨fun x hx => h.free x (mentionsAny_union.2 ⟨m, hm, hx⟩),
      fun g hg => h.bound g (mem_binders_union.2 ⟨m, hm, hg⟩)⟩
  | var | named | fn => rwa [List.mem_singleton.1 hm]

theorem Uncaptured.args {σ : Substitution} {decl : Nominal} {args : List Ty}
    (h : Uncaptured σ (.named decl args)) : ∀ t ∈ args, Uncaptured σ t := by
  cases h with
  | named h => exact h

theorem Uncaptured.of_mem_members {σ : Substitution} {t m : Ty} (h : Uncaptured σ t)
    (hm : m ∈ t.members) : Uncaptured σ m := by
  cases h with
  | union h => exact h m hm
  | var x => rw [List.mem_singleton.1 hm]; exact .var x
  | named h => rw [List.mem_singleton.1 hm]; exact .named h
  | fn hnames hp hr => rw [List.mem_singleton.1 hm]; exact .fn hnames hp hr

/-- A type that can be put in: no name in it starts with a dollar sign, and it is no union with a
union as a member. -/
structure Insertable (t : Ty) : Prop where
  free : NoDollar t
  flat : ∀ m ∈ t.members, m.isUnion = false

theorem Insertable.flatten_eq {t : Ty} (h : Insertable t) : t.flatten = t.members := by
  cases t with
  | union ms => exact flattenAll_of_not_isUnion h.flat
  | var | named | fn => rfl

variable {σ : Substitution}

theorem Dollarless.resolve_free {t : Ty} (ht : Dollarless t)
    (hσ : ∀ x u, σ.lookup x = some u → Insertable u) : NoDollar (t.resolve σ) := by
  intro y hy
  obtain ⟨x, hx, hy⟩ := exists_mentions_of_resolve t hy
  cases hu : σ.lookup x with
  | none =>
    rw [hu, Option.getD_none, mentionsAny_var] at hy
    exact hy ▸ ht.free x hx
  | some u =>
    rw [hu, Option.getD_some] at hy
    exact (hσ x u hu).free y hy

/-! ## By meanings -/

/-- Equal types mean the same after a substitution that captures nothing. -/
theorem meaning_resolve_eq {a b : Ty} (ha : Dollarless a) (hb : Dollarless b) (ca : Uncaptured σ a)
    (cb : Uncaptured σ b) (h : equal a b = true) :
    meaning atoms (a.resolve σ) = meaning atoms (b.resolve σ) := by
  -- names of the types mean what is put in for them, and positional names keep their positions
  let v : Valuation := fun x =>
    if x.toList.head? = some '$' then atoms x else atoms.after σ x
  have hv : Positional v := fun d i => by
    simp only [v, if_pos (head_positional d i), positional_atoms d i]
  have hagree : ∀ t : Ty, NoDollar t → meaning (atoms.after σ) t = meaning v t := fun t ht =>
    meaning_congr t fun x hx => by simp only [v, if_neg (ht x hx)]
  calc meaning atoms (a.resolve σ)
      = meaning v a := by rw [meaning_resolve positional_atoms ha.plainBinders ca, hagree a ha.free]
    _ = meaning v b := meaning_eq_of_equal hv h
    _ = meaning atoms (b.resolve σ) := by
      rw [meaning_resolve positional_atoms hb.plainBinders cb, hagree b hb.free]

theorem equal_resolve_fn {gs hs : List String} {ps qs : List (String × Ty)} {r t : Ty}
    (hσ : ∀ x u, σ.lookup x = some u → Insertable u) (ha : Dollarless (.fn gs ps r))
    (hb : Dollarless (.fn hs qs t)) (ca : Uncaptured σ (.fn gs ps r))
    (cb : Uncaptured σ (.fn hs qs t)) (h : equal (.fn gs ps r) (.fn hs qs t) = true) :
    equal ((fn gs ps r).resolve σ) ((fn hs qs t).resolve σ) = true := by
  have hmeaning := meaning_resolve_eq ha hb ca cb h
  have hleft := (ha.resolve_free hσ).clean
  have hright := (hb.resolve_free hσ).clean
  rw [resolve_fn, resolve_fn] at hmeaning ⊢
  rw [resolve_fn] at hleft hright
  exact equal_fn_of_meaning_eq (equal_of_meaning_eq _) (Nat.le_succ _) hleft hright hmeaning

/-! ## By parts -/

section

variable {entry : String × Ty}

/-- With something to substitute, no union is left with a union as a member. -/
theorem flatten_resolve (hσ : ∀ x u, (entry :: σ : Substitution).lookup x = some u → Insertable u)
    (t : Ty) : (t.resolve (entry :: σ)).flatten = (t.resolve (entry :: σ)).members := by
  cases t with
  | var x =>
    rw [resolve_var]
    cases hx : List.lookup x (entry :: σ) with
    | none => rfl
    | some u => exact (hσ x u hx).flatten_eq
  | named decl args => rw [resolve_named]; rfl
  | fn gs ps r => rw [resolve_fn]; rfl
  | union ms => rw [resolve_cons, substitute]; exact flatten_join _

theorem isAssignable_resolve_iff (t c : Ty) : isAssignable (t.resolve (entry :: σ)) c = true ↔
    ∀ m ∈ t.members, isAssignable (m.resolve (entry :: σ)) c = true := by
  cases t with
  | union ms =>
    rw [resolve_cons, substitute, substituteAll_eq_map, isAssignable_join_iff, List.forall_mem_map]
    rfl
  | var | named | fn => simp [members]

theorem isAssignable_resolve_of_partners {a b : Ty}
    (h : ∀ x ∈ a.members, ∃ y ∈ b.members,
      equal (x.resolve (entry :: σ)) (y.resolve (entry :: σ)) = true) :
    isAssignable (a.resolve (entry :: σ)) (b.resolve (entry :: σ)) = true := by
  rw [isAssignable_resolve_iff]
  intro x hx
  obtain ⟨y, hy, hxy⟩ := h x hx
  have hb := (isAssignable_resolve_iff b _).1 (isAssignable_refl (b.resolve (entry :: σ))) y hy
  exact isAssignable_trans (isAssignable_of_equal hxy) hb

end

/-- **Substitution respects equality where nothing is captured.** The types may have unions as they
come, nested or of one member. -/
theorem equal_resolve {a b : Ty} (hσ : ∀ x u, σ.lookup x = some u → Insertable u)
    (ha : Dollarless a) (hb : Dollarless b) (ca : Uncaptured σ a) (cb : Uncaptured σ b)
    (h : equal a b = true) : equal (a.resolve σ) (b.resolve σ) = true := by
  cases σ with
  | nil => exact h
  | cons entry σ =>
  suffices key : ∀ s, ∀ a b : Ty, a.size + b.size ≤ s → Dollarless a → Dollarless b →
      Uncaptured (entry :: σ) a → Uncaptured (entry :: σ) b → equal a b = true →
      equal (a.resolve (entry :: σ)) (b.resolve (entry :: σ)) = true from
    key _ a b (Nat.le_refl _) ha hb ca cb h
  intro s
  induction s with
  | zero => intro a b hs; have := size_pos a; omega
  | succ s ih =>
    intro a b hs ha hb ca cb h
    cases matched_of_equal h with
    | var x => exact equal_refl _
    | named href hargs =>
      rw [resolve_named, resolve_named]
      refine equal_named.2 ⟨href, List.forall₂_map_left_iff.2 (List.forall₂_map_right_iff.2
        (forall₂_imp_of_mem hargs fun x hx y hy => ?_))⟩
      have h1 := size_le_sizeAll hx
      have h2 := size_le_sizeAll hy
      simp only [size] at hs
      exact ih x y (by omega) (ha.args hx) (hb.args hy) (ca.args x hx) (cb.args y hy)
    | fn h => exact equal_resolve_fn hσ ha hb ca cb h
    | members hleft hright hsize =>
      have hpair : ∀ x ∈ a.members, ∀ y ∈ b.members, equal x y = true →
          equal (x.resolve (entry :: σ)) (y.resolve (entry :: σ)) = true := fun x hx y hy =>
        ih x y (by have := hsize x hx y hy; omega) (ha.of_mem_members hx) (hb.of_mem_members hy)
          (ca.of_mem_members hx) (cb.of_mem_members hy)
      rw [equal_iff_isAssignable_of_flatten_eq (flatten_resolve hσ a) (flatten_resolve hσ b)]
      refine ⟨isAssignable_resolve_of_partners fun x hx => ?_,
        isAssignable_resolve_of_partners fun y hy => ?_⟩
      · obtain ⟨y, hy, hxy⟩ := hleft x hx
        exact ⟨y, hy, hpair x hx y hy hxy⟩
      · obtain ⟨x, hx, hxy⟩ := hright y hy
        exact ⟨x, hx, equal_symm (hpair x hx y hy hxy)⟩

/-- A name that a function type binds may be put in beside it. -/
theorem equal_resolve_beside_binder :
    let a := union [.list (.var "T"), .fn ["A"] [("x", .var "A")] (.var "A")]
    let b := union [.fn ["B"] [("x", .var "B")] (.var "B"), .list (.var "T")]
    let σ := [("T", .var "A")]
    equal a b = true ∧ equal (a.resolve σ) (b.resolve σ) = true := by
  intro a b σ
  have hid : ∀ g x, (fn [g] [("x", .var g)] (.var g)).mentionsAny [x] = true → False := by
    simp only [mentionsAny_fn, mentionsAny_var, List.mem_singleton, exists_eq_left, or_self]
    exact fun g x hx => hx.1 hx.2.symm
  have hlist : ∀ x, (list (.var "T")).mentionsAny [x] = true → x = "T" := by
    simp only [list, mentionsAny_named, List.mem_singleton, exists_eq_left, mentionsAny_var]
    exact fun x hx => hx.symm
  have hfree : ∀ g x, (union [.list (.var "T"), .fn [g] [("x", .var g)] (.var g)]).mentionsAny [x] =
      true → x.toList.head? ≠ some '$' := fun g x hx => by
    obtain ⟨t, ht, hx⟩ := mentionsAny_union.1 hx
    rcases List.mem_pair.1 ht with rfl | rfl
    · rw [hlist x hx]; decide
    · exact (hid g x hx).elim
  have hnone : ∀ g, Uncaptured σ (.fn [g] [("x", .var g)] (.var g)) := fun g =>
    .fn (fun x _ _ hx => (hid g x hx).elim) (by simp [Uncaptured.var]) (.var g)
  have hbeside : Uncaptured σ (.list (.var "T")) := .named (by simp [Uncaptured.var])
  refine ⟨by decide, equal_resolve (fun x u hu => ?_) ⟨hfree "A", by decide⟩
    ⟨fun x hx => ?_, by decide⟩ (.union (by simp [hnone, hbeside]))
    (.union (by simp [hnone, hbeside])) (by decide)⟩
  · obtain rfl : u = .var "A" := by
      simp only [σ, List.lookup_cons, List.lookup_nil] at hu
      grind
    exact ⟨fun y hy => mentionsAny_var.1 hy ▸ by decide, by decide⟩
  · refine hfree "B" x (mentionsAny_union.2 ?_)
    obtain ⟨t, ht, hx⟩ := mentionsAny_union.1 hx
    exact ⟨t, (List.Perm.swap ..).mem_iff.1 ht, hx⟩

/-- Two spellings of one type, told apart by what is put in for a free name. -/
theorem resolve_captures :
    let a := fn ["A"] [("x", .var "T")] (.var "A")
    let b := fn ["B"] [("x", .var "T")] (.var "B")
    let σ := [("T", .var "A")]
    equal a b = true ∧ equal (a.resolve σ) (b.resolve σ) = false ∧
      (a.resolve σ).name = "<A>(<A>) ~> <A>" ∧ (b.resolve σ).name = "<B>(<A>) ~> <B>" := by
  decide

-- unions inside a union that is put in are opened in a union only
example :
    let σ := [("T", union [.union [.int, .string]])]
    equal (.union [.var "T"]) (.var "T") = true ∧
      equal ((union [.var "T"]).resolve σ) ((var "T").resolve σ) = false := by
  decide

-- a name with a dollar sign is taken for the position of a generic
example :
    let a := fn ["A"] [("x", .var "$0_0")] .void
    let b := fn ["A"] [("x", .var "A")] .void
    let σ := [("$0_0", .int)]
    equal a b = true ∧ equal (a.resolve σ) (b.resolve σ) = false := by
  decide

end UnionChecker.Ty
