import UnionChecker.Proofs.Ty.Hereditary
import UnionChecker.Proofs.Ty.Scoped
/-!
# Free names and substitution

A union drops members that are equal to another one, and equal types can be spelled with different
bound names. Their free names are the same, however (`equal_mentions`), as long as these are no
positional names. So rebuilding unions neither loses nor gains a free name, and putting closed types
in takes exactly the names away that they are put in for (`mentionsAny_resolve_closed`).
-/

namespace UnionChecker

namespace Ty

/-! ## Equal types have the same free names -/

/-- A free name of a type is one of every equal type, up to a total size. -/
def KeepsUpTo (size : Nat) (x : String) : Prop :=
  ∀ a b : Ty, a.size + b.size ≤ size → equal a b = true →
    a.mentionsAny [x] = true → b.mentionsAny [x] = true

section

variable {x y : String}

theorem KeepsUpTo.mono {m n : Nat} (h : KeepsUpTo n x) (hm : m ≤ n) : KeepsUpTo m x :=
  fun a b hab => h a b (by omega)

/-- Building a union keeps the free names of its types. -/
theorem mentions_join {ts : List Ty} (h : KeepsUpTo (sizeAll ts) x) {t : Ty} (ht : t ∈ ts)
    (hx : t.mentionsAny [x] = true) : (join ts).mentionsAny [x] = true := by
  refine (Spreads.unionWith_iff_upTo (P := fun t => t.mentionsAny [x] = true)
    (fun _ => mentionsAny_union) fun a b hab he => ⟨h a b hab he, ?_⟩).2 ⟨t, ht, hx⟩
  exact h b a (by omega) (equal_symm he)

/-- A free name stays free when the generics of function types are renamed, unless it is renamed to
a positional name itself. -/
theorem mentions_rename (hy : ∀ d i, y ≠ positional d i) (t : Ty) :
    ∀ {depth : Nat} {ρ : List (String × String)}, KeepsUpTo t.size y →
      t.mentionsAny [x] = true → (ρ.lookup x).getD x = y →
      (rename depth ρ t).mentionsAny [y] = true := by
  induction t with
  | var z =>
    intro depth ρ _ hx hρ
    rw [mentionsAny_var.1 hx]
    exact mentionsAny_var.2 hρ
  | named decl args ih =>
    intro depth ρ h hx hρ
    obtain ⟨t, ht, hx⟩ := mentionsAny_named.1 hx
    have hsize := size_le_sizeAll ht
    rw [rename, renameWith, renameAllWith_eq_map]
    exact mentionsAny_named.2 ⟨_, List.mem_map_of_mem ht,
      ih t ht (h.mono (by simp only [size]; omega)) hx hρ⟩
  | fn gs ps r ihp ihr =>
    intro depth ρ h hx hρ
    obtain ⟨hgs, hparts⟩ := mentionsAny_fn.1 hx
    have hinner : ((enter depth gs ρ).lookup x).getD x = y := by
      rw [lookup_enter, position_eq_none_iff.2 hgs]
      exact hρ
    have hpositionals : y ∉ positionals depth gs := fun hm => by
      obtain ⟨i, -, he⟩ := List.mem_map.1 hm
      exact hy depth i he.symm
    rw [rename, renameWith, renameParamsWith_eq_map, mentionsAny_fn]
    refine ⟨hpositionals, ?_⟩
    rcases hparts with ⟨p, hp, hx⟩ | hx
    · have hsize := size_le_sizeParams hp
      exact Or.inl ⟨_, List.mem_map_of_mem hp,
        ihp p hp (h.mono (by simp only [size]; omega)) hx hinner⟩
    · exact Or.inr (ihr (h.mono (by simp only [size]; omega)) hx hinner)
  | union ms ih =>
    intro depth ρ h hx hρ
    obtain ⟨t, ht, hx⟩ := mentionsAny_union.1 hx
    have hsize := size_le_sizeAll ht
    have hle := sizeAll_map_le fun t (_ : t ∈ ms) => size_renameWith_le equal t depth ρ
    rw [rename, renameWith, renameAllWith_eq_map]
    exact mentions_join (h.mono (by simp only [size]; omega)) (List.mem_map_of_mem ht)
      (ih t ht (h.mono (by simp only [size]; omega)) hx hρ)

/-- What a function type mentions after its generics are renamed was free in it before. -/
theorem mentions_of_rename (hx : ∀ d i, x ≠ positional d i) {gs : List String} {t : Ty}
    (h : (rename 1 (enter 0 gs []) t).mentionsAny [x] = true) :
    x ∉ gs ∧ t.mentionsAny [x] = true := by
  obtain ⟨z, hz, he⟩ := renameWith_mentions t h
  rw [lookup_enter] at he
  cases hp : position gs z with
  | none =>
    obtain rfl : z = x := by simpa [hp] using he
    exact ⟨position_eq_none_iff.1 hp, hz⟩
  | some i => exact (hx 0 i (by simpa [hp] using he.symm)).elim

/-- Function types keep free names when smaller types do. -/
theorem mentions_of_equal_fn (hx : ∀ d i, x ≠ positional d i) {s : Nat} (ih : KeepsUpTo s x)
    {gs hs : List String} {ps qs : List (String × Ty)} {r t : Ty}
    (hsize : (fn gs ps r).size + (fn hs qs t).size ≤ s + 1)
    (h : equal (.fn gs ps r) (.fn hs qs t) = true)
    (hm : (fn gs ps r).mentionsAny [x] = true) : (fn hs qs t).mentionsAny [x] = true := by
  simp only [size] at hsize
  obtain ⟨-, hparams, hresult⟩ := equal_fn.1 h
  obtain ⟨hgs, hparts⟩ := mentionsAny_fn.1 hm
  have hpart : ∀ u v : Ty, u.size + v.size ≤ s →
      equal (rename 1 (enter 0 gs []) u) (rename 1 (enter 0 hs []) v) = true →
      u.mentionsAny [x] = true → x ∉ hs ∧ v.mentionsAny [x] = true := fun u v huv he hu => by
    have h1 := size_renameWith_le equal u 1 (enter 0 gs [])
    have h2 := size_renameWith_le equal v 1 (enter 0 hs [])
    have hlookup : ((enter 0 gs []).lookup x).getD x = x := by
      rw [lookup_enter, position_eq_none_iff.2 hgs]
      rfl
    refine mentions_of_rename hx (ih _ _ (by simp only [rename]; omega) he ?_)
    exact mentions_rename hx u (ih.mono (by omega)) hu hlookup
  rcases hparts with ⟨p, hp, hp'⟩ | hr
  · obtain ⟨q, hq, he⟩ := forall₂_mem_left hparams hp
    have h1 := size_le_sizeParams hp
    have h2 := size_le_sizeParams hq
    obtain ⟨hhs, hq'⟩ := hpart p.2 q.2 (by omega) he hp'
    exact mentionsAny_fn.2 ⟨hhs, Or.inl ⟨q, hq, hq'⟩⟩
  · obtain ⟨hhs, ht⟩ := hpart r t (by omega) hresult hr
    exact mentionsAny_fn.2 ⟨hhs, Or.inr ht⟩

theorem keepsUpTo (hx : ∀ d i, x ≠ positional d i) : ∀ s, KeepsUpTo s x
  | 0 => fun a b hs => by have := size_pos a; omega
  | s + 1 => by
    have ih := keepsUpTo hx s
    intro a b hs h hm
    cases matched_of_equal h with
    | var => exact hm
    | named href hargs =>
      obtain ⟨t, ht, hm⟩ := mentionsAny_named.1 hm
      obtain ⟨u, hu, he⟩ := forall₂_mem_left hargs ht
      have h1 := size_le_sizeAll ht
      have h2 := size_le_sizeAll hu
      simp only [size] at hs
      exact mentionsAny_named.2 ⟨u, hu, ih t u (by omega) he hm⟩
    | fn h => exact mentions_of_equal_fn hx ih hs h hm
    | members hleft hright hsize =>
      have hspreads : Spreads fun t => t.mentionsAny [x] = true := fun _ => mentionsAny_union
      obtain ⟨m, hm, hmx⟩ := (hspreads.members_iff a).2 hm
      obtain ⟨n, hn, he⟩ := hleft m hm
      have := hsize m hm n hn
      exact (hspreads.members_iff b).1 ⟨n, hn, ih m n (by omega) he hmx⟩

/-- **Equal types have the same free names**, positional names apart. -/
theorem equal_mentions (hx : ∀ d i, x ≠ positional d i) {a b : Ty} (h : equal a b = true) :
    a.mentionsAny [x] = true ↔ b.mentionsAny [x] = true :=
  ⟨keepsUpTo hx _ a b (Nat.le_refl _) h, keepsUpTo hx _ b a (Nat.le_refl _) (equal_symm h)⟩

/-! ## Free names of resolved types -/

/-- A free name that nothing is put in for stays free. -/
theorem mentions_resolve (hx : ∀ d i, x ≠ positional d i) (t : Ty) : ∀ {σ : Substitution},
    σ.lookup x = none → t.mentionsAny [x] = true → (t.resolve σ).mentionsAny [x] = true := by
  induction t with
  | var z =>
    intro σ hσ h
    rw [mentionsAny_var.1 h, resolve_var, hσ]
    exact mentionsAny_var.2 rfl
  | named decl args ih =>
    intro σ hσ h
    obtain ⟨t, ht, h⟩ := mentionsAny_named.1 h
    rw [resolve_named]
    exact mentionsAny_named.2 ⟨_, List.mem_map_of_mem ht, ih t ht hσ h⟩
  | fn gs ps r ihp ihr =>
    intro σ hσ h
    obtain ⟨hgs, hparts⟩ := mentionsAny_fn.1 h
    have hinner : (σ.without gs).lookup x = none := by
      rw [Substitution.lookup_without, if_neg hgs, hσ]
    rw [resolve_fn, mentionsAny_fn]
    refine ⟨hgs, hparts.imp ?_ (ihr hinner)⟩
    rintro ⟨p, hp, h⟩
    exact ⟨_, List.mem_map_of_mem hp, ihp p hp hinner h⟩
  | union ms ih =>
    intro σ hσ h
    obtain ⟨t, ht, h⟩ := mentionsAny_union.1 h
    have hm := ih t ht hσ h
    rcases resolve_union σ ms with he | he <;> rw [he]
    · exact mentionsAny_union.2 ⟨_, List.mem_map_of_mem ht, hm⟩
    · exact mentions_join (keepsUpTo hx _) (List.mem_map_of_mem ht) hm

end

end Ty

/-- No type of the substitution has a free name. -/
def Substitution.Closed (σ : Substitution) : Prop :=
  ∀ x u, σ.lookup x = some u → ∀ y, u.mentionsAny [y] = false

namespace Ty

/-- The free names of a type with closed types put in are those that nothing is put in for. -/
theorem mentions_resolve_iff {σ : Substitution} (hσ : σ.Closed) {t : Ty} (ht : NoDollar t)
    {x : String} :
    (t.resolve σ).mentionsAny [x] = true ↔ σ.lookup x = none ∧ t.mentionsAny [x] = true := by
  constructor
  · intro h
    obtain ⟨y, hy, hxy⟩ := exists_mentions_of_resolve t h
    cases hl : σ.lookup y with
    | some u =>
      rw [hl, Option.getD_some, hσ y u hl x] at hxy
      cases hxy
    | none =>
      rw [hl, Option.getD_none, mentionsAny_var] at hxy
      exact hxy ▸ ⟨hl, hy⟩
  · rintro ⟨hx, h⟩
    exact mentions_resolve (fun d i => ht.ne_positional h d i) t hx h

/-- **Substitution eliminates exactly its domain.** A type with closed types put in mentions a name
exactly when it did before and nothing is put in for the name; and a type in normal form that
mentions no name of the domain stays as it is. -/
theorem mentionsAny_resolve_closed {t : Ty} {σ : Substitution} (ht : NoDollar t) (hσ : σ.Closed) :
    (∀ gs, (t.resolve σ).mentionsAny gs = t.mentionsAny (gs.filter fun g => !σ.binds g)) ∧
    (Normal t → t.mentionsAny (σ.map (·.1)) = false → t.resolve σ = t) := by
  constructor
  · intro gs
    rw [Bool.eq_iff_iff, mentionsAny_iff_exists, mentionsAny_iff_exists]
    simp only [mentions_resolve_iff hσ ht, List.mem_filter, Substitution.binds, Bool.not_eq_true',
      Option.isSome_eq_false_iff, Option.isNone_iff_eq_none, and_assoc]
  · intro hnormal hdomain
    rcases resolve_eq_or σ t with he | he
    · exact he
    · rw [he]
      refine hnormal.substitute_eq t fun x u hu hx => ?_
      have hmem : x ∈ σ.map (·.1) := List.mem_map_of_mem (mem_of_lookup_eq_some hu)
      rw [(mentionsAny_iff_exists t).2 ⟨x, hmem, hx⟩] at hdomain
      cases hdomain

/-- Two members become one, and a function type keeps its own `T`. -/
theorem mentionsAny_resolve_closed_merged :
    let t := union [.fn ["T"] [("x", .var "T")] (.var "U"), .list (.var "T"), .list .int]
    let σ := [("T", .int)]
    (t.resolve σ).name = "<T>(<T>) ~> <U> | List<Int>" ∧
      (t.resolve σ).mentionsAny ["T", "U"] = true ∧ (t.resolve σ).mentionsAny ["T"] = false ∧
      (t.resolve σ).resolve σ = t.resolve σ := by
  intro t σ
  have hint : Normal .int := .named (by simp)
  have hlookup : ∀ x u, σ.lookup x = some u → u = .int := fun x u hu => by
    simp only [σ, List.lookup_cons, List.lookup_nil] at hu
    grind
  have hclosed : Substitution.Closed σ := fun x u hu y => hlookup x u hu ▸ rfl
  have hplain : NoDollar t := fun x hx => by
    simp only [t, list, mentionsAny_union, mentionsAny_fn, mentionsAny_named, mentionsAny_var,
      List.mem_cons, List.not_mem_nil, or_false, exists_eq_or_imp, exists_eq_left] at hx
    rcases hx with ⟨-, rfl | rfl⟩ | rfl | hx
    · decide
    · decide
    · decide
    · cases hx
  have hnormal : Normal t := by
    refine .union ?_ (by decide) (by decide) (by decide) (by decide)
    simp only [List.forall_mem_cons, List.not_mem_nil, false_implies, implies_true, and_true]
    exact ⟨.fn (by simp [Normal.var]) (.var "U"), .named (by simp [Normal.var]),
      .named (by simpa using hint)⟩
  obtain ⟨hfree, -⟩ := mentionsAny_resolve_closed hplain hclosed
  refine ⟨by decide, (hfree _).trans rfl, (hfree _).trans rfl, ?_⟩
  refine (mentionsAny_resolve_closed (fun x hx => ?_) hclosed).2 ?_ ((hfree _).trans rfl)
  · exact hplain x ((mentions_resolve_iff hclosed hplain).1 hx).2
  · exact hereditary_normal.resolve hnormal fun x u hu => hlookup x u hu ▸ hint

end Ty

end UnionChecker
