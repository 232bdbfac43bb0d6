import UnionChecker.Proofs.Lists
import UnionChecker.Proofs.Ty.Bound
/-!
# Equality is an equivalence

This holds of all types, also of those with unions as they come: nested, unsorted, repeated or of one
member. A comparison pairs off the members of the two sides, or it goes into parts of the same shape;
and what it compares of a function type are its renamed parts, which do not depend on the other side.
So each law goes by induction on the total size of the types, with one case for each way of being
matched.
-/

namespace UnionChecker.Ty

/-- Types are equal when their members can be paired off. A type other than a union is its own
member. -/
theorem equal_iff_members (a b : Ty) :
    equal a b = true ↔
      (∀ x ∈ a.members, ∃ y ∈ b.members, equal x y = true) ∧
        ∀ y ∈ b.members, ∃ x ∈ a.members, equal x y = true := by
  cases a with
  | union as => exact equal_union_left
  | _ =>
    cases b with
    | union bs => exact equal_union_right
    | _ => simp [members]

/-! ## Reflexivity -/

theorem equal_refl (t : Ty) : equal t t = true := by
  suffices h : ∀ s, ∀ t : Ty, t.size ≤ s → equal t t = true from h _ t (Nat.le_refl _)
  intro s
  induction s with
  | zero => intro t hs; have := size_pos t; omega
  | succ s ih =>
    intro t hs
    cases t with
    | var x => exact equal_var.2 rfl
    | named decl args =>
      refine equal_named.2 ⟨rfl, List.forall₂_same.2 fun t ht => ih t ?_⟩
      have := size_le_sizeAll ht
      simp only [size] at hs
      omega
    | fn gs ps r =>
      have hpart : ∀ u : Ty, u.size ≤ s →
          equal (rename 1 (enter 0 gs []) u) (rename 1 (enter 0 gs []) u) = true := fun u hu =>
        ih _ (Nat.le_trans (size_renameWith_le equal u 1 (enter 0 gs [])) hu)
      simp only [size] at hs
      refine equal_fn.2 ⟨rfl, List.forall₂_same.2 fun p hp => hpart p.2 ?_, hpart r (by omega)⟩
      have := size_le_sizeParams hp
      omega
    | union ms =>
      have hms : ∀ m ∈ ms, equal m m = true := fun m hm => by
        have := size_lt_of_mem_union hm
        exact ih m (by omega)
      exact equal_union_left.2 ⟨fun x hx => ⟨x, hx, hms x hx⟩, fun y hy => ⟨y, hy, hms y hy⟩⟩

/-! ## Symmetry -/

/-- Equality is symmetric between types up to a total size. -/
def SymmetricUpTo (size : Nat) : Prop :=
  ∀ a b : Ty, a.size + b.size ≤ size → equal a b = true → equal b a = true

theorem equal_fn_symm {s : Nat} (ih : SymmetricUpTo s) {gs hs : List String}
    {ps qs : List (String × Ty)} {r t : Ty} (hsize : (fn gs ps r).size + (fn hs qs t).size ≤ s + 1)
    (h : equal (.fn gs ps r) (.fn hs qs t) = true) : equal (.fn hs qs t) (.fn gs ps r) = true := by
  simp only [size] at hsize
  obtain ⟨hlen, hparams, hresult⟩ := equal_fn.1 h
  have hpart : ∀ x y : Ty, x.size + y.size ≤ s →
      equal (rename 1 (enter 0 gs []) x) (rename 1 (enter 0 hs []) y) = true →
      equal (rename 1 (enter 0 hs []) y) (rename 1 (enter 0 gs []) x) = true := fun x y hxy => by
    have h1 := size_renameWith_le equal x 1 (enter 0 gs [])
    have h2 := size_renameWith_le equal y 1 (enter 0 hs [])
    exact ih _ _ (by simp only [rename]; omega)
  refine equal_fn.2 ⟨hlen.symm, List.Forall₂.flip (forall₂_imp_of_mem hparams ?_),
    hpart r t (by omega) hresult⟩
  intro p hp q hq
  have h1 := size_le_sizeParams hp
  have h2 := size_le_sizeParams hq
  exact hpart p.2 q.2 (by omega)

theorem symmetricUpTo : ∀ s, SymmetricUpTo s
  | 0 => fun a b hs => by have := size_pos a; omega
  | s + 1 => by
    have ih := symmetricUpTo s
    intro a b hs h
    cases matched_of_equal h with
    | var x => exact h
    | named href hargs =>
      refine equal_named.2 ⟨href.symm, List.Forall₂.flip (forall₂_imp_of_mem hargs ?_)⟩
      intro x hx y hy
      have h1 := size_le_sizeAll hx
      have h2 := size_le_sizeAll hy
      simp only [size] at hs
      exact ih x y (by omega)
    | fn h => exact equal_fn_symm ih hs h
    | members hleft hright hsize =>
      have hpair : ∀ x ∈ a.members, ∀ y ∈ b.members, equal x y = true → equal y x = true :=
        fun x hx y hy => ih x y (by have := hsize x hx y hy; omega)
      refine (equal_iff_members b a).2 ⟨fun y hy => ?_, fun x hx => ?_⟩
      · obtain ⟨x, hx, he⟩ := hright y hy
        exact ⟨x, hx, hpair x hx y hy he⟩
      · obtain ⟨y, hy, he⟩ := hleft x hx
        exact ⟨y, hy, hpair x hx y hy he⟩

theorem equal_symm {a b : Ty} (h : equal a b = true) : equal b a = true :=
  symmetricUpTo _ a b (Nat.le_refl _) h

theorem equal_comm (a b : Ty) : equal a b = equal b a := by
  rw [Bool.eq_iff_iff]
  exact ⟨equal_symm, equal_symm⟩

/-! ## Transitivity -/

/-- Equality is transitive between types up to a total size. -/
def TransitiveUpTo (size : Nat) : Prop :=
  ∀ a b c : Ty, a.size + b.size + c.size ≤ size → equal a b = true → equal b c = true →
    equal a c = true

/-- Equality of types is transitive when that of their members is. -/
theorem equal_trans_of_members {a b c : Ty}
    (ih : ∀ x ∈ a.members, ∀ y ∈ b.members, ∀ z ∈ c.members, equal x y = true → equal y z = true →
      equal x z = true)
    (hab : equal a b = true) (hbc : equal b c = true) : equal a c = true := by
  obtain ⟨hab1, hab2⟩ := (equal_iff_members a b).1 hab
  obtain ⟨hbc1, hbc2⟩ := (equal_iff_members b c).1 hbc
  refine (equal_iff_members a c).2 ⟨fun x hx => ?_, fun z hz => ?_⟩
  · obtain ⟨y, hy, hxy⟩ := hab1 x hx
    obtain ⟨z, hz, hyz⟩ := hbc1 y hy
    exact ⟨z, hz, ih x hx y hy z hz hxy hyz⟩
  · obtain ⟨y, hy, hyz⟩ := hbc2 z hz
    obtain ⟨x, hx, hxy⟩ := hab2 y hy
    exact ⟨x, hx, ih x hx y hy z hz hxy hyz⟩

theorem equal_fn_trans {s : Nat} (ih : TransitiveUpTo s) {fs gs hs : List String}
    {ps qs us : List (String × Ty)} {r t w : Ty}
    (hsize : (fn fs ps r).size + (fn gs qs t).size + (fn hs us w).size ≤ s + 1)
    (hab : equal (.fn fs ps r) (.fn gs qs t) = true)
    (hbc : equal (.fn gs qs t) (.fn hs us w) = true) :
    equal (.fn fs ps r) (.fn hs us w) = true := by
  simp only [size] at hsize
  obtain ⟨hlen, hparams, hresult⟩ := equal_fn.1 hab
  obtain ⟨hlen', hparams', hresult'⟩ := equal_fn.1 hbc
  -- the middle function type is renamed alike in both comparisons
  have hpart : ∀ x y z : Ty, x.size + y.size + z.size ≤ s →
      equal (rename 1 (enter 0 fs []) x) (rename 1 (enter 0 gs []) y) = true →
      equal (rename 1 (enter 0 gs []) y) (rename 1 (enter 0 hs []) z) = true →
      equal (rename 1 (enter 0 fs []) x) (rename 1 (enter 0 hs []) z) = true := by
    intro x y z hxyz
    have h1 := size_renameWith_le equal x 1 (enter 0 fs [])
    have h2 := size_renameWith_le equal y 1 (enter 0 gs [])
    have h3 := size_renameWith_le equal z 1 (enter 0 hs [])
    exact ih _ _ _ (by simp only [rename]; omega)
  refine equal_fn.2 ⟨hlen.trans hlen', forall₂_comp hparams hparams' ?_,
    hpart r t w (by omega) hresult hresult'⟩
  intro p hp q hq u hu
  have h1 := size_le_sizeParams hp
  have h2 := size_le_sizeParams hq
  have h3 := size_le_sizeParams hu
  exact hpart p.2 q.2 u.2 (by omega)

theorem transitiveUpTo : ∀ s, TransitiveUpTo s
  | 0 => fun a b c hs => by have := size_pos a; omega
  | s + 1 => by
    have ih := transitiveUpTo s
    intro a b c hs hab hbc
    have hright : (∀ y ∈ b.members, ∀ z ∈ c.members, y.size + z.size < b.size + c.size) →
        equal a c = true := by
      intro hsize
      refine equal_trans_of_members (fun x hx y hy z hz => ih x y z ?_) hab hbc
      have h1 := size_le_of_mem_members hx
      have h2 := hsize y hy z hz
      omega
    cases matched_of_equal hab with
    | members _ _ hsize =>
      refine equal_trans_of_members (fun x hx y hy z hz => ih x y z ?_) hab hbc
      have h1 := hsize x hx y hy
      have h2 := size_le_of_mem_members hz
      omega
    | var x => exact hbc
    | @named d e as bs href hargs =>
      cases matched_of_equal hbc with
      | members _ _ hsize => exact hright hsize
      | named href' hargs' =>
        refine equal_named.2 ⟨href.trans href', forall₂_comp hargs hargs' ?_⟩
        intro x hx y hy z hz
        have h1 := size_le_sizeAll hx
        have h2 := size_le_sizeAll hy
        have h3 := size_le_sizeAll hz
        simp only [size] at hs
        exact ih x y z (by omega)
    | fn h =>
      cases matched_of_equal hbc with
      | members _ _ hsize => exact hright hsize
      | fn h' => exact equal_fn_trans ih hs h h'

theorem equal_trans {a b c : Ty} (hab : equal a b = true) (hbc : equal b c = true) :
    equal a c = true :=
  transitiveUpTo _ a b c (Nat.le_refl _) hab hbc

end UnionChecker.Ty
