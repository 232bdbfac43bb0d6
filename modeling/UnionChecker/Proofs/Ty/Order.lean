import UnionChecker.Proofs.Ty.Assignability
import UnionChecker.Proofs.Ty.Equivalence
/-!
# The order of types

Assignability is reflexive and transitive on all types (`isAssignable_preorder`), because it compares
opened members with `equal`, which is an equivalence. A built union is the least upper bound of its
types, whatever these are. Between flat types assignability is containment of members, and two types
are assignable to each other exactly when they are equal, so that the order is the one that unions
induce (`isAssignable_union_order`).
-/

namespace UnionChecker.Ty

/-! ## Opened members -/

theorem mem_flatten_iff_members {t m : Ty} : m ∈ t.flatten ↔ ∃ x ∈ t.members, m ∈ x.flatten := by
  cases t with
  | union ms => simp [flatten, members, flattenAll_eq_flatMap]
  | _ => simp [members]

/-! ## A preorder -/

theorem isAssignable_refl (t : Ty) : isAssignable t t = true :=
  (isAssignable_iff t t).2 fun m hm => ⟨m, hm, equal_refl m⟩

theorem isAssignable_trans {a b c : Ty} (hab : isAssignable a b = true)
    (hbc : isAssignable b c = true) : isAssignable a c = true := by
  rw [isAssignable_iff] at hab hbc ⊢
  intro m hm
  obtain ⟨n, hn, hmn⟩ := hab m hm
  obtain ⟨k, hk, hnk⟩ := hbc n hn
  exact ⟨k, hk, equal_trans hmn hnk⟩

/-- **Assignability is a preorder** on all types, whatever their unions look like. -/
theorem isAssignable_preorder :
    (∀ t : Ty, isAssignable t t = true) ∧
      ∀ a b c : Ty, isAssignable a b = true → isAssignable b c = true → isAssignable a c = true :=
  ⟨isAssignable_refl, fun _ _ _ => isAssignable_trans⟩

/-- A generic function type goes into a union of one member, and this into a nested union that has
the function type under other names. -/
theorem isAssignable_preorder_nested :
    isAssignable (.fn ["A"] [("x", .var "A")] (.list (.var "A")))
        (.union [.union [.fn ["C"] [("z", .var "C")] (.list (.var "C"))], void,
          .union [int, int]]) = true :=
  isAssignable_preorder.2 _ (.union [.fn ["B"] [("y", .var "B")] (.list (.var "B"))]) _ (by decide)
    (by decide)

/-! ## Equal types -/

/-- Equal types are assignable to each other. -/
theorem isAssignable_of_equal {a b : Ty} (h : equal a b = true) : isAssignable a b = true := by
  suffices key : ∀ s, ∀ a b : Ty, a.size + b.size ≤ s → equal a b = true → isAssignable a b = true from
    key _ a b (Nat.le_refl _) h
  intro s
  induction s with
  | zero => intro a b hs; have := size_pos a; omega
  | succ s ih =>
    intro a b hs h
    rw [isAssignable_iff]
    cases matched_of_equal h with
    | members hleft _ hsize =>
      intro m hm
      obtain ⟨x, hx, hmx⟩ := mem_flatten_iff_members.1 hm
      obtain ⟨y, hy, hxy⟩ := hleft x hx
      have hlt := hsize x hx y hy
      obtain ⟨n, hn, hmn⟩ := (isAssignable_iff x y).1 (ih x y (by omega) hxy) m hmx
      exact ⟨n, mem_flatten_iff_members.2 ⟨y, hy, hn⟩, hmn⟩
    | _ => simpa only [flatten, List.mem_singleton, forall_eq, exists_eq_left] using h

theorem isAssignable_congr_left {a b : Ty} (h : equal a b = true) (c : Ty) :
    isAssignable a c = true ↔ isAssignable b c = true :=
  ⟨isAssignable_trans (isAssignable_of_equal (equal_symm h)),
    isAssignable_trans (isAssignable_of_equal h)⟩

/-- Types whose members are no unions are equal when each is assignable to the other. -/
theorem equal_iff_isAssignable_of_flatten_eq {a b : Ty} (ha : a.flatten = a.members)
    (hb : b.flatten = b.members) :
    equal a b = true ↔ isAssignable a b = true ∧ isAssignable b a = true := by
  rw [equal_iff_members, isAssignable_iff, isAssignable_iff, ha, hb]
  refine and_congr_right fun _ => forall₂_congr fun y _ => exists_congr fun x => ?_
  rw [equal_comm x y]

theorem equal_iff_isAssignable {a b : Ty} (ha : Flat a) (hb : Flat b) :
    equal a b = true ↔ isAssignable a b = true ∧ isAssignable b a = true :=
  equal_iff_isAssignable_of_flatten_eq ha.flatten_eq hb.flatten_eq

/-- Between flat types, assignability is containment of members. -/
theorem containedIn_eq_isAssignable {a b : Ty} (ha : Flat a) (hb : Flat b) :
    containedIn a b = isAssignable a b := by
  rw [Bool.eq_iff_iff, isAssignable_iff, ha.flatten_eq, hb.flatten_eq, containedIn]
  simp only [List.all_eq_true, List.any_eq_true, equal_comm]

/-- Containment of members gives assignability, also of types that are not flat. -/
theorem isAssignable_of_containedIn {a b : Ty} (h : containedIn a b = true) :
    isAssignable a b = true := by
  simp only [containedIn, List.all_eq_true, List.any_eq_true] at h
  rw [isAssignable_iff]
  intro m hm
  obtain ⟨x, hx, hmx⟩ := mem_flatten_iff_members.1 hm
  obtain ⟨y, hy, hyx⟩ := h x hx
  obtain ⟨n, hn, hmn⟩ := (isAssignable_iff x y).1 (isAssignable_of_equal (equal_symm hyx)) m hmx
  exact ⟨n, mem_flatten_iff_members.2 ⟨y, hy, hn⟩, hmn⟩

/-! ## Unions are least upper bounds -/

/-- A union is not assignable through a member. -/
theorem spreads_not_isAssignable (c : Ty) : Spreads fun t => isAssignable t c = false := by
  intro ms
  simp only [isAssignable, allAssignable_eq_all, List.all_eq_false, Bool.not_eq_true]

/-- A built union is assignable where all its types are. -/
theorem isAssignable_join_iff (ts : List Ty) (c : Ty) :
    isAssignable (join ts) c = true ↔ ∀ t ∈ ts, isAssignable t c = true := by
  have hjoin : isAssignable (join ts) c = false ↔ ∃ t ∈ ts, isAssignable t c = false :=
    (spreads_not_isAssignable c).unionWith_iff fun a _ b _ hab => by
      rw [← Bool.not_eq_true, ← Bool.not_eq_true, isAssignable_congr_left hab]
  rw [← not_iff_not, Bool.not_eq_true, hjoin]
  simp

theorem isAssignable_join_of_mem {ts : List Ty} {t : Ty} (ht : t ∈ ts) :
    isAssignable t (join ts) = true :=
  (isAssignable_join_iff ts (join ts)).1 (isAssignable_refl _) t ht

/-- Adding a type to another changes nothing exactly when it is assignable to the other. -/
theorem equal_join_pair_iff {a b : Ty} (ha : Flat a) (hb : Flat b) :
    equal (join [a, b]) b = true ↔ isAssignable a b = true := by
  have hflat : Flat (join [a, b]) := flat_unionWith (by simp [ha, hb])
  have hupper : isAssignable b (join [a, b]) = true := isAssignable_join_of_mem (by simp)
  rw [equal_iff_isAssignable hflat hb, isAssignable_join_iff]
  simp [isAssignable_refl, hupper]

/-- **Assignability is the order that unions induce.** On flat types, which all types with built
unions are, it is containment of members, adding `a` to `b` changes nothing exactly when `a` is
assignable to `b`, and mutual assignability is equality. A built union is the least upper bound of
its types, and the empty one is the bottom. -/
theorem isAssignable_union_order {a b : Ty} (ha : Flat a) (hb : Flat b) :
    isAssignable a b = containedIn a b ∧
      (isAssignable a b = true ↔ equal (join [a, b]) b = true) ∧
      (∀ (ts : List Ty) (c : Ty),
        (isAssignable (join ts) c = true ↔ ∀ t ∈ ts, isAssignable t c = true) ∧
          ∀ t ∈ ts, isAssignable t (join ts) = true) ∧
      (join [] = nothing ∧ ∀ c : Ty, isAssignable nothing c = true) ∧
      (isAssignable a b = true ∧ isAssignable b a = true ↔ equal a b = true) :=
  ⟨(containedIn_eq_isAssignable ha hb).symm, (equal_join_pair_iff ha hb).symm,
    fun ts c => ⟨isAssignable_join_iff ts c, fun _ => isAssignable_join_of_mem⟩,
    ⟨rfl, fun _ => rfl⟩, (equal_iff_isAssignable ha hb).symm⟩

/-- A list of a union and a generic function type are below a union with both under other names. -/
theorem isAssignable_union_order_functions :
    isAssignable (.union [.fn ["A"] [("x", .var "A")] int, .list (.union [int, string])])
        (.union [.fn ["B"] [("y", .var "B")] int, .list (.union [string, int]), void]) = true ∧
      containedIn (.union [.fn ["A"] [("x", .var "A")] int, .list (.union [int, string])])
        (.union [.fn ["B"] [("y", .var "B")] int, .list (.union [string, int]), void]) = true := by
  have hle : isAssignable (.union [.fn ["A"] [("x", .var "A")] int, .list (.union [int, string])])
      (.union [.fn ["B"] [("y", .var "B")] int, .list (.union [string, int]), void]) = true := by
    decide
  have h := isAssignable_union_order (by simp [int, string, list, builtin, isUnion])
    (by simp [int, string, list, void, builtin, isUnion])
    (a := .union [.fn ["A"] [("x", .var "A")] int, .list (.union [int, string])])
    (b := .union [.fn ["B"] [("y", .var "B")] int, .list (.union [string, int]), void])
  exact ⟨hle, h.1 ▸ hle⟩

end UnionChecker.Ty
