import UnionChecker.Proofs.Lists
import UnionChecker.Proofs.Ty.Structure
/-!
# Positional names

A generic bound by a function type is known by its position in the list of generics, and of two
generics of one name the later counts (`position`). The positional name of depth `d` and index `i`
determines both, and it starts with a dollar sign.
-/

namespace UnionChecker.Ty

/-! ## Names determine depth and index -/

theorem toList_positional (d i : Nat) :
    (positional d i).toList = '$' :: (Nat.toDigits 10 d ++ '_' :: Nat.toDigits 10 i) := by
  simp [positional]

theorem toDigits_inj {m n : Nat} (h : Nat.toDigits 10 m = Nat.toDigits 10 n) : m = n := by
  rw [← Nat.ofDigitChars_ten_toDigits (n := m), h, Nat.ofDigitChars_ten_toDigits]

/-- Two lists with a mark that the parts before it do not have are equal part by part. -/
theorem append_mark_inj {c : Char} : ∀ {as bs xs ys : List Char}, c ∉ as → c ∉ bs →
    as ++ c :: xs = bs ++ c :: ys → as = bs ∧ xs = ys
  | [], [], _, _, _, _, h => by simpa using h
  | [], b :: bs, _, _, _, hb, h => by
    simp only [List.nil_append, List.cons_append, List.cons.injEq] at h
    exact absurd (by simp [h.1]) hb
  | a :: as, [], _, _, ha, _, h => by
    simp only [List.nil_append, List.cons_append, List.cons.injEq] at h
    exact absurd (by simp [h.1]) ha
  | a :: as, b :: bs, _, _, ha, hb, h => by
    simp only [List.cons_append, List.cons.injEq] at h
    simp only [List.mem_cons, not_or] at ha hb
    obtain ⟨h1, h2⟩ := append_mark_inj ha.2 hb.2 h.2
    exact ⟨by rw [h.1, h1], h2⟩

theorem positional_inj {d i d' i' : Nat} (h : positional d i = positional d' i') :
    d = d' ∧ i = i' := by
  have hl := congrArg String.toList h
  simp only [toList_positional, List.cons.injEq, true_and] at hl
  obtain ⟨h1, h2⟩ :=
    append_mark_inj Nat.underscore_not_in_toDigits Nat.underscore_not_in_toDigits hl
  exact ⟨toDigits_inj h1, toDigits_inj h2⟩

theorem head_positional (d i : Nat) : (positional d i).toList.head? = some '$' := by
  rw [toList_positional]; rfl

/-! ## Positions -/

/-- The last position of a name in a list of generics. -/
def position (generics : List String) (x : String) : Option Nat :=
  (generics.zip (List.range generics.length)).reverse.lookup x

theorem position_eq_some {generics : List String} {x : String} {i : Nat}
    (h : position generics x = some i) : generics[i]? = some x := by
  have hm := mem_of_lookup_eq_some h
  rw [List.mem_reverse] at hm
  obtain ⟨k, hk⟩ := List.mem_iff_getElem?.1 hm
  rw [List.getElem?_zip_eq_some] at hk
  obtain ⟨h1, h2⟩ := hk
  have hi : k = i := by
    rw [List.getElem?_range (by simpa using (List.getElem?_eq_some_iff.1 h2).1)] at h2
    simpa using h2
  rwa [hi] at h1

theorem map_fst_zip_range (generics : List String) :
    (generics.zip (List.range generics.length)).map (·.1) = generics :=
  List.map_fst_zip (by simp)

theorem position_eq_none_iff {generics : List String} {x : String} :
    position generics x = none ↔ x ∉ generics := by
  rw [position, List.lookup_eq_none_iff]
  constructor
  · intro h hx
    rw [← map_fst_zip_range generics, List.mem_map] at hx
    obtain ⟨p, hp, rfl⟩ := hx
    simpa using h p (List.mem_reverse.2 hp)
  · intro h p hp
    have hp' : p.1 ∈ generics := by
      rw [← map_fst_zip_range generics]
      exact List.mem_map_of_mem (List.mem_reverse.1 hp)
    have hne : x ≠ p.1 := by rintro rfl; exact h hp'
    simpa using hne

/-- Entering a function type: its own generics go to their positions, the others stay. -/
theorem lookup_enter (depth : Nat) (generics : List String) (ρ : List (String × String))
    (x : String) :
    (enter depth generics ρ).lookup x =
      ((position generics x).map (positional depth)).or (ρ.lookup x) := by
  rw [enter, List.lookup_append, position, ← lookup_map_snd, positionals, List.zip_map_right,
    List.map_reverse]
  rfl

@[simp] theorem length_positionals (depth : Nat) (generics : List String) :
    (positionals depth generics).length = generics.length := by
  simp [positionals]

theorem position_positionals {depth : Nat} {generics : List String} {x : String} {i : Nat}
    (h : position (positionals depth generics) x = some i) : x = positional depth i := by
  have hx := position_eq_some h
  rw [positionals, List.getElem?_map, Option.map_eq_some_iff] at hx
  obtain ⟨k, hk, rfl⟩ := hx
  obtain ⟨_, rfl⟩ := List.getElem?_eq_some_iff.1 hk
  simp

end UnionChecker.Ty
