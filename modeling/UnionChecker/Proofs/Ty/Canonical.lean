import Mathlib.Data.List.Pairwise
import UnionChecker.Proofs.Steps
import UnionChecker.Proofs.Ty.Congruence
/-!
# Built unions are canonical

Members are put into a union one after another, and one that equals a member already there takes its
place only if its name is smaller. In the end each class of equal types has one member, and this has
the smallest name of its class (`StandsFor`). Which types those are, and so the sorted names and the
equality of the union, depends neither on the order and the repetition of the types nor on how they
were grouped into unions before (`join_canonical`).
-/

namespace UnionChecker.Ty

/-! ## The order of names -/

theorem le_total (a b : Ty) : a.le b = true ∨ b.le a = true := textLe_total a.name b.name

theorem le_trans (a b c : Ty) : a.le b = true → b.le c = true → a.le c = true :=
  textLe_trans a.name b.name c.name

theorem le_refl (t : Ty) : t.le t = true := (le_total t t).elim id id

theorem le_of_not_lt {a b : Ty} (h : ¬ b.name < a.name) : a.le b = true :=
  textLe_iff.2 (String.not_lt.1 h)

theorem name_eq_of_le {a b : Ty} (hab : a.le b = true) (hba : b.le a = true) : a.name = b.name :=
  String.le_antisymm (textLe_iff.1 hab) (textLe_iff.1 hba)

/-! ## Representatives -/

/-- One of the types is equal to `t` and has no greater name. -/
def StandsFor (ms : List Ty) (t : Ty) : Prop := ∃ m ∈ ms, m.equal t = true ∧ m.le t = true

theorem standsFor_of_mem {ms : List Ty} {t : Ty} (h : t ∈ ms) : StandsFor ms t :=
  ⟨t, h, equal_refl t, le_refl t⟩

theorem StandsFor.trans {ms ns : List Ty} {t : Ty} (h : StandsFor ms t)
    (hn : ∀ m ∈ ms, StandsFor ns m) : StandsFor ns t := by
  obtain ⟨m, hm, hmt, hle⟩ := h
  obtain ⟨n, hn, hnm, hle'⟩ := hn m hm
  exact ⟨n, hn, equal_trans hnm hmt, le_trans _ _ _ hle' hle⟩

theorem StandsFor.cons {m t : Ty} {ms : List Ty} (h : StandsFor ms t) : StandsFor (m :: ms) t :=
  h.trans fun _ hm => standsFor_of_mem (List.mem_cons_of_mem _ hm)

/-! ## Inserting members -/

/-- A new member takes the place of an equal one, or is different from all. -/
theorem pairwise_insertMember {t : Ty} : ∀ {ms : List Ty},
    ms.Pairwise (fun a b => a.equal b = false) →
    (insertMember equal ms t).Pairwise fun a b => a.equal b = false
  | [], _ => by simp [insertMember]
  | m :: ms, h => by
    obtain ⟨hm, hms⟩ := List.pairwise_cons.1 h
    simp only [insertMember]
    split
    · rename_i hmt
      refine List.pairwise_cons.2 ⟨fun x hx => ?_, hms⟩
      split
      · exact Bool.eq_false_iff.2 fun htx => Bool.eq_false_iff.1 (hm x hx) (equal_trans hmt htx)
      · exact hm x hx
    · rename_i hmt
      refine List.pairwise_cons.2 ⟨fun x hx => ?_, pairwise_insertMember hms⟩
      rcases mem_insertMember hx with hx | rfl
      · exact hm x hx
      · simpa using hmt

theorem pairwise_distinctMembers (ts : List Ty) :
    (distinctMembers equal ts).Pairwise fun a b => a.equal b = false :=
  foldl_invariant (fun _ _ _ h => pairwise_insertMember h) .nil

/-- After an insertion something stands for the new member, and for every member there was. -/
theorem standsFor_insertMember {t s : Ty} : ∀ {ms : List Ty}, s = t ∨ s ∈ ms →
    StandsFor (insertMember equal ms t) s
  | [], h => standsFor_of_mem (by simpa [insertMember] using h)
  | m :: ms, h => by
    simp only [insertMember]
    by_cases hmt : m.equal t = true
    · rw [if_pos hmt]
      by_cases hlt : t.name < m.name
      · rw [if_pos hlt]
        rcases h with rfl | h
        · exact standsFor_of_mem List.mem_cons_self
        · rcases List.mem_cons.1 h with rfl | h
          · exact ⟨t, List.mem_cons_self, equal_symm hmt, le_of_not_lt (String.lt_asymm hlt)⟩
          · exact standsFor_of_mem (List.mem_cons_of_mem _ h)
      · rw [if_neg hlt]
        rcases h with rfl | h
        · exact ⟨m, List.mem_cons_self, hmt, le_of_not_lt hlt⟩
        · exact standsFor_of_mem h
    · rw [if_neg hmt]
      rcases h with h | h
      · exact (standsFor_insertMember (.inl h)).cons
      · rcases List.mem_cons.1 h with rfl | h
        · exact standsFor_of_mem List.mem_cons_self
        · exact (standsFor_insertMember (.inr h)).cons

theorem standsFor_insertMembers {s : Ty} : ∀ {ts ms : List Ty}, s ∈ ms ∨ s ∈ ts →
    StandsFor (ts.foldl (insertMember equal) ms) s
  | [], ms, h => standsFor_of_mem (by simpa using h)
  | t :: ts, ms, h => by
    rw [List.foldl_cons]
    have hall : ∀ m ∈ insertMember equal ms t,
        StandsFor (ts.foldl (insertMember equal) (insertMember equal ms t)) m := fun m hm =>
      standsFor_insertMembers (.inl hm)
    rcases h with h | h
    · exact (standsFor_insertMember (.inr h)).trans hall
    · rcases List.mem_cons.1 h with rfl | h
      · exact (standsFor_insertMember (.inl rfl)).trans hall
      · exact standsFor_insertMembers (.inr h)

/-! ## The members of a built union -/

theorem isUnion_of_mem_flattenAll {ts : List Ty} {m : Ty} (hm : m ∈ flattenAll ts) :
    m.isUnion = false :=
  isUnion_of_mem_flatten (.union ts) hm

theorem mem_distinctMembers {ts : List Ty} {m : Ty} (hm : m ∈ distinctMembers equal ts) :
    m ∈ flattenAll ts := by
  simpa using mem_insertMembers hm

/-- What a built union is: one opened member, or some of them in order, and then not one alone. -/
theorem join_cases (ts : List Ty) :
    (∃ m, distinctMembers equal ts = [m] ∧ join ts = m ∧ m.isUnion = false) ∨
      (join ts = .union (sortOrdered le (distinctMembers equal ts)) ∧
        (distinctMembers equal ts).length ≠ 1) := by
  unfold join unionWith ofMembers
  split
  · rename_i m hm
    have hmem : m ∈ distinctMembers equal ts := by simp [hm]
    exact .inl ⟨m, hm, rfl, isUnion_of_mem_flattenAll (mem_distinctMembers hmem)⟩
  · rename_i hlength
    refine .inr ⟨rfl, fun hone => ?_⟩
    obtain ⟨m, hm⟩ := List.length_eq_one_iff.1 hone
    exact hlength m hm

theorem members_join_perm (ts : List Ty) : (join ts).members.Perm (distinctMembers equal ts) := by
  rcases join_cases ts with ⟨m, hm, hjoin, hunion⟩ | ⟨hjoin, -⟩
  · rw [hjoin, hm, members_of_not_isUnion hunion]
  · rw [hjoin]
    exact sortOrdered_perm _

theorem mem_members_join {ts : List Ty} {m : Ty} (hm : m ∈ (join ts).members) :
    m ∈ flattenAll ts :=
  mem_distinctMembers ((members_join_perm ts).mem_iff.1 hm)

theorem standsFor_join {ts : List Ty} {t : Ty} (ht : t ∈ flattenAll ts) :
    StandsFor (join ts).members t :=
  (standsFor_insertMembers (.inr ht)).trans fun _ hm =>
    standsFor_of_mem ((members_join_perm ts).mem_iff.2 hm)

theorem pairwise_members_join (ts : List Ty) :
    (join ts).members.Pairwise fun a b => a.equal b = false :=
  ((members_join_perm ts).pairwise_iff fun {a b} hab => by rwa [equal_comm]).2
    (pairwise_distinctMembers ts)

theorem sorted_members_join (ts : List Ty) :
    (join ts).members.Pairwise fun a b => a.le b = true := by
  rcases join_cases ts with ⟨m, -, hjoin, hunion⟩ | ⟨hjoin, -⟩
  · rw [hjoin, members_of_not_isUnion hunion]
    exact List.pairwise_singleton _ _
  · rw [hjoin]
    exact pairwise_sortOrdered le_total le_trans _

theorem join_ne_singleton (ts : List Ty) (m : Ty) : join ts ≠ .union [m] := by
  rcases join_cases ts with ⟨n, -, hjoin, hunion⟩ | ⟨hjoin, hlength⟩
  · rintro h
    rw [← hjoin, h] at hunion
    cases hunion
  · rw [hjoin]
    intro h
    have hperm : (sortOrdered le (distinctMembers equal ts)).Perm (distinctMembers equal ts) :=
      sortOrdered_perm _
    rw [Ty.union.inj h] at hperm
    exact hlength hperm.length_eq.symm

/-- In a list of different types, equal ones are the same. -/
theorem eq_of_equal_of_pairwise {ms : List Ty} (h : ms.Pairwise fun a b => a.equal b = false)
    {m n : Ty} (hm : m ∈ ms) (hn : n ∈ ms) (hmn : m.equal n = true) : m = n := by
  have : Std.Symm fun a b : Ty => a.equal b = false := ⟨fun a b hab => by rwa [equal_comm]⟩
  by_contra hne
  exact Bool.eq_false_iff.1 (h.forall hm hn hne) hmn

/-- What a built union is built from, and which of its types it keeps. -/
structure Canonical (ts : List Ty) (u : Ty) : Prop where
  flat : ∀ m ∈ u.members, m.isUnion = false
  distinct : u.members.Pairwise fun a b => a.equal b = false
  never_one : ∀ m, u ≠ .union [m]
  sorted : u.members.Pairwise fun a b => a.le b = true
  /-- Every member is one of the opened types. -/
  kept : ∀ m ∈ u.members, m ∈ flattenAll ts
  /-- Of the types equal to an opened one, a smallest is a member. -/
  smallest : ∀ t ∈ flattenAll ts, ∃ m ∈ u.members, m.equal t = true ∧
    ∀ s ∈ flattenAll ts, s.equal t = true → m.le s = true

theorem canonical_join (ts : List Ty) : Canonical ts (join ts) where
  flat _ hm := isUnion_of_mem_flattenAll (mem_members_join hm)
  distinct := pairwise_members_join ts
  never_one := join_ne_singleton ts
  sorted := sorted_members_join ts
  kept _ := mem_members_join
  smallest t ht := by
    obtain ⟨m, hm, hmt, -⟩ := standsFor_join ht
    refine ⟨m, hm, hmt, fun s hs hst => ?_⟩
    obtain ⟨n, hn, hns, hle⟩ := standsFor_join hs
    -- what stands for `s` equals `m`, and there is one member of each class
    have hnm : n = m := eq_of_equal_of_pairwise (pairwise_members_join ts) hn hm
      (equal_trans hns (equal_trans hst (equal_symm hmt)))
    rwa [hnm] at hle

/-! ## Unions that cannot be told apart -/

/-- The types are equal and have the same name. -/
def Agree (a b : Ty) : Prop := a.equal b = true ∧ a.name = b.name

instance (a b : Ty) : Decidable (Agree a b) := inferInstanceAs (Decidable (_ ∧ _))

theorem Agree.standsFor {a b : Ty} {ms : List Ty} (h : Agree a b) (ha : a ∈ ms) : StandsFor ms b :=
  ⟨a, ha, h.1, textLe_iff.2 (h.2 ▸ String.le_refl a.name)⟩

theorem name_eq_intercalate (t : Ty) : t.name = " | ".intercalate (t.members.map name) := by
  cases t with
  | union ms => rw [name, nameAll_eq_map, members]
  | var | named | fn => simp [members]

/-- Different types in order, such that each list has something that stands for each member of the
other, have the same names. -/
theorem map_name_eq {ms ns : List Ty} (hms : ms.Pairwise fun a b => a.equal b = false)
    (hns : ns.Pairwise fun a b => a.equal b = false) (sms : ms.Pairwise fun a b => a.le b = true)
    (sns : ns.Pairwise fun a b => a.le b = true) (hmn : ∀ m ∈ ms, StandsFor ns m)
    (hnm : ∀ n ∈ ns, StandsFor ms n) : ms.map name = ns.map name := by
  -- a type is filed under its class and its name: each list has every pair once, and both have the
  -- same pairs
  have hnodup : ∀ {ls : List Ty}, ls.Pairwise (fun a b => a.equal b = false) →
      (ls.map fun t => (t.equal, t.name)).Nodup := fun h => by
    refine List.pairwise_map.2 (h.imp fun {a b} hab heq => ?_)
    rw [congrFun (Prod.mk.inj heq).1 b, equal_refl] at hab
    cases hab
  have hsub : ∀ {ks ls : List Ty}, ks.Pairwise (fun a b => a.equal b = false) →
      (∀ k ∈ ks, StandsFor ls k) → (∀ l ∈ ls, StandsFor ks l) →
      ∀ k ∈ ks, (k.equal, k.name) ∈ ls.map fun t => (t.equal, t.name) := by
    intro ks ls hks hkl hlk k hk
    obtain ⟨l, hl, hlk', hle⟩ := hkl k hk
    obtain ⟨k', hk', hk'l, hle'⟩ := hlk l hl
    rw [eq_of_equal_of_pairwise hks hk' hk (equal_trans hk'l hlk')] at hle'
    refine List.mem_map.2 ⟨l, hl, Prod.ext ?_ (name_eq_of_le hle hle')⟩
    funext c
    exact Bool.eq_iff_iff.2 ⟨equal_trans (equal_symm hlk'), equal_trans hlk'⟩
  have hperm : (ms.map fun t => (t.equal, t.name)).Perm (ns.map fun t => (t.equal, t.name)) := by
    refine (List.perm_ext_iff_of_nodup (hnodup hms) (hnodup hns)).2 fun e =>
      ⟨fun he => ?_, fun he => ?_⟩
    · obtain ⟨m, hm, rfl⟩ := List.mem_map.1 he
      exact hsub hms hmn hnm m hm
    · obtain ⟨n, hn, rfl⟩ := List.mem_map.1 he
      exact hsub hns hnm hmn n hn
  have hnames : (ms.map name).Perm (ns.map name) := by
    simpa only [List.map_map, Function.comp_def] using hperm.map Prod.snd
  have hantisymm : ∀ a b, a ∈ ms.map name → b ∈ ns.map name → textLe a b = true →
      textLe b a = true → a = b := fun a b _ _ hab hba =>
    String.le_antisymm (textLe_iff.1 hab) (textLe_iff.1 hba)
  exact hnames.eq_of_pairwise hantisymm (List.pairwise_map.2 sms) (List.pairwise_map.2 sns)

/-- Unions agree when each opened type of one has an equal one with no greater name in the other. -/
theorem agree_join {xs ys : List Ty} (hxy : ∀ x ∈ flattenAll xs, StandsFor (flattenAll ys) x)
    (hyx : ∀ y ∈ flattenAll ys, StandsFor (flattenAll xs) y) : Agree (join xs) (join ys) := by
  have hleft : ∀ x ∈ (join xs).members, StandsFor (join ys).members x := fun x hx =>
    (hxy x (mem_members_join hx)).trans fun _ => standsFor_join
  have hright : ∀ y ∈ (join ys).members, StandsFor (join xs).members y := fun y hy =>
    (hyx y (mem_members_join hy)).trans fun _ => standsFor_join
  constructor
  · refine (equal_iff_members _ _).2 ⟨fun x hx => ?_, fun y hy => ?_⟩
    · obtain ⟨y, hy, hyx, -⟩ := hleft x hx
      exact ⟨y, hy, equal_symm hyx⟩
    · obtain ⟨x, hx, hxy, -⟩ := hright y hy
      exact ⟨x, hx, hxy⟩
  · rw [name_eq_intercalate, name_eq_intercalate (join ys),
      map_name_eq (pairwise_members_join xs) (pairwise_members_join ys) (sorted_members_join xs)
        (sorted_members_join ys) hleft hright]

/-- Building unions of groups first makes no difference. -/
theorem agree_join_groups (groups : List (List Ty)) :
    Agree (join (groups.map join)) (join groups.flatten) := by
  have hopen : ∀ {t : Ty}, t ∈ flattenAll (groups.map join) ↔
      ∃ ts ∈ groups, t ∈ (join ts).members := by
    simp [flattenAll_eq_flatMap, flatten_join]
  have hflat : ∀ {t : Ty}, t ∈ flattenAll groups.flatten ↔ ∃ ts ∈ groups, t ∈ flattenAll ts := by
    simp only [flattenAll_eq_flatMap, List.mem_flatMap, List.mem_flatten]
    grind
  refine agree_join (fun t ht => ?_) fun t ht => ?_
  · obtain ⟨ts, hts, ht⟩ := hopen.1 ht
    exact standsFor_of_mem (hflat.2 ⟨ts, hts, mem_members_join ht⟩)
  · obtain ⟨ts, hts, ht⟩ := hflat.1 ht
    exact (standsFor_join ht).trans fun m hm => standsFor_of_mem (hopen.2 ⟨ts, hts, hm⟩)

/-- **Built unions are canonical.** Types whose opened members agree one by one, order and
repetition aside, have unions that agree; in particular the order of the types, their grouping and
their repetition make no difference. A built union has no unions as members and no two equal ones,
never has one member alone, is sorted by name, and keeps a smallest of each class of equal types. -/
theorem join_canonical :
    (∀ xs ys : List Ty, (∀ x ∈ flattenAll xs, ∃ y ∈ flattenAll ys, Agree y x) →
      (∀ y ∈ flattenAll ys, ∃ x ∈ flattenAll xs, Agree x y) → Agree (join xs) (join ys)) ∧
    (∀ xs ys : List Ty, xs.Perm ys → Agree (join xs) (join ys)) ∧
    (∀ xs zs : List Ty, Agree (join [join xs, join zs]) (join (xs ++ zs))) ∧
    (∀ xs : List Ty, Agree (join (xs ++ xs)) (join xs) ∧ Agree (join [join xs]) (join xs)) ∧
    ∀ xs : List Ty, Canonical xs (join xs) := by
  have hsame : ∀ {xs ys : List Ty}, (∀ t, t ∈ flattenAll xs ↔ t ∈ flattenAll ys) →
      Agree (join xs) (join ys) := fun h =>
    agree_join (fun t ht => standsFor_of_mem ((h t).1 ht)) fun t ht => standsFor_of_mem ((h t).2 ht)
  refine ⟨fun xs ys hxy hyx => agree_join (fun x hx => ?_) fun y hy => ?_,
    fun xs ys h => hsame fun t => ?_, fun xs zs => ?_, fun xs => ⟨hsame fun t => ?_, ?_⟩,
    canonical_join⟩
  · obtain ⟨y, hy, hyx⟩ := hxy x hx
    exact hyx.standsFor hy
  · obtain ⟨x, hx, hxy⟩ := hyx y hy
    exact hxy.standsFor hx
  · simp only [flattenAll_eq_flatMap]
    exact (h.flatMap_right _).mem_iff
  · simpa using agree_join_groups [xs, zs]
  · simp [flattenAll_eq_flatMap]
  · simpa using agree_join_groups [xs]

/-- One of two spellings comes first in one list and inside a nested union in the other. -/
theorem join_canonical_spellings :
    let idA := fn ["A"] [("x", .var "A")] (.var "A")
    let idB := fn ["B"] [("x", .var "B")] (.var "B")
    let xs := [idB, .union [.union [.int, idA], .int]]
    let ys := [.int, .union [idA, idB]]
    Agree (join xs) (join ys) ∧ (join ys).name = "<A>(<A>) ~> <A> | Int" :=
  ⟨join_canonical.1 _ _ (by decide) (by decide), by decide⟩

end UnionChecker.Ty
