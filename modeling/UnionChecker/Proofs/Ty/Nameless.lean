import Mathlib.Data.Nat.Pairing
import UnionChecker.Proofs.Ty.Decision
/-!
# Types without names for bound generics

A bound generic is a pair here: which function type around binds it, and its position there. Two such
types are the same (`Nameless.Same`) when members of unions can be paired off, whatever their order
and repetition, and everything else agrees part by part.

Keeping only the positions of bound generics (`Nameless.forget`) makes more types the same, unless
positions say which function type is meant (`Nameless.Unambiguous`). Both kinds of sameness are
compared through sets of elements (`Nameless.denote`), as types with names are through their meanings.
-/

namespace UnionChecker

/-- A type without names for bound generics. -/
inductive Nameless where
  | free (name : String)
  /-- The generic at position `index` of the function type that is `binder` function types up. -/
  | bound (binder index : Nat)
  | named (ref : Ref) (args : List Nameless)
  | fn (arity : Nat) (params : List Nameless) (result : Nameless)
  | union (members : List Nameless)

namespace Nameless

mutual

/-- The members of a union with nested unions opened, or the type itself. -/
def members : Nameless → List Nameless
  | .union fs => membersAll fs
  | f => [f]

def membersAll : List Nameless → List Nameless
  | [] => []
  | f :: fs => members f ++ membersAll fs

end

/-- The same type: members of unions are paired off, whatever their order and repetition, and
everything else agrees part by part. -/
inductive Same : Nameless → Nameless → Prop
  | free (x : String) : Same (.free x) (.free x)
  | bound (k i : Nat) : Same (.bound k i) (.bound k i)
  | named (r : Ref) {fs gs : List Nameless} (hl : fs.length = gs.length)
      (h : ∀ p ∈ fs.zip gs, Same p.1 p.2) : Same (.named r fs) (.named r gs)
  | fn (n : Nat) {fs gs : List Nameless} {f g : Nameless} (hl : fs.length = gs.length)
      (hp : ∀ p ∈ fs.zip gs, Same p.1 p.2) (hr : Same f g) : Same (.fn n fs f) (.fn n gs g)
  | union {f g : Nameless} (pairs : List (Nameless × Nameless)) (h : ∀ p ∈ pairs, Same p.1 p.2)
      (hf : ∀ a, a ∈ f.members ↔ a ∈ pairs.map (·.1))
      (hg : ∀ b, b ∈ g.members ↔ b ∈ pairs.map (·.2)) : Same f g

mutual

/-- Change what bound generics are. -/
def relabel (τ : Nat → Nat → Nat × Nat) : Nameless → Nameless
  | .free x => .free x
  | .bound k i => .bound (τ k i).1 (τ k i).2
  | .named r fs => .named r (relabelAll τ fs)
  | .fn n fs f => .fn n (relabelAll τ fs) (relabel τ f)
  | .union fs => .union (relabelAll τ fs)

def relabelAll (τ : Nat → Nat → Nat × Nat) : List Nameless → List Nameless
  | [] => []
  | f :: fs => relabel τ f :: relabelAll τ fs

end

/-- Keep the positions of bound generics only, and not which function type binds them. -/
def forget (f : Nameless) : Nameless := f.relabel fun _ i => (0, i)

/-- Positions say which function type is meant, for function types around with the given numbers of
generics: of these, only the one that binds a generic has so many generics. -/
inductive Unambiguous : List Nat → Nameless → Prop
  | free {ns : List Nat} (x : String) : Unambiguous ns (.free x)
  | bound {ns : List Nat} {k i : Nat} (h : ∀ j n, ns[j]? = some n → i < n → j = k) :
      Unambiguous ns (.bound k i)
  | named {ns : List Nat} {r : Ref} {fs : List Nameless} (h : ∀ f ∈ fs, Unambiguous ns f) :
      Unambiguous ns (.named r fs)
  | fn {ns : List Nat} {n : Nat} {fs : List Nameless} {f : Nameless}
      (hp : ∀ f ∈ fs, Unambiguous (n :: ns) f) (hr : Unambiguous (n :: ns) f) :
      Unambiguous ns (.fn n fs f)
  | union {ns : List Nat} {fs : List Nameless} (h : ∀ f ∈ fs, Unambiguous ns f) :
      Unambiguous ns (.union fs)

/-! ## Meanings of types without names -/

@[induction_eliminator]
theorem inductionOn {motive : Nameless → Prop} (free : ∀ x, motive (.free x))
    (bound : ∀ k i, motive (.bound k i))
    (named : ∀ r fs, (∀ f ∈ fs, motive f) → motive (.named r fs))
    (fn : ∀ n fs f, (∀ f ∈ fs, motive f) → motive f → motive (.fn n fs f))
    (union : ∀ fs, (∀ f ∈ fs, motive f) → motive (.union fs)) (f : Nameless) : motive f :=
  @Nameless.rec motive (fun fs => ∀ f ∈ fs, motive f) free bound named fn union (by simp)
    (fun f fs hf hfs => by simpa using ⟨hf, hfs⟩) f

open Ty (Element number number_inj)

mutual

/-- The elements of a type, where a bound generic counts as the number that `c` gives it. -/
noncomputable def denote (c : Nat → Nat → Nat) : Nameless → Finset Nat
  | .free x => {number (.free x)}
  | .bound k i => {number (.bound (c k i))}
  | .named r fs => {number (.named r.package r.name (denoteAll c fs))}
  | .fn n fs f => {number (.fn n (denoteAll c fs) (denote c f))}
  | .union fs => (denoteAll c fs).foldr (· ∪ ·) ∅

noncomputable def denoteAll (c : Nat → Nat → Nat) : List Nameless → List (Finset Nat)
  | [] => []
  | f :: fs => denote c f :: denoteAll c fs

end

theorem denoteAll_eq_map (c : Nat → Nat → Nat) :
    ∀ fs : List Nameless, denoteAll c fs = fs.map (denote c)
  | [] => rfl
  | f :: fs => congrArg (denote c f :: ·) (denoteAll_eq_map c fs)

theorem membersAll_eq_flatMap : ∀ fs : List Nameless, membersAll fs = fs.flatMap members
  | [] => rfl
  | f :: fs => congrArg (f.members ++ ·) (membersAll_eq_flatMap fs)

theorem relabelAll_eq_map (τ : Nat → Nat → Nat × Nat) :
    ∀ fs : List Nameless, relabelAll τ fs = fs.map (relabel τ)
  | [] => rfl
  | f :: fs => congrArg (f.relabel τ :: ·) (relabelAll_eq_map τ fs)

theorem mem_denote_union {c : Nat → Nat → Nat} {fs : List Nameless} {e : Nat} :
    e ∈ denote c (.union fs) ↔ ∃ f ∈ fs, e ∈ denote c f := by
  show e ∈ (denoteAll c fs).foldr (· ∪ ·) ∅ ↔ _
  rw [denoteAll_eq_map]
  induction fs with
  | nil => simp
  | cons f fs ih => simp [ih]

theorem mem_denote_members {c : Nat → Nat → Nat} {e : Nat} (f : Nameless) :
    (∃ m ∈ f.members, e ∈ denote c m) ↔ e ∈ denote c f := by
  induction f with
  | union fs ih =>
    simp only [members, membersAll_eq_flatMap, List.mem_flatMap, mem_denote_union]
    constructor
    · rintro ⟨m, ⟨f, hf, hm⟩, he⟩
      exact ⟨f, hf, (ih f hf).1 ⟨m, hm, he⟩⟩
    · rintro ⟨f, hf, he⟩
      obtain ⟨m, hm, he⟩ := (ih f hf).2 he
      exact ⟨m, ⟨f, hf, hm⟩, he⟩
  | _ => simp [members]

/-- Whether a type is a union. -/
def isUnion : Nameless → Bool
  | .union _ => true
  | _ => false

theorem isUnion_of_mem_members {f m : Nameless} (h : m ∈ f.members) : m.isUnion = false := by
  induction f with
  | union fs ih =>
    rw [members, membersAll_eq_flatMap, List.mem_flatMap] at h
    obtain ⟨f, hf, hm⟩ := h
    exact ih f hf hm
  | _ => cases List.mem_singleton.1 h; rfl

theorem denote_singleton {c : Nat → Nat → Nat} {f : Nameless} (h : f.isUnion = false) :
    ∃ e, denote c f = {e} := by
  cases f with
  | union fs => cases h
  | _ => exact ⟨_, rfl⟩

/-- Each member of one of two types with the same elements has a member of the other with the same
element. -/
theorem exists_member_denote_eq {c : Nat → Nat → Nat} {f g a : Nameless}
    (h : denote c f = denote c g) (ha : a ∈ f.members) :
    ∃ b ∈ g.members, denote c a = denote c b := by
  obtain ⟨e, he⟩ := denote_singleton (c := c) (isUnion_of_mem_members ha)
  have heg : e ∈ denote c g := by
    rw [← h, ← mem_denote_members]
    exact ⟨a, ha, by simp [he]⟩
  obtain ⟨b, hb, heb⟩ := (mem_denote_members g).2 heg
  obtain ⟨e', he'⟩ := denote_singleton (c := c) (isUnion_of_mem_members hb)
  rw [he', Finset.mem_singleton] at heb
  exact ⟨b, hb, by rw [he, he', heb]⟩

theorem sizeOf_le_of_mem_members {f m : Nameless} (h : m ∈ f.members) : sizeOf m ≤ sizeOf f := by
  induction f with
  | union fs ih =>
    rw [members, membersAll_eq_flatMap, List.mem_flatMap] at h
    obtain ⟨f, hf, hm⟩ := h
    have h1 := ih f hf hm
    have h2 := List.sizeOf_lt_of_mem hf
    simp only [union.sizeOf_spec]
    omega
  | _ => simp only [members, List.mem_singleton] at h; simp [h]

theorem sizeOf_lt_of_mem_union {fs : List Nameless} {m : Nameless}
    (h : m ∈ (union fs).members) : sizeOf m < sizeOf (union fs) := by
  rw [members, membersAll_eq_flatMap, List.mem_flatMap] at h
  obtain ⟨f, hf, hm⟩ := h
  have h1 := sizeOf_le_of_mem_members hm
  have h2 := List.sizeOf_lt_of_mem hf
  simp only [union.sizeOf_spec]
  omega

theorem members_relabel (τ : Nat → Nat → Nat × Nat) (f : Nameless) :
    (f.relabel τ).members = f.members.map (relabel τ) := by
  induction f with
  | union fs ih =>
    simp only [relabel, members, membersAll_eq_flatMap, relabelAll_eq_map, List.flatMap_map,
      List.map_flatMap]
    exact List.flatMap_congr ih
  | _ => simp [relabel, members]

theorem denote_relabel (c : Nat → Nat → Nat) (τ : Nat → Nat → Nat × Nat) (f : Nameless) :
    denote c (f.relabel τ) = denote (fun k i => c (τ k i).1 (τ k i).2) f := by
  induction f with
  | free x => rfl
  | bound k i => rfl
  | named r fs ih =>
    simp only [relabel, denote, denoteAll_eq_map, relabelAll_eq_map, List.map_map,
      Function.comp_def, List.map_congr_left ih]
  | fn n fs f ihs ih =>
    simp only [relabel, denote, denoteAll_eq_map, relabelAll_eq_map, List.map_map,
      Function.comp_def, List.map_congr_left ihs, ih]
  | union fs ih =>
    simp only [relabel, denote, denoteAll_eq_map, relabelAll_eq_map, List.map_map,
      Function.comp_def, List.map_congr_left ih]

theorem map_eq_map_of_zip {β : Type} {d : Nameless → β} {fs gs : List Nameless}
    (hl : fs.length = gs.length) (h : ∀ p ∈ fs.zip gs, d p.1 = d p.2) : fs.map d = gs.map d :=
  map_eq_map_of_forall₂ (List.forall₂_iff_zip.2 ⟨hl, fun hab => h _ hab⟩) fun _ _ _ _ hab => hab

/-- The same types have the same elements. -/
theorem Same.denote_eq {f g : Nameless} (h : Same f g) (c : Nat → Nat → Nat) :
    denote c f = denote c g := by
  induction h with
  | free x => rfl
  | bound k i => rfl
  | named r hl _ ih =>
    simp only [denote, denoteAll_eq_map, map_eq_map_of_zip hl ih]
  | fn n hl _ _ ihp ihr =>
    simp only [denote, denoteAll_eq_map, map_eq_map_of_zip hl ihp, ihr]
  | @union f g pairs _ hf hg ih =>
    ext e
    rw [← mem_denote_members f, ← mem_denote_members g]
    simp only [hf, hg, List.mem_map]
    constructor
    · rintro ⟨_, ⟨p, hp, rfl⟩, he⟩; exact ⟨_, ⟨p, hp, rfl⟩, ih p hp ▸ he⟩
    · rintro ⟨_, ⟨p, hp, rfl⟩, he⟩; exact ⟨_, ⟨p, hp, rfl⟩, (ih p hp).symm ▸ he⟩

theorem relabel_mk (f : Nameless) : f.relabel Prod.mk = f := by
  induction f with
  | free x => rfl
  | bound k i => rfl
  | named r fs ih => rw [relabel, relabelAll_eq_map, List.map_congr_left ih, List.map_id']
  | fn n fs f ihs ih => rw [relabel, relabelAll_eq_map, List.map_congr_left ihs, List.map_id', ih]
  | union fs ih => rw [relabel, relabelAll_eq_map, List.map_congr_left ih, List.map_id']

/-- The members of two types with the same elements can be paired off by their elements. -/
theorem exists_pairs {c : Nat → Nat → Nat} {f g : Nameless} (h : denote c f = denote c g) :
    ∃ pairs : List (Nameless × Nameless),
      (∀ p ∈ pairs, (p.1 ∈ f.members ∧ p.2 ∈ g.members) ∧ denote c p.1 = denote c p.2) ∧
      (∀ a, a ∈ f.members ↔ a ∈ pairs.map (·.1)) ∧ ∀ b, b ∈ g.members ↔ b ∈ pairs.map (·.2) := by
  classical
  let pairs := (f.members.product g.members).filter fun p => denote c p.1 = denote c p.2
  have hmem : ∀ a b, (a, b) ∈ pairs ↔
      (a ∈ f.members ∧ b ∈ g.members) ∧ denote c a = denote c b := fun a b => by
    simp only [pairs, List.mem_filter, List.pair_mem_product, decide_eq_true_eq]
  refine ⟨pairs, fun p hp => (hmem _ _).1 hp, fun a => ⟨fun ha => ?_, fun ha => ?_⟩,
    fun b => ⟨fun hb => ?_, fun hb => ?_⟩⟩
  · obtain ⟨b, hb, he⟩ := exists_member_denote_eq h ha
    exact List.mem_map.2 ⟨(a, b), (hmem a b).2 ⟨⟨ha, hb⟩, he⟩, rfl⟩
  · obtain ⟨p, hp, rfl⟩ := List.mem_map.1 ha
    exact ((hmem _ _).1 hp).1.1
  · obtain ⟨a, ha, he⟩ := exists_member_denote_eq h.symm hb
    exact List.mem_map.2 ⟨(a, b), (hmem a b).2 ⟨⟨ha, hb⟩, he.symm⟩, rfl⟩
  · obtain ⟨p, hp, rfl⟩ := List.mem_map.1 hb
    exact ((hmem _ _).1 hp).1.2

/-- Induction along two types with the same elements. Members with the same element correspond, and
then their parts do. The function types around have the given numbers of generics. -/
theorem denote_induction {c : Nat → Nat → Nat} {R : List Nat → Nameless → Nameless → Prop}
    (hmembers : ∀ {ns f g}, denote c f = denote c g → (∀ a ∈ f.members, ∀ b ∈ g.members,
      denote c a = denote c b → R ns a b) → R ns f g)
    (hfree : ∀ {ns} x, R ns (.free x) (.free x))
    (hbound : ∀ {ns k i k' i'}, c k i = c k' i' → R ns (.bound k i) (.bound k' i'))
    (hnamed : ∀ {ns r fs gs}, List.Forall₂ (R ns) fs gs → R ns (.named r fs) (.named r gs))
    (hfn : ∀ {ns n fs gs f g}, List.Forall₂ (R (n :: ns)) fs gs → R (n :: ns) f g →
      R ns (.fn n fs f) (.fn n gs g))
    (ns : List Nat) {f g : Nameless} (h : denote c f = denote c g) : R ns f g := by
  induction hs : sizeOf f + sizeOf g using Nat.strong_induction_on generalizing ns f g with
  | _ s ih =>
    -- a union on either side is compared by members, which are smaller on that side
    have hright : ∀ gs, g = .union gs → R ns f g := by
      rintro gs rfl
      refine hmembers h fun a ha b hb hab => ih _ ?_ _ hab rfl
      have h1 := sizeOf_le_of_mem_members ha
      have h2 := sizeOf_lt_of_mem_union hb
      omega
    have hparts : ∀ {ns : List Nat} {fs gs : List Nameless}, sizeOf fs + sizeOf gs < s →
        fs.map (denote c) = gs.map (denote c) → List.Forall₂ (R ns) fs gs := by
      refine fun hfg he => forall₂_of_map_eq_map he fun a ha b hb hab => ih _ ?_ _ hab rfl
      have h1 := List.sizeOf_lt_of_mem ha
      have h2 := List.sizeOf_lt_of_mem hb
      omega
    cases f with
    | union fs =>
      refine hmembers h fun a ha b hb hab => ih _ ?_ _ hab rfl
      have h1 := sizeOf_lt_of_mem_union ha
      have h2 := sizeOf_le_of_mem_members hb
      omega
    | free x =>
      cases g with
      | union gs => exact hright gs rfl
      | free y =>
        simp only [denote, Finset.singleton_inj, number_inj, Element.free.injEq] at h
        exact h ▸ hfree x
      | _ => simp [denote, number_inj] at h
    | bound k i =>
      cases g with
      | union gs => exact hright gs rfl
      | bound k' i' =>
        simp only [denote, Finset.singleton_inj, number_inj, Element.bound.injEq] at h
        exact hbound h
      | _ => simp [denote, number_inj] at h
    | named r fs =>
      cases g with
      | union gs => exact hright gs rfl
      | named r' gs =>
        simp only [denote, Finset.singleton_inj, number_inj, Element.named.injEq,
          denoteAll_eq_map] at h
        obtain ⟨hp, hn, h⟩ := h
        obtain rfl : r = r' := by cases r; cases r'; simp_all
        simp only [named.sizeOf_spec] at hs
        exact hnamed (hparts (by omega) h)
      | _ => simp [denote, number_inj] at h
    | fn n fs f =>
      cases g with
      | union gs => exact hright gs rfl
      | fn n' gs g =>
        simp only [denote, Finset.singleton_inj, number_inj, Element.fn.injEq,
          denoteAll_eq_map] at h
        obtain ⟨rfl, hps, hr⟩ := h
        simp only [fn.sizeOf_spec] at hs
        exact hfn (hparts (by omega) hps) (ih _ (by omega) _ hr rfl)
      | _ => simp [denote, number_inj] at h

/-- Types with the same elements are the same once bound generics of equal numbers are made one. -/
theorem same_relabel_of_denote_eq {c : Nat → Nat → Nat} {τ : Nat → Nat → Nat × Nat}
    (hτ : ∀ k i k' i', c k i = c k' i' → τ k i = τ k' i') {f g : Nameless}
    (h : denote c f = denote c g) : Same (f.relabel τ) (g.relabel τ) := by
  have hparts : ∀ {fs gs : List Nameless},
      List.Forall₂ (fun a b => Same (a.relabel τ) (b.relabel τ)) fs gs →
      (fs.map (relabel τ)).length = (gs.map (relabel τ)).length ∧
        ∀ p ∈ (fs.map (relabel τ)).zip (gs.map (relabel τ)), Same p.1 p.2 := by
    intro fs gs hfg
    have hz := List.forall₂_iff_zip.1 (List.forall₂_map_left_iff.2 (List.forall₂_map_right_iff.2 hfg))
    exact ⟨hz.1, fun p hp => hz.2 hp⟩
  refine denote_induction (R := fun _ f g => Same (f.relabel τ) (g.relabel τ)) ?_ .free ?_ ?_ ?_ [] h
  · intro _ f g h ih
    obtain ⟨pairs, hpairs, hf, hg⟩ := exists_pairs h
    refine .union (pairs.map fun p => (p.1.relabel τ, p.2.relabel τ)) (fun p hp => ?_)
      (fun a => ?_) (fun b => ?_)
    · obtain ⟨q, hq, rfl⟩ := List.mem_map.1 hp
      obtain ⟨⟨ha, hb⟩, he⟩ := hpairs q hq
      exact ih _ ha _ hb he
    · simp only [members_relabel, List.map_map, List.mem_map, hf, Function.comp_def]; grind
    · simp only [members_relabel, List.map_map, List.mem_map, hg, Function.comp_def]; grind
  · intro _ k i k' i' he
    rw [relabel, relabel, hτ _ _ _ _ he]
    exact .bound _ _
  · intro _ r fs gs hfg
    simp only [relabel, relabelAll_eq_map]
    exact .named r (hparts hfg).1 (hparts hfg).2
  · intro _ n fs gs f g hfg hr
    simp only [relabel, relabelAll_eq_map]
    exact .fn n (hparts hfg).1 (hparts hfg).2 hr

/-- Types are the same exactly when they have the same elements, with bound generics told apart. -/
theorem same_iff_denote_eq {f g : Nameless} : Same f g ↔ denote Nat.pair f = denote Nat.pair g := by
  refine ⟨fun h => h.denote_eq _, fun h => ?_⟩
  have hs := same_relabel_of_denote_eq (τ := Prod.mk) (fun k i k' i' he => by
    obtain ⟨rfl, rfl⟩ := Nat.pair_eq_pair.1 he; rfl) h
  rwa [relabel_mk, relabel_mk] at hs

/-- With only their positions kept, types are the same exactly when they have the same elements, with
bound generics told apart by position. -/
theorem same_forget_iff {f g : Nameless} :
    Same f.forget g.forget ↔ denote (fun _ i => i) f = denote (fun _ i => i) g := by
  refine ⟨fun h => ?_, fun h => ?_⟩
  · simpa [forget, denote_relabel] using h.denote_eq fun _ i => i
  · exact same_relabel_of_denote_eq (fun k i k' i' he => by rw [he]) h

/-! ## When positions suffice -/

/-- Bound generics are positions of function types around, which have the given numbers of
generics. -/
inductive Scoped : List Nat → Nameless → Prop
  | free {ns : List Nat} (x : String) : Scoped ns (.free x)
  | bound {ns : List Nat} {k i n : Nat} (h : ns[k]? = some n) (hi : i < n) : Scoped ns (.bound k i)
  | named {ns : List Nat} {r : Ref} {fs : List Nameless} (h : ∀ f ∈ fs, Scoped ns f) :
      Scoped ns (.named r fs)
  | fn {ns : List Nat} {n : Nat} {fs : List Nameless} {f : Nameless}
      (hp : ∀ f ∈ fs, Scoped (n :: ns) f) (hr : Scoped (n :: ns) f) : Scoped ns (.fn n fs f)
  | union {ns : List Nat} {fs : List Nameless} (h : ∀ f ∈ fs, Scoped ns f) : Scoped ns (.union fs)

theorem Scoped.of_mem_members {ns : List Nat} {f m : Nameless} (h : Scoped ns f)
    (hm : m ∈ f.members) : Scoped ns m := by
  induction f with
  | union fs ih =>
    rw [members, membersAll_eq_flatMap, List.mem_flatMap] at hm
    obtain ⟨f, hf, hm⟩ := hm
    cases h with
    | union h => exact ih f hf (h f hf) hm
  | _ => simp only [members, List.mem_singleton] at hm; exact hm ▸ h

theorem Unambiguous.of_mem_members {ns : List Nat} {f m : Nameless} (h : Unambiguous ns f)
    (hm : m ∈ f.members) : Unambiguous ns m := by
  induction f with
  | union fs ih =>
    rw [members, membersAll_eq_flatMap, List.mem_flatMap] at hm
    obtain ⟨f, hf, hm⟩ := hm
    cases h with
    | union h => exact ih f hf (h f hf) hm
  | _ => simp only [members, List.mem_singleton] at hm; exact hm ▸ h

theorem denote_eq_of_members {c d : Nat → Nat → Nat} {f g : Nameless}
    (h : denote c f = denote c g) (hm : ∀ a ∈ f.members, ∀ b ∈ g.members,
      denote c a = denote c b → denote d a = denote d b) : denote d f = denote d g := by
  ext e
  rw [← mem_denote_members f, ← mem_denote_members g]
  constructor
  · rintro ⟨a, ha, he⟩
    obtain ⟨b, hb, hab⟩ := exists_member_denote_eq h ha
    exact ⟨b, hb, hm a ha b hb hab ▸ he⟩
  · rintro ⟨b, hb, he⟩
    obtain ⟨a, ha, hab⟩ := exists_member_denote_eq h.symm hb
    exact ⟨a, ha, hm a ha b hb hab.symm ▸ he⟩

/-- If positions say in one of two types which function type is meant, then types that agree in
positions agree. -/
theorem Unambiguous.denote_eq {ns : List Nat} {f g : Nameless} (hf : Unambiguous ns f)
    (hg : Scoped ns g) (h : denote (fun _ i => i) f = denote (fun _ i => i) g) :
    denote Nat.pair f = denote Nat.pair g := by
  have hparts : ∀ {ns : List Nat} {fs gs : List Nameless}, List.Forall₂ (fun f g =>
        Unambiguous ns f → Scoped ns g → denote Nat.pair f = denote Nat.pair g) fs gs →
      (∀ f ∈ fs, Unambiguous ns f) → (∀ g ∈ gs, Scoped ns g) →
      fs.map (denote Nat.pair) = gs.map (denote Nat.pair) := fun hfg hu hsc =>
    map_eq_map_of_forall₂ hfg fun a ha b hb hab => hab (hu a ha) (hsc b hb)
  refine denote_induction (R := fun ns f g => Unambiguous ns f → Scoped ns g →
    denote Nat.pair f = denote Nat.pair g) ?_ (fun _ _ _ => rfl) ?_ ?_ ?_ ns h hf hg
  · intro ns f g h ih hf hg
    exact denote_eq_of_members h fun a ha b hb hab =>
      ih a ha b hb hab (hf.of_mem_members ha) (hg.of_mem_members hb)
  · rintro ns k i k' _ rfl hf hg
    cases hf with
    | bound hk =>
      cases hg with
      | bound hn hi => rw [hk k' _ hn hi]
  · intro ns r fs gs hfg hf hg
    cases hf with
    | named hf =>
      cases hg with
      | named hg => simp only [denote, denoteAll_eq_map, hparts hfg hf hg]
  · intro ns n fs gs f g hfg hr hf hg
    cases hf with
    | fn hfp hfr =>
      cases hg with
      | fn hgp hgr => simp only [denote, denoteAll_eq_map, hparts hfg hfp hgp, hr hfr hgr]

end Nameless

end UnionChecker
