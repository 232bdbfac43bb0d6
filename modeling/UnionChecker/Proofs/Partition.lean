import UnionChecker.Proofs.Coverage
import UnionChecker.Proofs.Ty.Hereditary
import UnionChecker.Proofs.Ty.Order
/-!
# Arms and partitions

Arms that are all taken and leave nothing are the partitions of the subject: each arm is contained
in it, no two have a common member, and together they contain it. An `other` arm gets the complement
of the arms. The bookkeeping of `Coverage` goes member by member, and the types are built unions, so
all that is needed is how the members of a built union relate to those of its types.
-/

namespace UnionChecker

namespace Ty

theorem containedIn_iff {a b : Ty} :
    containedIn a b = true ↔ ∀ m ∈ a.members, ∃ n ∈ b.members, n.equal m = true := by
  simp [containedIn]

/-- A built union has the members of its types, one of each class. -/
theorem exists_mem_members_join {ts : List Ty} (hts : ∀ t ∈ ts, t.flatten = t.members) {m : Ty} :
    (∃ n ∈ (join ts).members, n.equal m = true) ↔
      ∃ t ∈ ts, ∃ n ∈ t.members, n.equal m = true := by
  have hopen : ∀ {n : Ty}, n ∈ flattenAll ts ↔ ∃ t ∈ ts, n ∈ t.members := by
    intro n
    rw [flattenAll_eq_flatMap, List.mem_flatMap]
    exact exists_congr fun t => and_congr_right fun ht => by rw [hts t ht]
  constructor
  · rintro ⟨n, hn, hnm⟩
    obtain ⟨t, ht, hnt⟩ := hopen.1 (mem_members_join hn)
    exact ⟨t, ht, n, hnt, hnm⟩
  · rintro ⟨t, ht, n, hn, hnm⟩
    obtain ⟨k, hk, hkn, -⟩ := standsFor_join (hopen.2 ⟨t, ht, hn⟩)
    exact ⟨k, hk, equal_trans hkn hnm⟩

end Ty

namespace Coverage

open Ty (Normal join containedIn containedIn_iff)

/-- All arms are taken, and nothing is left. -/
def Exhausts (arms : List Ty) (subject : Ty) : Prop :=
  ∃ c, arms.foldlM consume (ofTy subject) = .ok c ∧ c.missing = []

/-- The arms are a partition of `subject`. -/
structure Partition (arms : List Ty) (subject : Ty) : Prop where
  contained : ∀ arm ∈ arms, containedIn arm subject = true
  apart : arms.Pairwise Apart
  covered : containedIn subject (join arms) = true

/-- `r` is what `subject` has and the arms do not. -/
structure Complement (arms : List Ty) (subject r : Ty) : Prop where
  normal : Normal r
  apart : ∀ arm ∈ arms, Apart arm r
  whole : (join (arms ++ [r])).equal subject = true

variable {subject : Ty} {arms : List Ty} {c : Coverage}

/-! ## Members and arms -/

/-- What arms leave are the members of the subject that equal no member of an arm. -/
theorem mem_remaining_arms (h : arms.foldlM consume (ofTy subject) = .ok c) {m : Ty} :
    m ∈ c.remaining ↔
      m ∈ subject.members ∧ ¬ ∃ arm ∈ arms, ∃ n ∈ arm.members, n.equal m = true := by
  obtain ⟨-, -, rfl⟩ := (foldlM_consume_eq_ok (splits_ofTy subject)).1 h
  simp [ofTy, Ty.equal_comm m]

theorem contained_arms (h : arms.foldlM consume (ofTy subject) = .ok c) :
    ∀ arm ∈ arms, containedIn arm subject = true := fun arm harm =>
  containedIn_iff.2 (((foldlM_consume_eq_ok (splits_ofTy subject)).1 h).1 arm harm)

theorem remaining_eq_nil_iff (harms : ∀ arm ∈ arms, arm.flatten = arm.members)
    (h : arms.foldlM consume (ofTy subject) = .ok c) :
    c.remaining = [] ↔ containedIn subject (join arms) = true := by
  rw [List.eq_nil_iff_forall_not_mem, containedIn_iff]
  simp only [mem_remaining_arms h, Ty.exists_mem_members_join harms, not_and, not_not]

/-- **Exhaustive arms are partitions.** -/
theorem exhausts_iff_partition (harms : ∀ arm ∈ arms, arm.flatten = arm.members) :
    Exhausts arms subject ↔ Partition arms subject := by
  constructor
  · rintro ⟨c, h, hmissing⟩
    exact ⟨contained_arms h, ((foldlM_consume_eq_ok (splits_ofTy subject)).1 h).2.1,
      (remaining_eq_nil_iff harms h).1 (remaining_of_missing hmissing)⟩
  · rintro ⟨hcontained, hapart, hcovered⟩
    have h := (foldlM_consume_eq_ok (splits_ofTy subject)).2
      ⟨fun arm harm => containedIn_iff.1 (hcontained arm harm), hapart, rfl⟩
    exact ⟨_, h, missing_eq_nil_iff.2 ((remaining_eq_nil_iff harms h).2 hcovered)⟩

/-! ## The rest -/

theorem normal_of_mem_remaining (hsubject : Normal subject)
    (h : arms.foldlM consume (ofTy subject) = .ok c) {m : Ty} (hm : m ∈ c.remaining) :
    Normal m ∧ m.isUnion = false := by
  have hmem := ((mem_remaining_arms h).1 hm).1
  rw [← hsubject.flatten_eq] at hmem
  exact hsubject.of_mem_flatten subject hmem

/-- **What an `other` arm gets is the complement of the arms.** -/
theorem complement_takeRemaining (hsubject : Normal subject) (harms : ∀ arm ∈ arms, Normal arm)
    (h : arms.foldlM consume (ofTy subject) = .ok c) :
    Complement arms subject c.takeRemaining.1 := by
  have hopen : Ty.flattenAll c.remaining = c.remaining :=
    Ty.flattenAll_of_not_isUnion fun m hm => (normal_of_mem_remaining hsubject h hm).2
  have hrest : ∀ {m : Ty}, m ∈ (join c.remaining).members → m ∈ c.remaining := fun hm => by
    have hm := Ty.mem_members_join hm
    rwa [hopen] at hm
  have hnormal : Normal (join c.remaining) :=
    Ty.normal_join fun m hm => (normal_of_mem_remaining hsubject h hm).1
  refine ⟨hnormal, fun arm harm m hm n hn => ?_, ?_⟩
  · refine Bool.eq_false_iff.2 fun hnm => ((mem_remaining_arms h).1 (hrest hn)).2 ?_
    exact ⟨arm, harm, m, hm, Ty.equal_symm hnm⟩
  · have hflat : ∀ t ∈ arms ++ [join c.remaining], t.flatten = t.members := by
      intro t ht
      rcases List.mem_append.1 ht with ht | ht
      · exact (harms t ht).flatten_eq
      · rw [List.mem_singleton.1 ht]
        exact hnormal.flatten_eq
    refine (Ty.equal_iff_members _ _).2 ⟨fun x hx => ?_, fun y hy => ?_⟩
    · -- a member of the union is one of an arm or of the rest, and the subject has both
      obtain ⟨t, ht, n, hn, hnx⟩ := (Ty.exists_mem_members_join hflat).1 ⟨x, hx, Ty.equal_refl x⟩
      rcases List.mem_append.1 ht with ht | ht
      · obtain ⟨y, hy, hyn⟩ := containedIn_iff.1 (contained_arms h t ht) n hn
        exact ⟨y, hy, Ty.equal_symm (Ty.equal_trans hyn hnx)⟩
      · rw [List.mem_singleton.1 ht] at hn
        exact ⟨n, ((mem_remaining_arms h).1 (hrest hn)).1, Ty.equal_symm hnx⟩
    · refine (Ty.exists_mem_members_join hflat).2 ?_
      by_cases hy' : y ∈ c.remaining
      · rw [← hopen] at hy'
        obtain ⟨n, hn, hny, -⟩ := Ty.standsFor_join hy'
        exact ⟨_, List.mem_append_right _ (List.mem_singleton_self _), n, hn, hny⟩
      · rw [mem_remaining_arms h, not_and, not_not] at hy'
        obtain ⟨arm, harm, n, hn, hny⟩ := hy' hy
        exact ⟨arm, List.mem_append_left _ harm, n, hn, hny⟩

/-- **Accepted arms are the partitions of the subject, and the rest is their complement.** So the
order of the arms does not matter. -/
theorem consume_partitions (hsubject : Normal subject) (harms : ∀ arm ∈ arms, Normal arm) :
    (Exhausts arms subject ↔ Partition arms subject) ∧
    (∀ c, arms.foldlM consume (ofTy subject) = .ok c →
      Complement arms subject c.takeRemaining.1 ∧ c.takeRemaining.2.missing = []) ∧
    ∀ arms' : List Ty, arms'.Perm arms →
      (Exhausts arms' subject ↔ Exhausts arms subject) ∧
      ∀ c, arms.foldlM consume (ofTy subject) = .ok c → ∃ c',
        arms'.foldlM consume (ofTy subject) = .ok c' ∧ c'.takeRemaining.1 = c.takeRemaining.1 := by
  have hperm : ∀ {xs ys : List Ty} {c : Coverage}, xs.Perm ys →
      ys.foldlM consume (ofTy subject) = .ok c →
      ∃ c', xs.foldlM consume (ofTy subject) = .ok c' ∧ c'.remaining = c.remaining :=
    fun hperm h => foldlM_consume_perm (splits_ofTy subject) hperm h
  have hexhausts : ∀ {xs ys : List Ty}, xs.Perm ys → Exhausts ys subject → Exhausts xs subject := by
    rintro xs ys hxy ⟨c, h, hmissing⟩
    obtain ⟨c', h', hremaining⟩ := hperm hxy h
    exact ⟨c', h', by rw [missing, hremaining]; exact hmissing⟩
  refine ⟨exhausts_iff_partition fun arm harm => (harms arm harm).flatten_eq,
    fun c h => ⟨complement_takeRemaining hsubject harms h, missing_eq_nil_iff.2 rfl⟩,
    fun arms' harms' => ⟨⟨hexhausts harms'.symm, hexhausts harms'⟩, fun c h => ?_⟩⟩
  obtain ⟨c', h', hremaining⟩ := hperm harms' h
  exact ⟨c', h', by rw [takeRemaining, hremaining]; rfl⟩

/-- An arm that spells a function type in its own way and has `Int` as well leaves `String`. -/
theorem consume_partitions_rest :
    let identity (g : String) := Ty.fn [g] [("x", .var g)] (.var g)
    let subject := Ty.union [identity "A", .int, .string]
    let arms := [Ty.union [identity "B", .int]]
    ∃ c, arms.foldlM consume (ofTy subject) = .ok c ∧ c.missing = ["String"] ∧
      Complement arms subject c.takeRemaining.1 ∧ c.takeRemaining.2.missing = [] := by
  intro identity subject arms
  have hidentity : ∀ g, Normal (identity g) := fun g => .fn (by simp [Normal.var]) (.var g)
  have hbuiltin : ∀ name, Normal (.builtin name) := fun _ => .named (by simp)
  have hsubject : Normal subject := .union
    (by simp [hidentity, show Normal .int from hbuiltin _, show Normal .string from hbuiltin _])
    (by decide) (by decide) (by decide) (by decide)
  have harms : ∀ arm ∈ arms, Normal arm := by
    refine List.forall_mem_singleton.2 (.union ?_ (by decide) (by decide) (by decide) (by decide))
    simp [hidentity, show Normal .int from hbuiltin _]
  exact ⟨_, rfl, rfl, (consume_partitions hsubject harms).2.1 _ rfl⟩

end Coverage

end UnionChecker
