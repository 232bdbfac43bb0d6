import UnionChecker.Proofs.Lists
import UnionChecker.Proofs.Ty.Structure
/-!
# Building unions

A union is built by opening nested unions, dropping members that compare equal to one already there
and sorting. A property that a union has through one of its members (`Spreads`) goes through this:
the built union has it exactly when one of the types has it (`Spreads.unionWith_iff`), as long as the
comparison only calls types equal that have the property both or not at all.
-/

namespace UnionChecker.Ty

/-- A union has the property exactly when a member has it. -/
def Spreads (P : Ty → Prop) : Prop := ∀ ms, P (.union ms) ↔ ∃ m ∈ ms, P m

variable {P : Ty → Prop} {eq : Ty → Ty → Bool}

theorem mem_insertMember {t x : Ty} :
    ∀ {ms : List Ty}, x ∈ insertMember eq ms t → x ∈ ms ∨ x = t
  | [], h => by simpa [insertMember] using h
  | m :: ms, h => by
    simp only [insertMember] at h
    split at h
    · split at h <;> simp only [List.mem_cons] at h ⊢ <;> tauto
    · rcases List.mem_cons.1 h with rfl | h
      · simp
      · rcases mem_insertMember h with h | h <;> simp [h]

theorem mem_insertMembers {x : Ty} :
    ∀ {ts ms : List Ty}, x ∈ ts.foldl (insertMember eq) ms → x ∈ ms ∨ x ∈ ts
  | [], _, h => Or.inl h
  | t :: ts, ms, h => by
    rw [List.foldl_cons] at h
    rcases mem_insertMembers h with h | h
    · rcases mem_insertMember h with h | h <;> simp [h]
    · simp [h]

/-- A built union is one of the opened members, or a union of some of them. -/
theorem unionWith_cases (eq : Ty → Ty → Bool) (ts : List Ty) :
    unionWith eq ts ∈ flattenAll ts ∨
      ∃ ms, unionWith eq ts = .union ms ∧ ∀ m ∈ ms, m ∈ flattenAll ts := by
  have hsub : ∀ m ∈ distinctMembers eq ts, m ∈ flattenAll ts := fun m hm => by
    simpa using mem_insertMembers hm
  unfold unionWith ofMembers
  split
  · rename_i t ht
    exact Or.inl (hsub t (by simp [ht]))
  · exact Or.inr ⟨_, rfl, fun m hm => hsub m (mem_sortOrdered.1 hm)⟩

/-! ## Properties that spread -/

theorem exists_insertMember {t : Ty} : ∀ {ms : List Ty},
    (∀ m ∈ ms, eq m t = true → (P m ↔ P t)) →
    ((∃ m ∈ insertMember eq ms t, P m) ↔ (∃ m ∈ ms, P m) ∨ P t)
  | [], _ => by simp [insertMember]
  | m :: ms, h => by
    have ih := exists_insertMember fun m hm => h m (List.mem_cons_of_mem _ hm)
    simp only [insertMember]
    by_cases hm : eq m t = true
    · have hmt := h m List.mem_cons_self hm
      rw [if_pos hm]
      split <;> simp only [List.exists_mem_cons_iff, hmt] <;>
        exact ⟨Or.inl, fun h => h.elim id Or.inl⟩
    · rw [if_neg hm]
      simp only [List.exists_mem_cons_iff, ih, or_assoc]

theorem exists_insertMembers : ∀ {ts ms : List Ty},
    (∀ a ∈ ms ++ ts, ∀ b ∈ ts, eq a b = true → (P a ↔ P b)) →
    ((∃ m ∈ ts.foldl (insertMember eq) ms, P m) ↔ (∃ m ∈ ms, P m) ∨ ∃ t ∈ ts, P t)
  | [], ms, _ => by simp
  | t :: ts, ms, h => by
    rw [List.foldl_cons, exists_insertMembers, exists_insertMember, List.exists_mem_cons_iff, or_assoc]
    · exact fun m hm => h m (by simp [hm]) t (by simp)
    · intro a ha b hb
      refine h a ?_ b (by simp [hb])
      rcases List.mem_append.1 ha with ha | ha
      · rcases mem_insertMember ha with ha | ha <;> simp [ha]
      · simp [ha]

namespace Spreads

variable (hP : Spreads P)
include hP

theorem flatten_iff (t : Ty) : (∃ m ∈ t.flatten, P m) ↔ P t := by
  induction t with
  | union ms ih =>
    simp only [flatten, flattenAll_eq_flatMap, List.mem_flatMap, hP ms]
    constructor
    · rintro ⟨m, ⟨t, ht, hm⟩, h⟩
      exact ⟨t, ht, (ih t ht).1 ⟨m, hm, h⟩⟩
    · rintro ⟨t, ht, h⟩
      obtain ⟨m, hm, h⟩ := (ih t ht).2 h
      exact ⟨m, ⟨t, ht, hm⟩, h⟩
  | _ => simp [flatten]

theorem members_iff (t : Ty) : (∃ m ∈ t.members, P m) ↔ P t := by
  cases t with
  | union ms => exact (hP ms).symm
  | _ => simp [members]

theorem flattenAll_iff (ts : List Ty) : (∃ m ∈ flattenAll ts, P m) ↔ ∃ t ∈ ts, P t := by
  rw [← hP ts, ← hP.flatten_iff (.union ts), flatten]

/-- A built union has the property only through one of the types. -/
theorem exists_of_unionWith {ts : List Ty} (h : P (unionWith eq ts)) : ∃ t ∈ ts, P t := by
  rw [← hP.flattenAll_iff]
  rcases unionWith_cases eq ts with hm | ⟨ms, hms, hsub⟩
  · exact ⟨_, hm, h⟩
  · rw [hms, hP ms] at h
    obtain ⟨m, hm, h⟩ := h
    exact ⟨m, hsub m hm, h⟩

theorem unionWith_iff {ts : List Ty}
    (h : ∀ a ∈ flattenAll ts, ∀ b ∈ flattenAll ts, eq a b = true → (P a ↔ P b)) :
    P (unionWith eq ts) ↔ ∃ t ∈ ts, P t := by
  refine ⟨hP.exists_of_unionWith, fun ht => ?_⟩
  obtain ⟨m, hm, hx⟩ : ∃ m ∈ distinctMembers eq ts, P m := by
    rw [distinctMembers, exists_insertMembers (by simpa using h)]
    exact Or.inr ((hP.flattenAll_iff ts).2 ht)
  unfold unionWith ofMembers
  split
  · rename_i t hts
    rw [hts, List.mem_singleton] at hm
    exact hm ▸ hx
  · exact (hP _).2 ⟨m, mem_sortOrdered.2 hm, hx⟩

end Spreads

end UnionChecker.Ty
