import UnionChecker.Proofs.Ty.Decision
import UnionChecker.Ty.Assignability
/-!
# Assignability and meaning

A value may go where another type is wanted when every member of its type is equal to a member
there (`isAssignable_iff`). For flat types this is inclusion of meanings.
-/

namespace UnionChecker.Ty

/-- Types other than unions fit exactly when they are equal. -/
theorem fits_eq_equal {a b : Ty} (ha : a.isUnion = false) (hb : b.isUnion = false) :
    fits a b = equal a b := by
  cases a with
  | union as => cases ha
  | fn gs ps r =>
    cases b with
    | union bs => cases hb
    | fn hs qs s => rfl
    | _ => rw [equal_eq_compareWith]; simp only [fits, compareWith]
  | _ =>
    cases b with
    | union bs => cases hb
    | _ => rw [equal_eq_compareWith]; simp only [fits, compareWith]

theorem fitsSome_eq_any (value : Ty) : ∀ ts : List Ty, fitsSome value ts = ts.any (fitsMember value)
  | [] => rfl
  | t :: ts => by simp [fitsSome, fitsSome_eq_any value ts]

theorem allAssignable_eq_all (target : Ty) :
    ∀ ts : List Ty, allAssignable ts target = ts.all fun t => isAssignable t target
  | [] => rfl
  | t :: ts => by simp [allAssignable, allAssignable_eq_all target ts]

theorem fitsMember_iff {m : Ty} (hm : m.isUnion = false) (t : Ty) :
    fitsMember m t = true ↔ ∃ n ∈ t.flatten, equal m n = true := by
  induction t with
  | union ms ih =>
    simp only [fitsMember, fitsSome_eq_any, List.any_eq_true, flatten, flattenAll_eq_flatMap,
      List.mem_flatMap]
    constructor
    · rintro ⟨t, ht, hf⟩
      obtain ⟨n, hn, he⟩ := (ih t ht).1 hf
      exact ⟨n, ⟨t, ht, hn⟩, he⟩
    · rintro ⟨n, ⟨t, ht, hn⟩, he⟩
      exact ⟨t, ht, (ih t ht).2 ⟨n, hn, he⟩⟩
  | _ =>
    simp only [fitsMember, flatten, List.mem_singleton, exists_eq_left]
    rw [fits_eq_equal hm rfl]

/-- Every member of the type of the value is equal to a member of the wanted type. -/
theorem isAssignable_iff (a b : Ty) :
    isAssignable a b = true ↔ ∀ m ∈ a.flatten, ∃ n ∈ b.flatten, equal m n = true := by
  induction a with
  | union ms ih =>
    simp only [isAssignable, allAssignable_eq_all, List.all_eq_true, flatten, flattenAll_eq_flatMap,
      List.mem_flatMap]
    constructor
    · rintro h m ⟨t, ht, hm⟩
      exact (ih t ht).1 (h t ht) m hm
    · intro h t ht
      exact (ih t ht).2 fun m hm => h m ⟨t, ht, hm⟩
  | _ => simp only [isAssignable, flatten, List.mem_singleton, forall_eq]; exact fitsMember_iff rfl b

/-- Between flat types without positional names of inner function types, assignability is inclusion
of meanings. -/
theorem isAssignable_iff_subset {a b : Ty} (fa : Flat a) (fb : Flat b) (ca : Clean a)
    (cb : Clean b) : isAssignable a b = true ↔ meaning atoms a ⊆ meaning atoms b := by
  rw [isAssignable_iff, fa.flatten_eq, fb.flatten_eq]
  constructor
  · intro h e he
    obtain ⟨m, hm, he⟩ := (mem_meaning_members a).2 he
    obtain ⟨n, hn, heq⟩ := h m hm
    rw [meaning_eq_of_equal positional_atoms heq] at he
    exact (mem_meaning_members b).1 ⟨n, hn, he⟩
  · intro h m hm
    obtain ⟨e, he⟩ := meaning_atoms_singleton (fa.of_mem_members hm).2
    have heb : e ∈ meaning atoms b := h ((mem_meaning_members a).1 ⟨m, hm, by simp [he]⟩)
    obtain ⟨n, hn, hen⟩ := (mem_meaning_members b).2 heb
    obtain ⟨e', he'⟩ := meaning_atoms_singleton (fb.of_mem_members hn).2
    rw [he', Finset.mem_singleton] at hen
    refine ⟨n, hn, (equal_iff_meaning_eq (fa.of_mem_members hm).1 (fb.of_mem_members hn).1
      (ca.of_mem_members hm) (cb.of_mem_members hn)).2 ?_⟩
    rw [he, he', hen]

end UnionChecker.Ty
