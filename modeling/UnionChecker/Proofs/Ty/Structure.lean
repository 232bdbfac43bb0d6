import UnionChecker.Ty.Substitution
/-!
# Induction on types

A type is a tree with lists of types inside, and every function on types comes with a companion on
lists. Here the companions are read as `map`, `flatMap` and `any`, so that a proof goes by one
induction on types (`Ty.inductionOn`) and the lemmas on lists do the rest.
-/

namespace UnionChecker.Ty

/-! ## The induction principle -/

/-- Induction on types, with a hypothesis for every type in a list below. -/
@[induction_eliminator]
theorem inductionOn {motive : Ty → Prop} (var : ∀ x, motive (.var x))
    (named : ∀ decl args, (∀ t ∈ args, motive t) → motive (.named decl args))
    (fn : ∀ generics params result, (∀ p ∈ params, motive p.2) → motive result →
      motive (.fn generics params result))
    (union : ∀ ms, (∀ m ∈ ms, motive m) → motive (.union ms)) (t : Ty) : motive t :=
  @Ty.rec motive (fun ts => ∀ t ∈ ts, motive t) (fun ps => ∀ p ∈ ps, motive p.2)
    (fun p => motive p.2) var named fn union (by simp)
    (fun t ts ht hts => by simpa using ⟨ht, hts⟩) (by simp)
    (fun p ps hp hps => by
      intro q hq
      rcases List.mem_cons.1 hq with rfl | hq
      · exact hp
      · exact hps q hq)
    (fun _ _ ht => ht) t

/-! ## Companions on lists -/

theorem flattenAll_eq_flatMap : ∀ ts : List Ty, flattenAll ts = ts.flatMap flatten
  | [] => rfl
  | t :: ts => by simp [flattenAll, flattenAll_eq_flatMap ts]

theorem nameAll_eq_map : ∀ ts : List Ty, nameAll ts = ts.map name
  | [] => rfl
  | t :: ts => by simp [nameAll, nameAll_eq_map ts]

theorem renameAllWith_eq_map (eq : Ty → Ty → Bool) (depth : Nat) (ρ : List (String × String)) :
    ∀ ts : List Ty, renameAllWith eq depth ρ ts = ts.map (renameWith eq depth ρ)
  | [] => rfl
  | t :: ts => by simp [renameAllWith, renameAllWith_eq_map eq depth ρ ts]

theorem renameParamsWith_eq_map (eq : Ty → Ty → Bool) (depth : Nat) (ρ : List (String × String)) :
    ∀ ps : List (String × Ty),
      renameParamsWith eq depth ρ ps = ps.map fun p => (p.1, renameWith eq depth ρ p.2)
  | [] => rfl
  | (x, t) :: ps => by simp [renameParamsWith, renameParamsWith_eq_map eq depth ρ ps]

theorem substituteAll_eq_map (σ : Substitution) :
    ∀ ts : List Ty, substituteAll σ ts = ts.map (substitute σ)
  | [] => rfl
  | t :: ts => by simp [substituteAll, substituteAll_eq_map σ ts]

theorem substituteParams_eq_map (σ : Substitution) :
    ∀ ps : List (String × Ty), substituteParams σ ps = ps.map fun p => (p.1, p.2.substitute σ)
  | [] => rfl
  | (x, t) :: ps => by simp [substituteParams, substituteParams_eq_map σ ps]

theorem mentionsAnyOf_eq_any (generics : List String) :
    ∀ ts : List Ty, mentionsAnyOf generics ts = ts.any (mentionsAny generics)
  | [] => rfl
  | t :: ts => by simp [mentionsAnyOf, mentionsAnyOf_eq_any generics ts]

theorem mentionsAnyOfParams_eq_any (generics : List String) :
    ∀ ps : List (String × Ty),
      mentionsAnyOfParams generics ps = ps.any fun p => p.2.mentionsAny generics
  | [] => rfl
  | (_, t) :: ps => by simp [mentionsAnyOfParams, mentionsAnyOfParams_eq_any generics ps]

/-! ## Sizes -/

theorem size_pos (t : Ty) : 0 < t.size := by
  cases t <;> simp only [size] <;> omega

theorem size_le_sizeAll {t : Ty} : ∀ {ts : List Ty}, t ∈ ts → t.size ≤ sizeAll ts
  | [], h => by simp at h
  | u :: us, h => by
    simp only [sizeAll]
    rcases List.mem_cons.1 h with rfl | h
    · omega
    · have := size_le_sizeAll h; omega

theorem size_le_sizeParams {p : String × Ty} :
    ∀ {ps : List (String × Ty)}, p ∈ ps → p.2.size ≤ sizeParams ps
  | [], h => by simp at h
  | (_, t) :: qs, h => by
    simp only [sizeParams]
    rcases List.mem_cons.1 h with rfl | h
    · exact Nat.le_add_right _ _
    · have := size_le_sizeParams h; omega

theorem sizeAll_append : ∀ as bs : List Ty, sizeAll (as ++ bs) = sizeAll as + sizeAll bs
  | [], bs => by simp [sizeAll]
  | a :: as, bs => by
    have ih := sizeAll_append as bs
    simp only [List.cons_append, sizeAll]
    omega

/-- Opening nested unions drops their constructors and nothing else. -/
theorem sizeAll_flatten_le (t : Ty) : sizeAll t.flatten ≤ t.size := by
  induction t with
  | var x => simp [flatten, sizeAll]
  | named decl args ih => simp [flatten, sizeAll]
  | fn generics params result ihp ihr => simp [flatten, sizeAll]
  | union ms ih =>
    have key : sizeAll (flattenAll ms) ≤ sizeAll ms := by
      rw [flattenAll_eq_flatMap]
      induction ms with
      | nil => simp [sizeAll]
      | cons m ms ih' =>
        have h1 := ih m (by simp)
        have h2 := ih' fun t h => ih t (by simp [h])
        simp only [List.flatMap_cons, sizeAll_append, sizeAll]
        omega
    simp only [flatten, size]
    omega

theorem sizeAll_flattenAll_le (ts : List Ty) : sizeAll (flattenAll ts) ≤ sizeAll ts := by
  induction ts with
  | nil => simp [flattenAll, sizeAll]
  | cons t ts ih =>
    have := sizeAll_flatten_le t
    simp only [flattenAll, sizeAll_append, sizeAll]
    omega

end UnionChecker.Ty
