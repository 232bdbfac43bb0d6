import Mathlib.Data.List.Forall2
import UnionChecker.Proofs.Ty.Structure
/-!
# The bound of equality

Renaming and building a union never make a type larger. So every comparison that `equalWithin` makes
is between types of smaller total size, a bound of the total size is never used up
(`equalWithin_eq_equal`), and `equal` satisfies the equations one would write without a bound.
-/

namespace UnionChecker.Ty

/-! ## Unions do not grow -/

theorem sizeAll_insertMember_le (eq : Ty → Ty → Bool) (t : Ty) :
    ∀ ms : List Ty, sizeAll (insertMember eq ms t) ≤ sizeAll ms + t.size
  | [] => by simp [insertMember, sizeAll]
  | m :: ms => by
    have ih := sizeAll_insertMember_le eq t ms
    simp only [insertMember]
    split
    · split <;> simp only [sizeAll] <;> omega
    · simp only [sizeAll]; omega

theorem sizeAll_insertMembers_le (eq : Ty → Ty → Bool) : ∀ ts ms : List Ty,
    sizeAll (ts.foldl (insertMember eq) ms) ≤ sizeAll ms + sizeAll ts
  | [], ms => by simp [sizeAll]
  | t :: ts, ms => by
    have h1 := sizeAll_insertMember_le eq t ms
    have h2 := sizeAll_insertMembers_le eq ts (insertMember eq ms t)
    simp only [List.foldl_cons, sizeAll]
    omega

theorem sizeAll_insertOrdered (le : Ty → Ty → Bool) (t : Ty) :
    ∀ ts : List Ty, sizeAll (insertOrdered le t ts) = t.size + sizeAll ts
  | [] => rfl
  | u :: us => by
    have ih := sizeAll_insertOrdered le t us
    simp only [insertOrdered]
    split <;> simp only [sizeAll]
    omega

theorem sizeAll_sortOrdered (le : Ty → Ty → Bool) :
    ∀ ts : List Ty, sizeAll (sortOrdered le ts) = sizeAll ts
  | [] => rfl
  | t :: ts => by
    simp only [sortOrdered, sizeAll_insertOrdered, sizeAll, sizeAll_sortOrdered le ts]

theorem size_ofMembers_le (ts : List Ty) : (ofMembers ts).size ≤ 1 + sizeAll ts := by
  unfold ofMembers
  split
  · simp only [sizeAll]; omega
  · simp only [size, sizeAll_sortOrdered]; omega

theorem size_unionWith_le (eq : Ty → Ty → Bool) (ts : List Ty) :
    (unionWith eq ts).size ≤ 1 + sizeAll ts := by
  have h1 := size_ofMembers_le (distinctMembers eq ts)
  have h2 := sizeAll_insertMembers_le eq (flattenAll ts) []
  have h3 := sizeAll_flattenAll_le ts
  simp only [sizeAll] at h2
  unfold unionWith distinctMembers at *
  omega

/-! ## Renaming does not grow -/

theorem sizeAll_map_le {f : Ty → Ty} :
    ∀ {ts : List Ty}, (∀ t ∈ ts, (f t).size ≤ t.size) → sizeAll (ts.map f) ≤ sizeAll ts
  | [], _ => by simp [sizeAll]
  | t :: ts, h => by
    have h1 := h t (by simp)
    have h2 := sizeAll_map_le fun u hu => h u (List.mem_cons_of_mem t hu)
    simp only [List.map_cons, sizeAll]
    omega

theorem sizeParams_map_le {f : Ty → Ty} :
    ∀ {ps : List (String × Ty)}, (∀ p ∈ ps, (f p.2).size ≤ p.2.size) →
      sizeParams (ps.map fun p => (p.1, f p.2)) ≤ sizeParams ps
  | [], _ => by simp [sizeParams]
  | (x, t) :: ps, h => by
    have h1 : (f t).size ≤ t.size := h (x, t) (by simp)
    have h2 := sizeParams_map_le fun q hq => h q (List.mem_cons_of_mem _ hq)
    simp only [List.map_cons, sizeParams]
    omega

theorem size_renameWith_le (eq : Ty → Ty → Bool) (t : Ty) :
    ∀ depth ρ, (renameWith eq depth ρ t).size ≤ t.size := by
  induction t with
  | var x => intro depth ρ; simp [renameWith, size]
  | named decl args ih =>
    intro depth ρ
    have := sizeAll_map_le fun t ht => ih t ht depth ρ
    simp only [renameWith, renameAllWith_eq_map, size]
    omega
  | fn generics params result ihp ihr =>
    intro depth ρ
    have h1 := sizeParams_map_le fun p hp => ihp p hp (depth + 1) (enter depth generics ρ)
    have h2 := ihr (depth + 1) (enter depth generics ρ)
    simp only [renameWith, renameParamsWith_eq_map, size]
    omega
  | union ms ih =>
    intro depth ρ
    have h1 := size_unionWith_le eq (ms.map (renameWith eq depth ρ))
    have h2 := sizeAll_map_le fun t ht => ih t ht depth ρ
    simp only [renameWith, renameAllWith_eq_map, size]
    omega

/-! ## Runs that may not end

The recursion as it is without a bound: `none` stands for a run that does not end, and whatever needs
the answer of such a run does not end either. Only the comparison that is recurred on is given. -/

/-- Add a member. -/
def insertRun (eq : Ty → Ty → Option Bool) : List Ty → Ty → Option (List Ty)
  | [], t => some [t]
  | m :: ms, t => do
    if ← eq m t then return (if t.name < m.name then t else m) :: ms
    else return m :: (← insertRun eq ms t)

/-- Build a union. -/
def unionRun (eq : Ty → Ty → Option Bool) (ts : List Ty) : Option Ty := do
  return ofMembers (← (flattenAll ts).foldlM (insertRun eq) [])

mutual

/-- Rename the generics bound by function types. -/
def renameRun (eq : Ty → Ty → Option Bool) (depth : Nat) (ρ : List (String × String)) :
    Ty → Option Ty
  | .var x => some (.var ((ρ.lookup x).getD x))
  | .named decl args => return .named decl (← renameAllRun eq depth ρ args)
  | .fn generics params result => do
    let params ← renameParamsRun eq (depth + 1) (enter depth generics ρ) params
    let result ← renameRun eq (depth + 1) (enter depth generics ρ) result
    return .fn (positionals depth generics) params result
  | .union ms => do unionRun eq (← renameAllRun eq depth ρ ms)

/-- `renameRun` on every type of a list. -/
def renameAllRun (eq : Ty → Ty → Option Bool) (depth : Nat) (ρ : List (String × String)) :
    List Ty → Option (List Ty)
  | [] => some []
  | t :: ts => do return (← renameRun eq depth ρ t) :: (← renameAllRun eq depth ρ ts)

/-- `renameRun` on every type of a parameter list. -/
def renameParamsRun (eq : Ty → Ty → Option Bool) (depth : Nat) (ρ : List (String × String)) :
    List (String × Ty) → Option (List (String × Ty))
  | [] => some []
  | (x, t) :: ps => do return (x, ← renameRun eq depth ρ t) :: (← renameParamsRun eq depth ρ ps)

end

/-- Compare two lists position by position, up to the first difference. -/
def pairwiseRun (eq : Ty → Ty → Option Bool) : List Ty → List Ty → Option Bool
  | [], [] => some true
  | a :: as, b :: bs => do if ← eq a b then pairwiseRun eq as bs else return false
  | _, _ => some false

/-- Compare two lists as sets. -/
def sameMembersRun (eq : Ty → Ty → Option Bool) (as bs : List Ty) : Option Bool := do
  if ← as.allM fun a => bs.anyM fun b => eq a b then bs.allM fun b => as.anyM fun a => eq a b
  else return false

/-- One level of the comparison of two types. -/
def compareRun (eq : Ty → Ty → Option Bool) : Ty → Ty → Option Bool
  | .union as, b => sameMembersRun eq as b.members
  | a, .union bs => sameMembersRun eq a.members bs
  | .var x, .var y => some (x == y)
  | .named d as, .named e bs => if d.ref == e.ref then pairwiseRun eq as bs else some false
  | .fn gs ps r, .fn hs qs s => do
    let ps ← renameParamsRun eq 1 (enter 0 gs []) ps
    let r ← renameRun eq 1 (enter 0 gs []) r
    let qs ← renameParamsRun eq 1 (enter 0 hs []) qs
    let s ← renameRun eq 1 (enter 0 hs []) s
    if gs.length == hs.length then
      if ← pairwiseRun eq (ps.map (·.2)) (qs.map (·.2)) then eq r s else return false
    else return false
  | _, _ => some false

/-! ## Only smaller types are compared

A run ends as soon as the comparisons below the size at hand do, with what the functions without
`none` give. -/

/-- The comparison ends on types below a total size, with the answers of `eq`. -/
def EndsBelow (size : Nat) (cmp : Ty → Ty → Option Bool) (eq : Ty → Ty → Bool) : Prop :=
  ∀ a b : Ty, a.size + b.size < size → cmp a b = some (eq a b)

variable {cmp : Ty → Ty → Option Bool} {eq : Ty → Ty → Bool}

theorem EndsBelow.mono {m n : Nat} (h : EndsBelow n cmp eq) (hm : m ≤ n) : EndsBelow m cmp eq :=
  fun a b hab => h a b (by omega)

theorem insertRun_eq {n : Nat} (h : EndsBelow n cmp eq) (t : Ty) : ∀ ms : List Ty,
    sizeAll ms + t.size < n → insertRun cmp ms t = some (insertMember eq ms t)
  | [], _ => rfl
  | m :: ms, hn => by
    simp only [sizeAll] at hn
    simp only [insertRun, insertMember, h m t (by omega), insertRun_eq h t ms (by omega)]
    cases eq m t <;> rfl

theorem insertRuns_eq {n : Nat} (h : EndsBelow n cmp eq) : ∀ ts ms : List Ty,
    sizeAll ms + sizeAll ts < n →
      ts.foldlM (insertRun cmp) ms = some (ts.foldl (insertMember eq) ms)
  | [], _, _ => rfl
  | t :: ts, ms, hn => by
    simp only [sizeAll] at hn
    have hle := sizeAll_insertMember_le eq t ms
    rw [List.foldlM_cons, insertRun_eq h t ms (by omega)]
    exact insertRuns_eq h ts _ (by omega)

theorem unionRun_eq {ts : List Ty} (h : EndsBelow (union ts).size cmp eq) :
    unionRun cmp ts = some (unionWith eq ts) := by
  have hf := sizeAll_flattenAll_le ts
  rw [unionRun, insertRuns_eq h _ [] (by simp only [sizeAll, size]; omega)]
  rfl

theorem renameAllRun_eq {depth : Nat} {ρ : List (String × String)} : ∀ {ts : List Ty},
    (∀ t ∈ ts, renameRun cmp depth ρ t = some (renameWith eq depth ρ t)) →
      renameAllRun cmp depth ρ ts = some (renameAllWith eq depth ρ ts)
  | [], _ => rfl
  | t :: ts, h => by
    rw [List.forall_mem_cons] at h
    rw [renameAllRun, h.1, renameAllRun_eq h.2]
    rfl

theorem renameParamsRun_eq {depth : Nat} {ρ : List (String × String)} : ∀ {ps : List (String × Ty)},
    (∀ p ∈ ps, renameRun cmp depth ρ p.2 = some (renameWith eq depth ρ p.2)) →
      renameParamsRun cmp depth ρ ps = some (renameParamsWith eq depth ρ ps)
  | [], _ => rfl
  | (x, t) :: ps, h => by
    rw [List.forall_mem_cons] at h
    rw [renameParamsRun, h.1, renameParamsRun_eq h.2]
    rfl

theorem renameRun_eq (t : Ty) : ∀ depth ρ, EndsBelow t.size cmp eq →
    renameRun cmp depth ρ t = some (renameWith eq depth ρ t) := by
  induction t with
  | var x => intro depth ρ _; rfl
  | named decl args ih =>
    intro depth ρ h
    have hargs : ∀ t ∈ args, renameRun cmp depth ρ t = some (renameWith eq depth ρ t) :=
      fun t ht => ih t ht depth ρ (h.mono (by have := size_le_sizeAll ht; simp only [size]; omega))
    rw [renameRun, renameAllRun_eq hargs]
    rfl
  | fn generics params result ihp ihr =>
    intro depth ρ h
    have hparams : ∀ p ∈ params, renameRun cmp (depth + 1) (enter depth generics ρ) p.2 =
        some (renameWith eq (depth + 1) (enter depth generics ρ) p.2) := fun p hp =>
      ihp p hp _ _ (h.mono (by have := size_le_sizeParams hp; simp only [size]; omega))
    rw [renameRun, renameParamsRun_eq hparams, ihr _ _ (h.mono (by simp only [size]; omega))]
    rfl
  | union ms ih =>
    intro depth ρ h
    have hms : ∀ t ∈ ms, renameRun cmp depth ρ t = some (renameWith eq depth ρ t) :=
      fun t ht => ih t ht depth ρ (h.mono (by have := size_le_sizeAll ht; simp only [size]; omega))
    -- the members are renamed by now, so that they are no larger than before
    have hle := sizeAll_map_le fun t (_ : t ∈ ms) => size_renameWith_le eq t depth ρ
    rw [renameRun, renameAllRun_eq hms, renameWith]
    refine unionRun_eq (h.mono ?_)
    simp only [renameAllWith_eq_map, size]
    omega

theorem pairwiseRun_eq : ∀ {as bs : List Ty}, (∀ a ∈ as, ∀ b ∈ bs, cmp a b = some (eq a b)) →
    pairwiseRun cmp as bs = some (pairwise eq as bs)
  | [], [], _ => rfl
  | [], _ :: _, _ => rfl
  | _ :: _, [], _ => rfl
  | a :: as, b :: bs, h => by
    have hrest : pairwiseRun cmp as bs = _ :=
      pairwiseRun_eq fun x hx y hy => h x (by simp [hx]) y (by simp [hy])
    rw [pairwiseRun, pairwise, h a (by simp) b (by simp), hrest]
    cases eq a b <;> rfl

theorem anyM_eq {α : Type} {p : α → Option Bool} {q : α → Bool} : ∀ {as : List α},
    (∀ a ∈ as, p a = some (q a)) → as.anyM p = some (as.any q)
  | [], _ => rfl
  | a :: as, h => by
    rw [List.forall_mem_cons] at h
    rw [List.anyM, h.1, anyM_eq h.2, List.any_cons]
    cases q a <;> rfl

theorem allM_eq {α : Type} {p : α → Option Bool} {q : α → Bool} : ∀ {as : List α},
    (∀ a ∈ as, p a = some (q a)) → as.allM p = some (as.all q)
  | [], _ => rfl
  | a :: as, h => by
    rw [List.forall_mem_cons] at h
    rw [List.allM, h.1, allM_eq h.2, List.all_cons]
    cases q a <;> rfl

theorem sameMembersRun_eq {as bs : List Ty} (h : ∀ a ∈ as, ∀ b ∈ bs, cmp a b = some (eq a b)) :
    sameMembersRun cmp as bs = some (sameMembers eq as bs) := by
  rw [sameMembersRun, sameMembers, allM_eq fun a ha => anyM_eq (h a ha),
    allM_eq fun b hb => anyM_eq fun a ha => h a ha b hb]
  cases as.all fun a => bs.any fun b => eq a b <;> rfl

theorem sameMembers_iff {as bs : List Ty} :
    sameMembers eq as bs = true ↔
      (∀ a ∈ as, ∃ b ∈ bs, eq a b = true) ∧ ∀ b ∈ bs, ∃ a ∈ as, eq a b = true := by
  simp [sameMembers]

theorem size_le_of_mem_members {t m : Ty} (h : m ∈ t.members) : m.size ≤ t.size := by
  cases t with
  | union ms =>
    have := size_le_sizeAll (show m ∈ ms from h)
    simp only [size]; omega
  | _ => simp only [members, List.mem_singleton] at h; simp [h]

theorem size_lt_of_mem_union {ms : List Ty} {m : Ty} (h : m ∈ ms) : m.size < (union ms).size := by
  have := size_le_sizeAll h
  simp only [size]; omega

/-- One level of a comparison, with `eq` for everything below. -/
def compareWith (eq : Ty → Ty → Bool) : Ty → Ty → Bool
  | .union as, b => sameMembers eq as b.members
  | a, .union bs => sameMembers eq a.members bs
  | .var x, .var y => x == y
  | .named d as, .named e bs => d.ref == e.ref && pairwise eq as bs
  | .fn gs ps r, .fn hs qs s =>
    gs.length == hs.length
      && pairwise eq (ps.map fun p => renameWith eq 1 (enter 0 gs []) p.2)
          (qs.map fun q => renameWith eq 1 (enter 0 hs []) q.2)
      && eq (renameWith eq 1 (enter 0 gs []) r) (renameWith eq 1 (enter 0 hs []) s)
  | _, _ => false

theorem equalWithin_succ (n : Nat) (a b : Ty) :
    equalWithin (n + 1) a b = compareWith (equalWithin n) a b := by
  cases a <;> cases b <;>
    simp only [equalWithin, compareWith, renameParamsWith_eq_map, List.map_map, Function.comp_def]

/-- A level of a comparison only compares types of smaller total size. -/
theorem compareRun_eq {a b : Ty} (h : EndsBelow (a.size + b.size) cmp eq) :
    compareRun cmp a b = some (compareWith eq a b) := by
  have hleft : ∀ as, a = .union as →
      sameMembersRun cmp as b.members = some (sameMembers eq as b.members) := by
    rintro as rfl
    refine sameMembersRun_eq fun x hx y hy => h x y ?_
    have h1 := size_lt_of_mem_union hx
    have h2 := size_le_of_mem_members hy
    omega
  have hright : ∀ bs, b = .union bs →
      sameMembersRun cmp a.members bs = some (sameMembers eq a.members bs) := by
    rintro bs rfl
    refine sameMembersRun_eq fun x hx y hy => h x y ?_
    have h1 := size_le_of_mem_members hx
    have h2 := size_lt_of_mem_union hy
    omega
  cases a with
  | union as => simpa only [compareRun, compareWith] using hleft as rfl
  | var x =>
    cases b with
    | union bs => simpa only [compareRun, compareWith] using hright bs rfl
    | _ => simp only [compareRun, compareWith]
  | named d as =>
    cases b with
    | union bs => simpa only [compareRun, compareWith] using hright bs rfl
    | named e bs =>
      have hargs : pairwiseRun cmp as bs = some (pairwise eq as bs) := by
        refine pairwiseRun_eq fun x hx y hy => h x y ?_
        have h1 := size_le_sizeAll hx
        have h2 := size_le_sizeAll hy
        simp only [size]; omega
      simp only [compareRun, compareWith, hargs]
      cases d.ref == e.ref <;> rfl
    | _ => simp only [compareRun, compareWith]
  | fn gs ps r =>
    cases b with
    | union bs => simpa only [compareRun, compareWith] using hright bs rfl
    | fn hs qs s =>
      simp only [size] at h
      -- renaming compares inside one of the two function types
      have hp : renameParamsRun cmp 1 (enter 0 gs []) ps = _ := renameParamsRun_eq fun p hp =>
        renameRun_eq p.2 _ _ (h.mono (by have := size_le_sizeParams hp; omega))
      have hq : renameParamsRun cmp 1 (enter 0 hs []) qs = _ := renameParamsRun_eq fun q hq =>
        renameRun_eq q.2 _ _ (h.mono (by have := size_le_sizeParams hq; omega))
      have hr := renameRun_eq r 1 (enter 0 gs []) (h.mono (by omega))
      have hs' := renameRun_eq s 1 (enter 0 hs []) (h.mono (by omega))
      have hresult : cmp (renameWith eq 1 (enter 0 gs []) r) (renameWith eq 1 (enter 0 hs []) s) =
          some (eq (renameWith eq 1 (enter 0 gs []) r) (renameWith eq 1 (enter 0 hs []) s)) := by
        have h1 := size_renameWith_le eq r 1 (enter 0 gs [])
        have h2 := size_renameWith_le eq s 1 (enter 0 hs [])
        exact h _ _ (by omega)
      have hparams : pairwiseRun cmp (ps.map fun p => renameWith eq 1 (enter 0 gs []) p.2)
          (qs.map fun q => renameWith eq 1 (enter 0 hs []) q.2) =
          some (pairwise eq (ps.map fun p => renameWith eq 1 (enter 0 gs []) p.2)
            (qs.map fun q => renameWith eq 1 (enter 0 hs []) q.2)) := by
        refine pairwiseRun_eq fun x hx y hy => h x y ?_
        obtain ⟨p, hp, rfl⟩ := List.mem_map.1 hx
        obtain ⟨q, hq, rfl⟩ := List.mem_map.1 hy
        have h1 := size_renameWith_le eq p.2 1 (enter 0 gs [])
        have h2 := size_renameWith_le eq q.2 1 (enter 0 hs [])
        have h3 := size_le_sizeParams hp
        have h4 := size_le_sizeParams hq
        omega
      simp only [compareRun, compareWith, hp, hq, hr, hs', renameParamsWith_eq_map, List.map_map,
        Function.comp_def, Option.bind_eq_bind, Option.bind_some, hparams, hresult]
      cases gs.length == hs.length <;> cases pairwise eq _ _ <;> rfl
    | _ => simp only [compareRun, compareWith]

/-- The answer depends on comparisons of types of smaller total size only. -/
theorem compareWith_congr {eq' : Ty → Ty → Bool} {a b : Ty}
    (h : ∀ x y : Ty, x.size + y.size < a.size + b.size → eq x y = eq' x y) :
    compareWith eq a b = compareWith eq' a b := by
  -- a comparison that ends below the size of the two types, and nowhere else
  let cmp (x y : Ty) : Option Bool :=
    if x.size + y.size < a.size + b.size then some (eq x y) else none
  have heq : EndsBelow (a.size + b.size) cmp eq := fun x y hxy => if_pos hxy
  have heq' : EndsBelow (a.size + b.size) cmp eq' := fun x y hxy => by rw [heq x y hxy, h x y hxy]
  exact Option.some.inj ((compareRun_eq heq).symm.trans (compareRun_eq heq'))

/-- **The bound is never used up**: beyond the total size of the two types, more of it changes
nothing. -/
theorem equalWithin_eq_equal : ∀ (n : Nat) (a b : Ty), a.size + b.size ≤ n →
    equalWithin n a b = equal a b := by
  have key : ∀ s m n : Nat, ∀ a b : Ty, a.size + b.size ≤ s → s ≤ m → s ≤ n →
      equalWithin m a b = equalWithin n a b := by
    intro s
    induction s with
    | zero => intro m n a b hs; have := size_pos a; omega
    | succ s ih =>
      intro m n a b hs hm hn
      obtain ⟨m, rfl⟩ : ∃ k, m = k + 1 := ⟨m - 1, by omega⟩
      obtain ⟨n, rfl⟩ : ∃ k, n = k + 1 := ⟨n - 1, by omega⟩
      rw [equalWithin_succ, equalWithin_succ]
      exact compareWith_congr fun x y hxy => ih m n x y (by omega) (by omega) (by omega)
  intro n a b h
  exact key _ _ _ a b (Nat.le_refl _) h (Nat.le_refl _)

/-- Equality without a bound. -/
theorem equal_eq_compareWith (a b : Ty) : equal a b = compareWith equal a b := by
  have ha := size_pos a
  obtain ⟨n, hn⟩ : ∃ n, a.size + b.size = n + 1 := ⟨a.size + b.size - 1, by omega⟩
  rw [equal, hn, equalWithin_succ]
  exact compareWith_congr fun x y hxy => equalWithin_eq_equal n x y (by omega)

/-! ## Termination -/

/-- Whatever obeys the recursion ends. -/
theorem endsBelow_of_recursion (h : ∀ a b, cmp a b = compareRun cmp a b) (n : Nat) :
    EndsBelow n cmp equal := by
  induction n with
  | zero => intro a b hab; omega
  | succ n ih =>
    intro a b hab
    rw [h, equal_eq_compareWith]
    exact compareRun_eq (ih.mono (by omega))

/-- **Equality, union construction and renaming terminate together**, on all types. Renaming and
building a union do not make a type larger. Each of the three ends when the comparisons of strictly
smaller total size do, and so makes no other ones, although it makes them on renamed copies. So any
comparison that obeys the recursion, and might have no end anywhere, ends on every pair of types. -/
theorem equality_terminates :
    (∀ eq depth ρ t, (renameWith eq depth ρ t).size ≤ t.size) ∧
    (∀ eq ts, (unionWith eq ts).size ≤ (union ts).size) ∧
    (∀ cmp a b, EndsBelow (a.size + b.size) cmp equal → compareRun cmp a b = some (equal a b)) ∧
    (∀ cmp ts, EndsBelow (union ts).size cmp equal → unionRun cmp ts = some (join ts)) ∧
    (∀ cmp depth ρ t, EndsBelow t.size cmp equal →
      renameRun cmp depth ρ t = some (rename depth ρ t)) ∧
    ∀ cmp : Ty → Ty → Option Bool, (∀ a b, cmp a b = compareRun cmp a b) →
      ∀ a b, cmp a b = some (equal a b) := by
  refine ⟨fun eq depth ρ t => size_renameWith_le eq t depth ρ, size_unionWith_le, ?_,
    fun cmp ts h => unionRun_eq h, fun cmp depth ρ t h => renameRun_eq t depth ρ h, ?_⟩
  · intro cmp a b h
    rw [equal_eq_compareWith]
    exact compareRun_eq h
  · intro cmp h a b
    exact endsBelow_of_recursion h (a.size + b.size + 1) a b (by omega)

/-- Two function types with unions of unions inside are compared by a comparison that does not end
on anything of their size. -/
theorem equality_terminates_nested :
    let a := fn ["T"] [("x", union [union [var "T"], union [var "T", int]])] (var "T")
    let b := fn ["U"] [("y", union [int, var "U"])] (union [var "U"])
    let cmp (x y : Ty) := if x.size + y.size < a.size + b.size then some (equal x y) else none
    cmp a b = none ∧ compareRun cmp a b = some true ∧
      ∀ x y, some (equal x y) = compareRun (fun x y => some (equal x y)) x y := by
  intro a b cmp
  have hequal : equal a b = true := by decide +kernel
  refine ⟨rfl, ?_, fun x y => (equality_terminates.2.2.1 _ x y fun _ _ _ => rfl).symm⟩
  rw [equality_terminates.2.2.1 cmp a b fun x y h => if_pos h, hequal]

/-! ## Equations of equality -/

theorem pairwise_iff {eq : Ty → Ty → Bool} : ∀ {as bs : List Ty},
    pairwise eq as bs = true ↔ List.Forall₂ (fun a b => eq a b = true) as bs
  | [], [] => by simp [pairwise]
  | [], _ :: _ => by simp [pairwise]
  | _ :: _, [] => by simp [pairwise]
  | a :: as, b :: bs => by simp [pairwise, pairwise_iff]

theorem equal_union_left {as : List Ty} {b : Ty} :
    equal (.union as) b = true ↔
      (∀ x ∈ as, ∃ y ∈ b.members, equal x y = true) ∧ ∀ y ∈ b.members, ∃ x ∈ as, equal x y = true := by
  rw [equal_eq_compareWith, compareWith, sameMembers_iff]

theorem equal_union_right {a : Ty} {bs : List Ty} :
    equal a (.union bs) = true ↔
      (∀ x ∈ a.members, ∃ y ∈ bs, equal x y = true) ∧ ∀ y ∈ bs, ∃ x ∈ a.members, equal x y = true := by
  rw [equal_eq_compareWith]
  cases a <;> simp only [compareWith, sameMembers_iff, members]

theorem equal_var {x y : String} : equal (.var x) (.var y) = true ↔ x = y := by
  simp [equal_eq_compareWith, compareWith]

theorem equal_named {d e : Nominal} {as bs : List Ty} :
    equal (.named d as) (.named e bs) = true ↔
      d.ref = e.ref ∧ List.Forall₂ (fun a b => equal a b = true) as bs := by
  simp [equal_eq_compareWith (.named d as), compareWith, pairwise_iff]

theorem equal_fn {gs hs : List String} {ps qs : List (String × Ty)} {r s : Ty} :
    equal (.fn gs ps r) (.fn hs qs s) = true ↔
      gs.length = hs.length ∧
      List.Forall₂ (fun p q => equal (rename 1 (enter 0 gs []) p.2) (rename 1 (enter 0 hs []) q.2) = true)
        ps qs ∧
      equal (rename 1 (enter 0 gs []) r) (rename 1 (enter 0 hs []) s) = true := by
  rw [equal_eq_compareWith]
  simp [compareWith, pairwise_iff, rename, and_assoc]

/-- What it takes for two types to be equal: as unions they have the same members, and otherwise they
have the same shape and equal parts. -/
inductive Matched : Ty → Ty → Prop
  | var (x : String) : Matched (.var x) (.var x)
  | named {d e : Nominal} {as bs : List Ty} (href : d.ref = e.ref)
      (hargs : List.Forall₂ (fun a b => equal a b = true) as bs) : Matched (.named d as) (.named e bs)
  | fn {gs hs : List String} {ps qs : List (String × Ty)} {r s : Ty}
      (h : equal (.fn gs ps r) (.fn hs qs s) = true) : Matched (.fn gs ps r) (.fn hs qs s)
  | members {a b : Ty} (hleft : ∀ x ∈ a.members, ∃ y ∈ b.members, equal x y = true)
      (hright : ∀ y ∈ b.members, ∃ x ∈ a.members, equal x y = true)
      (hsize : ∀ x ∈ a.members, ∀ y ∈ b.members, x.size + y.size < a.size + b.size) : Matched a b

theorem matched_of_equal {a b : Ty} (h : equal a b = true) : Matched a b := by
  have hleft : ∀ as, a = .union as → Matched a b := by
    rintro as rfl
    obtain ⟨h1, h2⟩ := equal_union_left.1 h
    refine .members h1 h2 fun x hx y hy => ?_
    have : x.size < (union as).size := size_lt_of_mem_union hx
    have := size_le_of_mem_members hy
    omega
  have hright : ∀ bs, b = .union bs → Matched a b := by
    rintro bs rfl
    obtain ⟨h1, h2⟩ := equal_union_right.1 h
    refine .members h1 h2 fun x hx y hy => ?_
    have := size_le_of_mem_members hx
    have : y.size < (union bs).size := size_lt_of_mem_union hy
    omega
  cases a with
  | union as => exact hleft as rfl
  | var x =>
    cases b with
    | union bs => exact hright bs rfl
    | var y => rw [equal_var.1 h]; exact .var y
    | _ => simp [equal_eq_compareWith, compareWith] at h
  | named d as =>
    cases b with
    | union bs => exact hright bs rfl
    | named e bs => obtain ⟨href, hargs⟩ := equal_named.1 h; exact .named href hargs
    | _ => simp [equal_eq_compareWith, compareWith] at h
  | fn gs ps r =>
    cases b with
    | union bs => exact hright bs rfl
    | fn hs qs t => exact .fn h
    | _ => simp [equal_eq_compareWith, compareWith] at h

end UnionChecker.Ty
