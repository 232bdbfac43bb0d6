import Mathlib.Logic.Equiv.List
import Mathlib.Tactic.DeriveCountable
import UnionChecker.Proofs.Ty.Bound
import UnionChecker.Proofs.Ty.Positions
import UnionChecker.Proofs.Ty.Unions
/-!
# The meaning of a type

Under a valuation of its free names a type means a finite set of elements: a union means the union of
its members, every other type a single element. A function type gives its own generics the values
that their positions stand for, whatever they are called, and a set has neither order nor
repetitions; so equality of meanings is an equivalence and a congruence for free.

Two facts tie this to the code. Types that `equal` takes for equal mean the same under every
valuation that gives positional names their positions (`meaning_eq_of_equal`), whatever the types
are. And `equal` finds equal all types without nested unions that mean the same
(`equal_of_meaning_eq`), as long as the free names do not look like the positional names of inner
function types.
-/

namespace UnionChecker.Ty

/-! ## Elements -/

/-- What a type other than a union means. Meanings below are sets of the numbers of elements. -/
inductive Element where
  /-- The generic at a position of a function type around. -/
  | bound (index : Nat)
  /-- A name that is bound nowhere. -/
  | free (name : String)
  | named (package name : String) (args : List (Finset Nat))
  | fn (generics : Nat) (params : List (Finset Nat)) (result : Finset Nat)

instance : Countable Char :=
  Function.Injective.countable (f := Char.toNat) fun _ _ h => Char.toNat_inj.1 h

instance : Countable String :=
  Function.Injective.countable (f := String.toList) fun _ _ h => String.toList_inj.1 h

deriving instance Countable for Element

/-- The number of an element. -/
noncomputable def number : Element → Nat := (exists_injective_nat Element).choose

theorem number_inj {a b : Element} : number a = number b ↔ a = b :=
  (exists_injective_nat Element).choose_spec.eq_iff

/-! ## Meanings -/

/-- What the names in scope mean. -/
abbrev Valuation := String → Finset Nat

/-- The generics of a function type mean their positions. -/
noncomputable def Valuation.bind (v : Valuation) (generics : List String) : Valuation := fun x =>
  match position generics x with
  | some i => {number (.bound i)}
  | none => v x

mutual

/-- The meaning of a type. -/
noncomputable def meaning (v : Valuation) : Ty → Finset Nat
  | .var x => v x
  | .named decl args => {number (.named decl.ref.package decl.ref.name (meaningAll v args))}
  | .fn generics params result =>
    {number (.fn generics.length (meaningParams (v.bind generics) params)
      (meaning (v.bind generics) result))}
  | .union ms => (meaningAll v ms).foldr (· ∪ ·) ∅

/-- The meanings of a list of types. -/
noncomputable def meaningAll (v : Valuation) : List Ty → List (Finset Nat)
  | [] => []
  | t :: ts => meaning v t :: meaningAll v ts

/-- The meanings of the types of a parameter list. -/
noncomputable def meaningParams (v : Valuation) : List (String × Ty) → List (Finset Nat)
  | [] => []
  | (_, t) :: ps => meaning v t :: meaningParams v ps

end

theorem meaningAll_eq_map (v : Valuation) : ∀ ts : List Ty, meaningAll v ts = ts.map (meaning v)
  | [] => rfl
  | t :: ts => congrArg (meaning v t :: ·) (meaningAll_eq_map v ts)

theorem meaningParams_eq_map (v : Valuation) :
    ∀ ps : List (String × Ty), meaningParams v ps = ps.map fun p => meaning v p.2
  | [] => rfl
  | (_, t) :: ps => congrArg (meaning v t :: ·) (meaningParams_eq_map v ps)

theorem mem_meaning_union {v : Valuation} {ms : List Ty} {e : Nat} :
    e ∈ meaning v (.union ms) ↔ ∃ m ∈ ms, e ∈ meaning v m := by
  rw [meaning, meaningAll_eq_map]
  induction ms with
  | nil => simp
  | cons m ms ih => simp [ih]

/-- A union means something through a member. -/
theorem spreads_meaning (v : Valuation) (e : Nat) : Spreads fun t => e ∈ meaning v t :=
  fun _ => mem_meaning_union

theorem mem_meaning_members {v : Valuation} {e : Nat} (t : Ty) :
    (∃ m ∈ t.members, e ∈ meaning v m) ↔ e ∈ meaning v t :=
  (spreads_meaning v e).members_iff t

/-! ## Building a union keeps the meaning

Of two members that compare equal one is dropped, which is harmless when they mean the same. The
comparison is only asked for that up to the total size of the members. -/

/-- Types that compare equal mean the same, up to a total size. -/
def SoundUpTo (size : Nat) (eq : Ty → Ty → Bool) (v : Valuation) : Prop :=
  ∀ a b : Ty, a.size + b.size ≤ size → eq a b = true → meaning v a = meaning v b

theorem SoundUpTo.mono {m n : Nat} {eq : Ty → Ty → Bool} {v : Valuation} (h : SoundUpTo n eq v)
    (hm : m ≤ n) : SoundUpTo m eq v := fun a b hab => h a b (by omega)

theorem size_add_size_le {a b : Ty} (hab : a ≠ b) : ∀ {ts : List Ty}, a ∈ ts → b ∈ ts →
    a.size + b.size ≤ sizeAll ts
  | t :: ts, ha, hb => by
    simp only [sizeAll]
    rcases List.mem_cons.1 ha with rfl | ha' <;> rcases List.mem_cons.1 hb with rfl | hb'
    · exact absurd rfl hab
    · have := size_le_sizeAll hb'; omega
    · have := size_le_sizeAll ha'; omega
    · have := size_add_size_le hab ha' hb'; omega

/-- `Spreads.unionWith_iff`, where the comparison is only asked up to the total size of the types. -/
theorem Spreads.unionWith_iff_upTo {P : Ty → Prop} (hP : Spreads P) {eq : Ty → Ty → Bool}
    {ts : List Ty} (h : ∀ a b : Ty, a.size + b.size ≤ sizeAll ts → eq a b = true → (P a ↔ P b)) :
    P (unionWith eq ts) ↔ ∃ t ∈ ts, P t := by
  refine hP.unionWith_iff fun a ha b hb hab => ?_
  by_cases heq : a = b
  · rw [heq]
  · have h1 := size_add_size_le heq ha hb
    have h2 := sizeAll_flattenAll_le ts
    exact h a b (by omega) hab

theorem meaning_unionWith {eq : Ty → Ty → Bool} {v : Valuation} {ts : List Ty}
    (h : SoundUpTo (sizeAll ts) eq v) : meaning v (unionWith eq ts) = meaning v (.union ts) := by
  ext e
  rw [mem_meaning_union, (spreads_meaning v e).unionWith_iff_upTo]
  exact fun a b hab he => by rw [h a b hab he]

/-! ## Renaming keeps the meaning -/

/-- Positional names mean their positions, at every depth. -/
def Positional (v : Valuation) : Prop := ∀ d i, v (positional d i) = {number (.bound i)}

/-- What names mean before a renaming, given what they mean after it. -/
def Valuation.before (v : Valuation) (ρ : List (String × String)) : Valuation := fun x =>
  v ((ρ.lookup x).getD x)

theorem bind_positionals {v : Valuation} (hv : Positional v) (depth : Nat) (generics : List String) :
    v.bind (positionals depth generics) = v := by
  funext x
  unfold Valuation.bind
  split
  · rename_i i hi
    rw [position_positionals hi, hv]
  · rfl

theorem before_enter {v : Valuation} (hv : Positional v) (depth : Nat) (generics : List String)
    (ρ : List (String × String)) :
    v.before (enter depth generics ρ) = (v.before ρ).bind generics := by
  funext x
  unfold Valuation.before Valuation.bind
  rw [lookup_enter]
  cases position generics x with
  | none => simp
  | some i => simp [hv depth i]

theorem meaning_renameWith {eq : Ty → Ty → Bool} {v : Valuation} (hv : Positional v) (t : Ty) :
    ∀ depth ρ, SoundUpTo t.size eq v →
      meaning v (renameWith eq depth ρ t) = meaning (v.before ρ) t := by
  induction t with
  | var x => intro depth ρ _; rfl
  | named decl args ih =>
    intro depth ρ h
    have hargs : args.map (fun t => meaning v (renameWith eq depth ρ t)) =
        args.map (meaning (v.before ρ)) := by
      refine List.map_congr_left fun t ht => ih t ht depth ρ (h.mono ?_)
      have := size_le_sizeAll ht
      simp only [size]; omega
    simp only [renameWith, meaning, meaningAll_eq_map, renameAllWith_eq_map, List.map_map,
      Function.comp_def, hargs]
  | fn generics params result ihp ihr =>
    intro depth ρ h
    have hp : params.map (fun p => meaning v (renameWith eq (depth + 1) (enter depth generics ρ) p.2)) =
        params.map fun p => meaning ((v.before ρ).bind generics) p.2 := by
      refine List.map_congr_left fun p hp => ?_
      have := size_le_sizeParams hp
      rw [ihp p hp _ _ (h.mono (by simp only [size]; omega)), before_enter hv]
    have hr := ihr (depth + 1) (enter depth generics ρ) (h.mono (by simp only [size]; omega))
    rw [before_enter hv] at hr
    simp only [renameWith, meaning, bind_positionals hv, meaningParams_eq_map,
      renameParamsWith_eq_map, List.map_map, Function.comp_def, hp, hr, length_positionals]
  | union ms ih =>
    intro depth ρ h
    -- renaming does not make the members larger, so `eq` is still sound on these
    have hle := sizeAll_map_le fun t (_ : t ∈ ms) => size_renameWith_le eq t depth ρ
    rw [renameWith, renameAllWith_eq_map,
      meaning_unionWith (h.mono (by simp only [size]; omega))]
    ext e
    simp only [mem_meaning_union, List.mem_map, exists_exists_and_eq_and]
    refine exists_congr fun m => and_congr_right fun hm => ?_
    have := size_le_sizeAll hm
    rw [ih m hm depth ρ (h.mono (by simp only [size]; omega))]

/-! ## Equal types mean the same -/

theorem before_enter_nil {v : Valuation} (hv : Positional v) (depth : Nat)
    (generics : List String) : v.before (enter depth generics []) = v.bind generics :=
  before_enter hv depth generics []

theorem meaning_eq_of_sameMembers {v : Valuation} {a b : Ty}
    (h1 : ∀ x ∈ a.members, ∃ y ∈ b.members, meaning v x = meaning v y)
    (h2 : ∀ y ∈ b.members, ∃ x ∈ a.members, meaning v x = meaning v y) :
    meaning v a = meaning v b := by
  ext e
  rw [← mem_meaning_members a, ← mem_meaning_members b]
  constructor
  · rintro ⟨x, hx, he⟩
    obtain ⟨y, hy, hxy⟩ := h1 x hx
    exact ⟨y, hy, hxy ▸ he⟩
  · rintro ⟨y, hy, he⟩
    obtain ⟨x, hx, hxy⟩ := h2 y hy
    exact ⟨x, hx, hxy ▸ he⟩

/-- Equality is sound on function types when it is on smaller types. -/
theorem meaning_eq_of_equal_fn {v : Valuation} (hv : Positional v) {s : Nat}
    (ih : SoundUpTo s equal v) {gs hs : List String} {ps qs : List (String × Ty)} {r t : Ty}
    (hsize : (fn gs ps r).size + (fn hs qs t).size ≤ s + 1)
    (h : equal (.fn gs ps r) (.fn hs qs t) = true) :
    meaning v (.fn gs ps r) = meaning v (.fn hs qs t) := by
  simp only [size] at hsize
  obtain ⟨hlen, hparams, hresult⟩ := equal_fn.1 h
  -- what the code compares are the renamed parts, which mean what the parts mean in their scope
  have hrename : ∀ (g : List String) (u : Ty), u.size ≤ s →
      meaning v (rename 1 (enter 0 g []) u) = meaning (v.bind g) u := fun g u hu => by
    rw [rename, meaning_renameWith hv u _ _ (ih.mono hu), before_enter_nil hv]
  have hpart : ∀ x y : Ty, x.size + y.size ≤ s →
      equal (rename 1 (enter 0 gs []) x) (rename 1 (enter 0 hs []) y) = true →
      meaning (v.bind gs) x = meaning (v.bind hs) y := fun x y hxy he => by
    have h1 := size_renameWith_le equal x 1 (enter 0 gs [])
    have h2 := size_renameWith_le equal y 1 (enter 0 hs [])
    rw [← hrename gs x (by omega), ← hrename hs y (by omega)]
    exact ih _ _ (by simp only [rename]; omega) he
  have hps : ps.map (fun p => meaning (v.bind gs) p.2) =
      qs.map fun q => meaning (v.bind hs) q.2 := by
    refine map_eq_map_of_forall₂ hparams fun p hp q hq he => hpart _ _ ?_ he
    have h1 := size_le_sizeParams hp
    have h2 := size_le_sizeParams hq
    omega
  have hr := hpart r t (by omega) hresult
  simp only [meaning, meaningParams_eq_map, hlen, hps, hr]

theorem soundUpTo_equal {v : Valuation} (hv : Positional v) : ∀ s, SoundUpTo s equal v
  | 0 => fun a b hs => by have := size_pos a; omega
  | s + 1 => by
    have ih := soundUpTo_equal hv s
    intro a b hs h
    cases matched_of_equal h with
    | var x => rfl
    | @named d e as bs href hargs =>
      have hm : as.map (meaning v) = bs.map (meaning v) :=
        map_eq_map_of_forall₂ hargs fun x hx y hy he => ih x y (by
          have h1 := size_le_sizeAll hx
          have h2 := size_le_sizeAll hy
          simp only [size] at hs; omega) he
      simp only [meaning, meaningAll_eq_map, href, hm]
    | fn h => exact meaning_eq_of_equal_fn hv ih hs h
    | members hleft hright hsize =>
      refine meaning_eq_of_sameMembers (fun x hx => ?_) fun y hy => ?_
      · obtain ⟨y, hy, he⟩ := hleft x hx
        have := hsize x hx y hy
        exact ⟨y, hy, ih x y (by omega) he⟩
      · obtain ⟨x, hx, he⟩ := hright y hy
        have := hsize x hx y hy
        exact ⟨x, hx, ih x y (by omega) he⟩

/-- **Equality is sound.** Types that compare equal mean the same. -/
theorem meaning_eq_of_equal {v : Valuation} (hv : Positional v) {a b : Ty}
    (h : equal a b = true) : meaning v a = meaning v b :=
  soundUpTo_equal hv _ a b (Nat.le_refl _) h

theorem meaning_rename {v : Valuation} (hv : Positional v) (depth : Nat)
    (ρ : List (String × String)) (t : Ty) :
    meaning v (rename depth ρ t) = meaning (v.before ρ) t :=
  meaning_renameWith hv t depth ρ (soundUpTo_equal hv _)

theorem meaning_join {v : Valuation} (hv : Positional v) (ts : List Ty) :
    meaning v (join ts) = meaning v (.union ts) :=
  meaning_unionWith (soundUpTo_equal hv _)

end UnionChecker.Ty
