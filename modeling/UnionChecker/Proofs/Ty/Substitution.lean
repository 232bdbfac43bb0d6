import UnionChecker.Proofs.Ty.Decision
/-!
# What a substitution does

A substitution acts through its look-ups alone (`substitute_congr`), whatever the order of its
entries. It puts types in as they are, so a free name of a type put in can come under a function
type that binds this name. Where that does not happen, a type with a substitution means what the
type means when its names mean the types put in (`meaning_substitute`), and so substituting in two
steps is as good as substituting at once (`meaning_resolve_resolve`).
-/

namespace UnionChecker

/-! ## Look-ups -/

namespace Substitution

theorem lookup_set (σ : Substitution) (generic : String) (t : Ty) (x : String) :
    (σ.set generic t).lookup x = if x = generic then some t else σ.lookup x := by
  by_cases hx : x = generic
  · simp [set, hx]
  · have hne : (x == generic) = false := by simpa using hx
    rw [set, List.lookup_cons, hne, if_neg hx]
    simpa [hx] using lookup_filter_fst (fun y => y != generic) x σ

theorem lookup_without (σ : Substitution) (generics : List String) (x : String) :
    (σ.without generics).lookup x = if x ∈ generics then none else σ.lookup x := by
  rw [without, lookup_filter_fst fun y => !generics.contains y]
  by_cases hx : x ∈ generics <;> simp [hx]

theorem without_nil (σ : Substitution) : σ.without [] = σ := by
  simp [without]

theorem lookup_of_without {σ : Substitution} {generics : List String} {x : String} {t : Ty}
    (h : (σ.without generics).lookup x = some t) : x ∉ generics ∧ σ.lookup x = some t := by
  rw [lookup_without] at h
  split at h
  · cases h
  · exact ⟨‹_›, h⟩

theorem lookup_extend (σ : Substitution) (x : String) : ∀ τ : Substitution,
    (σ.extend τ).lookup x = (τ.lookup x).or (σ.lookup x)
  | [] => rfl
  | (y, t) :: τ => by
    have ih := lookup_extend σ x τ
    rw [extend] at ih
    rw [extend, List.foldr_cons, lookup_set, ih, List.lookup_cons]
    by_cases hxy : x = y
    · simp [hxy]
    · have hne : (x == y) = false := by simpa using hxy
      simp [hxy, hne]

/-- Generics paired with what a function gives for each. -/
theorem lookup_ofLists_map (f : String → Ty) (generics : List String) (x : String) :
    (ofLists generics (generics.map f)).lookup x = if x ∈ generics then some (f x) else none := by
  suffices h : ∀ σ : Substitution,
      ((generics.zip (generics.map f)).foldl (fun σ entry => σ.set entry.1 entry.2) σ).lookup x =
        if x ∈ generics then some (f x) else σ.lookup x from h []
  induction generics with
  | nil => intro σ; simp
  | cons g generics ih =>
    intro σ
    rw [List.map_cons, List.zip_cons_cons, List.foldl_cons, ih, lookup_set]
    by_cases hg : x ∈ generics <;> by_cases hx : x = g <;> simp [hg, hx]

theorem lookup_foldl_set (x : String) : ∀ (entries σ : Substitution),
    (entries.foldl (fun σ entry => σ.set entry.1 entry.2) σ).lookup x =
      (entries.reverse.lookup x).or (σ.lookup x)
  | [], _ => rfl
  | (y, t) :: entries, σ => by
    rw [List.foldl_cons, lookup_foldl_set x entries, lookup_set, List.reverse_cons,
      List.lookup_append, Option.or_assoc]
    by_cases hx : x = y
    · simp [hx]
    · have hne : (x == y) = false := by simpa using hx
      simp [List.lookup_cons, hx, hne]

/-- Generics paired with types. -/
theorem lookup_ofLists (generics : List String) (types : List Ty) (x : String) :
    (ofLists generics types).lookup x = (generics.zip types).reverse.lookup x := by
  rw [ofLists, lookup_foldl_set, List.lookup_nil, Option.or_none]

theorem mem_of_lookup_ofLists {generics : List String} {types : List Ty} {x : String} {t : Ty}
    (h : (ofLists generics types).lookup x = some t) : x ∈ generics ∧ t ∈ types := by
  rw [lookup_ofLists] at h
  exact List.of_mem_zip (List.mem_reverse.1 (mem_of_lookup_eq_some h))

/-- Every generic has a type when there are enough types. -/
theorem exists_lookup_ofLists {generics : List String} {types : List Ty}
    (hlength : generics.length = types.length) {x : String} (hx : x ∈ generics) :
    ∃ t ∈ types, (ofLists generics types).lookup x = some t := by
  cases hl : (ofLists generics types).lookup x with
  | some t => exact ⟨t, (mem_of_lookup_ofLists hl).2, rfl⟩
  | none =>
    rw [lookup_ofLists, List.lookup_eq_none_iff] at hl
    have hmem : x ∈ (generics.zip types).map (·.1) := by rwa [List.map_fst_zip hlength.le]
    obtain ⟨entry, he, rfl⟩ := List.mem_map.1 hmem
    simpa using hl entry (List.mem_reverse.2 he)

/-- Generics paired with related types have related types. -/
theorem lookup_ofLists_related {R : Ty → Ty → Prop} {as bs : List Ty} (h : List.Forall₂ R as bs)
    (generics : List String) (x : String) :
    ((ofLists generics as).lookup x = none ∧ (ofLists generics bs).lookup x = none) ∨
      ∃ a b, (ofLists generics as).lookup x = some a ∧ (ofLists generics bs).lookup x = some b ∧
        R a b := by
  rw [lookup_ofLists, lookup_ofLists]
  exact lookup_related (List.forall₂_reverse_iff.2 (forall₂_zip_left h generics))

/-- Different generics have the types they are paired with. -/
theorem lookup_ofLists_of_nodup {generics : List String} {types : List Ty} (hnd : generics.Nodup)
    (hlength : generics.length = types.length) {x : String} {t : Ty}
    (h : (x, t) ∈ generics.zip types) : (ofLists generics types).lookup x = some t := by
  rw [lookup_ofLists]
  refine lookup_eq_some_of_mem ?_ (List.mem_reverse.2 h)
  rwa [List.map_reverse, List.nodup_reverse, List.map_fst_zip hlength.le]

theorem isEmpty_iff_lookup {σ : Substitution} : σ.isEmpty = true ↔ ∀ x, σ.lookup x = none := by
  constructor
  · intro h x
    rw [List.isEmpty_iff.1 h]
    rfl
  · intro h
    cases σ with
    | nil => rfl
    | cons entry σ => simpa using h entry.1

/-! ## Related substitutions -/

section

variable {N : String → String → Prop} {T : Ty → Ty → Prop}
  (hN : ∀ {x x' y y'}, N x x' → N y y' → (x' == y') = (x == y))
  {σ σ' τ τ' : Substitution} {x x' : String}

/-- Entries for related names with related types. -/
def RelEntry (N : String → String → Prop) (T : Ty → Ty → Prop) (e e' : String × Ty) : Prop :=
  N e.1 e'.1 ∧ T e.2 e'.2

include hN

theorem rel_set (hσ : List.Forall₂ (RelEntry N T) σ σ') (hx : N x x') {t t' : Ty} (ht : T t t') :
    List.Forall₂ (RelEntry N T) (σ.set x t) (σ'.set x' t') :=
  .cons ⟨hx, ht⟩ (forall₂_filter hσ fun e e' he => by rw [bne, bne, hN he.1 hx])

theorem rel_ofLists {gs gs' : List String} {ts ts' : List Ty} (hgs : List.Forall₂ N gs gs')
    (hts : List.Forall₂ T ts ts') :
    List.Forall₂ (RelEntry N T) (ofLists gs ts) (ofLists gs' ts') :=
  List.rel_foldl (P := List.Forall₂ (RelEntry N T)) (R := RelEntry N T)
    (fun _ _ hσ _ _ he => rel_set hN hσ he.1 he.2) .nil (forall₂_zip hgs hts)

theorem rel_extend (hσ : List.Forall₂ (RelEntry N T) σ σ') (hτ : List.Forall₂ (RelEntry N T) τ τ') :
    List.Forall₂ (RelEntry N T) (σ.extend τ) (σ'.extend τ') :=
  List.rel_foldr (P := List.Forall₂ (RelEntry N T)) (R := RelEntry N T)
    (fun _ _ he _ _ hσ => rel_set hN hσ he.1 he.2) hσ hτ

theorem binds_eq_of_rel (hσ : List.Forall₂ (RelEntry N T) σ σ') (hx : N x x') :
    σ'.binds x' = σ.binds x := by
  have h : Option.Rel T (σ.lookup x) (σ'.lookup x') := rel_lookup (hN hx) hσ
  unfold binds
  generalize σ.lookup x = l, σ'.lookup x' = l' at h
  cases h <;> rfl

end

end Substitution

namespace Ty

open Substitution (lookup_without lookup_of_without isEmpty_iff_lookup)

theorem isEmpty_congr {σ τ : Substitution} (h : ∀ x, σ.lookup x = τ.lookup x) :
    σ.isEmpty = τ.isEmpty := by
  rw [Bool.eq_iff_iff, isEmpty_iff_lookup, isEmpty_iff_lookup]
  simp only [h]

/-- A substitution acts through its look-ups. -/
theorem substitute_congr (t : Ty) : ∀ {σ τ : Substitution}, (∀ x, σ.lookup x = τ.lookup x) →
    t.substitute σ = t.substitute τ := by
  induction t with
  | var x => intro σ τ h; simp only [substitute, h]
  | named decl args ih =>
    intro σ τ h
    simp only [substitute, substituteAll_eq_map, List.map_congr_left fun t ht => ih t ht h]
  | fn generics params result ihp ihr =>
    intro σ τ h
    have hin : ∀ x, (σ.without generics).lookup x = (τ.without generics).lookup x := fun x => by
      rw [lookup_without, lookup_without, h]
    simp only [substitute, isEmpty_congr hin, substituteParams_eq_map, ihr hin,
      List.map_congr_left fun p hp => congrArg (Prod.mk p.1) (ihp p hp hin)]
  | union ms ih =>
    intro σ τ h
    simp only [substitute, substituteAll_eq_map, List.map_congr_left fun t ht => ih t ht h]

theorem resolve_congr {σ τ : Substitution} (h : ∀ x, σ.lookup x = τ.lookup x) (t : Ty) :
    t.resolve σ = t.resolve τ := by
  rw [resolve, resolve, isEmpty_congr h, substitute_congr t h]

/-! ## Names bound inside a type -/

mutual

/-- The generics of the function types inside a type. -/
def binders : Ty → List String
  | .var _ => []
  | .named _ args => bindersAll args
  | .fn generics params result => generics ++ bindersParams params ++ binders result
  | .union ms => bindersAll ms

def bindersAll : List Ty → List String
  | [] => []
  | t :: ts => binders t ++ bindersAll ts

def bindersParams : List (String × Ty) → List String
  | [] => []
  | (_, t) :: ps => binders t ++ bindersParams ps

end

theorem bindersAll_eq_flatMap : ∀ ts : List Ty, bindersAll ts = ts.flatMap binders
  | [] => rfl
  | t :: ts => by simp [bindersAll, bindersAll_eq_flatMap ts]

theorem bindersParams_eq_flatMap :
    ∀ ps : List (String × Ty), bindersParams ps = ps.flatMap fun p => p.2.binders
  | [] => rfl
  | (_, t) :: ps => by simp [bindersParams, bindersParams_eq_flatMap ps]

theorem mem_binders_named {decl : Nominal} {args : List Ty} {g : String} :
    g ∈ (named decl args).binders ↔ ∃ t ∈ args, g ∈ t.binders := by
  simp [binders, bindersAll_eq_flatMap]

theorem mem_binders_union {ms : List Ty} {g : String} :
    g ∈ (union ms).binders ↔ ∃ t ∈ ms, g ∈ t.binders := by
  simp [binders, bindersAll_eq_flatMap]

theorem mem_binders_fn {gs : List String} {ps : List (String × Ty)} {r : Ty} {g : String} :
    g ∈ (fn gs ps r).binders ↔ g ∈ gs ∨ (∃ p ∈ ps, g ∈ p.2.binders) ∨ g ∈ r.binders := by
  simp [binders, bindersParams_eq_flatMap]

/-! ## The parts of a substituted type -/

/-- The names bound in a substituted type are bound in the type or in a type put in. -/
theorem mem_binders_substitute {g : String} (t : Ty) : ∀ {σ : Substitution},
    g ∈ (t.substitute σ).binders →
      g ∈ t.binders ∨ ∃ x u, σ.lookup x = some u ∧ g ∈ u.binders := by
  induction t with
  | var x =>
    intro σ h
    rw [substitute] at h
    cases hx : σ.lookup x with
    | none => simp [hx, binders] at h
    | some u => exact Or.inr ⟨x, u, hx, by simpa [hx] using h⟩
  | named decl args ih =>
    intro σ h
    rw [substitute, substituteAll_eq_map] at h
    obtain ⟨_, hu, hg⟩ := mem_binders_named.1 h
    obtain ⟨t, ht, rfl⟩ := List.mem_map.1 hu
    exact (ih t ht hg).imp_left fun hg => mem_binders_named.2 ⟨t, ht, hg⟩
  | fn generics params result ihp ihr =>
    intro σ h
    rw [substitute] at h
    split at h
    · exact Or.inl h
    -- what is put in inside is put in outside too
    · have hout : (∃ x u, (σ.without generics).lookup x = some u ∧ g ∈ u.binders) →
          ∃ x u, σ.lookup x = some u ∧ g ∈ u.binders :=
        fun ⟨x, u, hx, hg⟩ => ⟨x, u, (lookup_of_without hx).2, hg⟩
      rw [substituteParams_eq_map, mem_binders_fn] at h
      rcases h with hg | ⟨_, hq, hg⟩ | hg
      · exact Or.inl (mem_binders_fn.2 (Or.inl hg))
      · obtain ⟨p, hp, rfl⟩ := List.mem_map.1 hq
        exact (ihp p hp hg).imp (fun hg => mem_binders_fn.2 (Or.inr (Or.inl ⟨p, hp, hg⟩))) hout
      · exact (ihr hg).imp (fun hg => mem_binders_fn.2 (Or.inr (Or.inr hg))) hout
  | union ms ih =>
    intro σ h
    rw [substitute, substituteAll_eq_map] at h
    obtain ⟨_, hu, hg⟩ := Spreads.exists_of_unionWith (P := fun t => g ∈ t.binders)
      (fun _ => mem_binders_union) h
    obtain ⟨t, ht, rfl⟩ := List.mem_map.1 hu
    exact (ih t ht hg).imp_left fun hg => mem_binders_union.2 ⟨t, ht, hg⟩

/-- The free names of a substituted type are free names of the type or of a type put in. -/
theorem mentions_substitute {y : String} (t : Ty) : ∀ {σ : Substitution},
    (t.substitute σ).mentionsAny [y] = true →
      t.mentionsAny [y] = true ∨ ∃ x u, σ.lookup x = some u ∧ u.mentionsAny [y] = true := by
  induction t with
  | var x =>
    intro σ h
    rw [substitute] at h
    cases hx : σ.lookup x with
    | none => exact Or.inl (by simpa [hx] using h)
    | some u => exact Or.inr ⟨x, u, hx, by simpa [hx] using h⟩
  | named decl args ih =>
    intro σ h
    rw [substitute, substituteAll_eq_map] at h
    obtain ⟨_, hu, hy⟩ := mentionsAny_named.1 h
    obtain ⟨t, ht, rfl⟩ := List.mem_map.1 hu
    exact (ih t ht hy).imp_left fun hy => mentionsAny_named.2 ⟨t, ht, hy⟩
  | fn generics params result ihp ihr =>
    intro σ h
    rw [substitute] at h
    split at h
    · exact Or.inl h
    · have hout : (∃ x u, (σ.without generics).lookup x = some u ∧ u.mentionsAny [y] = true) →
          ∃ x u, σ.lookup x = some u ∧ u.mentionsAny [y] = true :=
        fun ⟨x, u, hx, hy⟩ => ⟨x, u, (lookup_of_without hx).2, hy⟩
      rw [substituteParams_eq_map] at h
      obtain ⟨hy, hparts⟩ := mentionsAny_fn.1 h
      rcases hparts with ⟨_, hq, hparts⟩ | hparts
      · obtain ⟨p, hp, rfl⟩ := List.mem_map.1 hq
        exact (ihp p hp hparts).imp
          (fun hx => mentionsAny_fn.2 ⟨hy, Or.inl ⟨p, hp, hx⟩⟩) hout
      · exact (ihr hparts).imp (fun hx => mentionsAny_fn.2 ⟨hy, Or.inr hx⟩) hout
  | union ms ih =>
    intro σ h
    rw [substitute, substituteAll_eq_map] at h
    obtain ⟨_, hu, hy⟩ := unionWith_mentions h
    obtain ⟨t, ht, rfl⟩ := List.mem_map.1 hu
    exact (ih t ht hy).imp_left fun hy => mentionsAny_union.2 ⟨t, ht, hy⟩

theorem flat_substitute (t : Ty) : ∀ {σ : Substitution}, Flat t →
    (∀ x u, σ.lookup x = some u → Flat u) → Flat (t.substitute σ) := by
  induction t with
  | var x =>
    intro σ _ h
    rw [substitute]
    cases hx : σ.lookup x with
    | none => exact .var x
    | some u => exact h x u hx
  | named decl args ih =>
    intro σ ht h
    rw [flat_named] at ht
    rw [substitute, substituteAll_eq_map]
    exact .named (List.forall_mem_map.2 fun t hm => ih t hm (ht t hm) h)
  | fn generics params result ihp ihr =>
    intro σ ht h
    rw [substitute]
    split
    · exact ht
    · rw [flat_fn] at ht
      have hin : ∀ x u, (σ.without generics).lookup x = some u → Flat u :=
        fun x u hx => h x u (lookup_of_without hx).2
      rw [substituteParams_eq_map]
      exact .fn (List.forall_mem_map.2 fun p hp => ihp p hp (ht.1 p hp) hin) (ihr ht.2 hin)
  | union ms ih =>
    intro σ ht h
    rw [flat_union] at ht
    rw [substitute, substituteAll_eq_map]
    exact flat_unionWith (List.forall_mem_map.2 fun t hm => ih t hm (ht.1 t hm) h)

/-! ## The meaning of a substituted type -/

/-- A meaning depends on the values of free names. -/
theorem meaning_congr (t : Ty) : ∀ {v w : Valuation},
    (∀ x, t.mentionsAny [x] = true → v x = w x) → meaning v t = meaning w t := by
  induction t with
  | var x => intro v w h; exact h x (mentionsAny_var.2 rfl)
  | named decl args ih =>
    intro v w h
    have hargs := fun t ht => ih t ht fun x hx => h x (mentionsAny_named.2 ⟨t, ht, hx⟩)
    simp only [meaning, meaningAll_eq_map, List.map_congr_left hargs]
  | fn generics params result ihp ihr =>
    intro v w h
    have hin : ∀ u : Ty, (∀ x, u.mentionsAny [x] = true → x ∉ generics →
        (fn generics params result).mentionsAny [x] = true) →
        ∀ x, u.mentionsAny [x] = true → v.bind generics x = w.bind generics x := by
      intro u hu x hx
      rw [Valuation.bind, Valuation.bind]
      cases hp : position generics x with
      | some i => rfl
      | none => exact h x (hu x hx (position_eq_none_iff.1 hp))
    have hps := fun p hp => ihp p hp
      (hin p.2 fun x hx hg => mentionsAny_fn.2 ⟨hg, Or.inl ⟨p, hp, hx⟩⟩)
    have hr := ihr (hin result fun x hx hg => mentionsAny_fn.2 ⟨hg, Or.inr hx⟩)
    simp only [meaning, meaningParams_eq_map, List.map_congr_left hps, hr]
  | union ms ih =>
    intro v w h
    have hms := fun t ht => ih t ht fun x hx => h x (mentionsAny_union.2 ⟨t, ht, hx⟩)
    simp only [meaning, meaningAll_eq_map, List.map_congr_left hms]

/-- What names mean when a substitution is made first. -/
noncomputable def Valuation.after (v : Valuation) (σ : Substitution) : Valuation := fun x =>
  match σ.lookup x with
  | some t => meaning v t
  | none => v x

/-- No type put in mentions a name that is bound inside the type. -/
def CaptureFree (σ : Substitution) (t : Ty) : Prop :=
  ∀ x u, σ.lookup x = some u → ∀ g ∈ t.binders, u.mentionsAny [g] = false

/-- Nothing is captured: what is put in for a free name of a function type does not mention the
generics of this function type. -/
inductive Uncaptured : Substitution → Ty → Prop
  | var {σ : Substitution} (x : String) : Uncaptured σ (.var x)
  | named {σ : Substitution} {decl : Nominal} {args : List Ty} (h : ∀ t ∈ args, Uncaptured σ t) :
      Uncaptured σ (.named decl args)
  | fn {σ : Substitution} {gs : List String} {ps : List (String × Ty)} {r : Ty}
      (hnames : ∀ x u, σ.lookup x = some u → (fn gs ps r).mentionsAny [x] = true →
        ∀ g ∈ gs, u.mentionsAny [g] = false)
      (hp : ∀ p ∈ ps, Uncaptured (σ.without gs) p.2) (hr : Uncaptured (σ.without gs) r) :
      Uncaptured σ (.fn gs ps r)
  | union {σ : Substitution} {ms : List Ty} (h : ∀ m ∈ ms, Uncaptured σ m) : Uncaptured σ (.union ms)

theorem CaptureFree.uncaptured (t : Ty) : ∀ {σ : Substitution}, CaptureFree σ t → Uncaptured σ t := by
  induction t with
  | var x => intro σ _; exact .var x
  | named decl args ih =>
    intro σ h
    exact .named fun t ht => ih t ht fun x u hx g hg => h x u hx g (mem_binders_named.2 ⟨t, ht, hg⟩)
  | fn gs ps r ihp ihr =>
    intro σ h
    refine .fn (fun x u hx _ g hg => h x u hx g (mem_binders_fn.2 (Or.inl hg)))
      (fun p hp => ihp p hp fun x u hx g hg => ?_) (ihr fun x u hx g hg => ?_)
    · exact h x u (lookup_of_without hx).2 g (mem_binders_fn.2 (Or.inr (Or.inl ⟨p, hp, hg⟩)))
    · exact h x u (lookup_of_without hx).2 g (mem_binders_fn.2 (Or.inr (Or.inr hg)))
  | union ms ih =>
    intro σ h
    exact .union fun t ht => ih t ht fun x u hx g hg => h x u hx g (mem_binders_union.2 ⟨t, ht, hg⟩)

/-- No name bound inside a type is a positional name. -/
def PlainBinders (t : Ty) : Prop := ∀ d i, positional d i ∉ t.binders

theorem bind_of_not_mem {v : Valuation} {generics : List String} {x : String}
    (h : x ∉ generics) : v.bind generics x = v x := by
  rw [Valuation.bind, position_eq_none_iff.2 h]

/-- A name means the same when the generics are bound before the types are put in and when they are
bound after it, unless what is put in for it mentions one of them. -/
theorem bind_after {v : Valuation} {σ : Substitution} {generics : List String} {x : String}
    (h : ∀ u, σ.lookup x = some u → x ∉ generics → ∀ g ∈ generics, u.mentionsAny [g] = false) :
    (v.bind generics).after (σ.without generics) x = (v.after σ).bind generics x := by
  by_cases hg : x ∈ generics
  · obtain ⟨i, hi⟩ := Option.ne_none_iff_exists'.1 fun hn => position_eq_none_iff.1 hn hg
    simp [Valuation.after, Valuation.bind, lookup_without, hg, hi]
  · rw [bind_of_not_mem hg, Valuation.after, Valuation.after, lookup_without, if_neg hg]
    cases hx : σ.lookup x with
    | none => exact bind_of_not_mem hg
    | some u =>
      refine meaning_congr u fun y hy => bind_of_not_mem fun hyg => ?_
      rw [h u hx hg y hyg] at hy
      cases hy

/-- **The meaning of a substituted type**: the names mean the types put in. -/
theorem meaning_substitute (t : Ty) : ∀ {v : Valuation} {σ : Substitution}, Positional v →
    PlainBinders t → Uncaptured σ t → meaning v (t.substitute σ) = meaning (v.after σ) t := by
  induction t with
  | var x =>
    intro v σ _ _ _
    rw [substitute, meaning, Valuation.after]
    cases σ.lookup x <;> rfl
  | named decl args ih =>
    intro v σ hv hb hc
    cases hc with
    | named hc =>
    have hargs := fun t ht =>
      ih t ht hv (fun d i hm => hb d i (mem_binders_named.2 ⟨t, ht, hm⟩)) (hc t ht)
    simp only [substitute, substituteAll_eq_map, meaning, meaningAll_eq_map, List.map_map,
      Function.comp_def, List.map_congr_left hargs]
  | fn generics params result ihp ihr =>
    intro v σ hv hb hc
    cases hc with
    | fn hnames hcp hcr =>
    -- binding the generics first makes no difference to a part of the function type
    have hbind : ∀ u : Ty, (∀ x, u.mentionsAny [x] = true → x ∉ generics →
        (fn generics params result).mentionsAny [x] = true) →
        meaning ((v.bind generics).after (σ.without generics)) u =
          meaning ((v.after σ).bind generics) u := fun u hu =>
      meaning_congr u fun x hx => bind_after fun w hw hg => hnames x w hw (hu x hx hg)
    have hps := fun p hp => hbind p.2 fun x hx hg => mentionsAny_fn.2 ⟨hg, Or.inl ⟨p, hp, hx⟩⟩
    have hr := hbind result fun x hx hg => mentionsAny_fn.2 ⟨hg, Or.inr hx⟩
    rw [substitute]
    split
    · -- everything is shadowed
      rename_i he
      have hnone : (v.bind generics).after (σ.without generics) = v.bind generics := by
        funext x
        rw [Valuation.after, isEmpty_iff_lookup.1 he x]
      rw [hnone] at hps hr
      simp only [meaning, meaningParams_eq_map, List.map_congr_left hps, hr]
    · have hv' : Positional (v.bind generics) := fun d i => by
        rw [bind_of_not_mem fun hm => hb d i (mem_binders_fn.2 (Or.inl hm)), hv d i]
      have hps' := fun p hp => (ihp p hp hv' (fun d i hm => hb d i
        (mem_binders_fn.2 (Or.inr (Or.inl ⟨p, hp, hm⟩)))) (hcp p hp)).trans (hps p hp)
      have hr' := (ihr hv' (fun d i hm => hb d i (mem_binders_fn.2 (Or.inr (Or.inr hm)))) hcr).trans hr
      simp only [meaning, substituteParams_eq_map, meaningParams_eq_map, List.map_map,
        Function.comp_def, List.map_congr_left hps', hr']
  | union ms ih =>
    intro v σ hv hb hc
    cases hc with
    | union hc =>
    have hms := fun t ht =>
      ih t ht hv (fun d i hm => hb d i (mem_binders_union.2 ⟨t, ht, hm⟩)) (hc t ht)
    rw [substitute, meaning_join hv]
    simp only [substituteAll_eq_map, meaning, meaningAll_eq_map, List.map_map,
      Function.comp_def, List.map_congr_left hms]

theorem meaning_resolve {v : Valuation} {σ : Substitution} {t : Ty} (hv : Positional v)
    (hb : PlainBinders t) (hc : Uncaptured σ t) :
    meaning v (t.resolve σ) = meaning (v.after σ) t := by
  rw [resolve]
  split
  · rename_i he
    refine meaning_congr t fun x _ => ?_
    rw [Valuation.after, isEmpty_iff_lookup.1 he x]
  · exact meaning_substitute t hv hb hc

theorem resolve_eq_or (σ : Substitution) (t : Ty) : t.resolve σ = t ∨ t.resolve σ = t.substitute σ := by
  rw [resolve]
  split
  · exact Or.inl rfl
  · exact Or.inr rfl

/-! ## Resolving form by form -/

theorem resolve_nil : resolve [] = id := by
  funext t
  rfl

theorem resolve_cons (entry : String × Ty) (σ : Substitution) :
    resolve (entry :: σ) = substitute (entry :: σ) := by
  funext t
  rfl

theorem resolve_var (σ : Substitution) (x : String) :
    (var x).resolve σ = (σ.lookup x).getD (.var x) := by
  rw [resolve]
  split
  · rename_i he
    rw [isEmpty_iff_lookup.1 he x, Option.getD_none]
  · rw [substitute]

theorem resolve_named (σ : Substitution) (decl : Nominal) (args : List Ty) :
    (named decl args).resolve σ = .named decl (args.map (resolve σ)) := by
  cases σ with
  | nil => simp [resolve_nil]
  | cons entry σ => rw [resolve_cons, substitute, substituteAll_eq_map]

theorem resolve_fn (σ : Substitution) (gs : List String) (ps : List (String × Ty)) (r : Ty) :
    (fn gs ps r).resolve σ =
      .fn gs (ps.map fun p => (p.1, p.2.resolve (σ.without gs))) (r.resolve (σ.without gs)) := by
  cases hin : σ.without gs with
  | nil =>
    have hr : (fn gs ps r).resolve σ = .fn gs ps r := by
      rcases resolve_eq_or σ (.fn gs ps r) with he | he
      · exact he
      · rw [he, substitute, hin]
        rfl
    simp [hr, resolve_nil]
  | cons entry inner =>
    have hσ : σ.isEmpty = false := by
      cases σ with
      | nil => simp [Substitution.without] at hin
      | cons => rfl
    rw [resolve, hσ, resolve_cons, if_neg (by simp), substitute, hin, substituteParams_eq_map]
    rfl

/-- A union is rebuilt from what its members become, unless there is nothing to substitute. -/
theorem resolve_union (σ : Substitution) (ms : List Ty) :
    (union ms).resolve σ = .union (ms.map (resolve σ)) ∨
      (union ms).resolve σ = join (ms.map (resolve σ)) := by
  cases σ with
  | nil => exact Or.inl (by simp [resolve_nil])
  | cons entry σ => exact Or.inr (by rw [resolve_cons, substitute, substituteAll_eq_map])

/-- A free name of a resolved type comes from what is put in for a free name of the type, or is such
a name itself. -/
theorem exists_mentions_of_resolve {y : String} (t : Ty) : ∀ {σ : Substitution},
    (t.resolve σ).mentionsAny [y] = true →
      ∃ x, t.mentionsAny [x] = true ∧ ((σ.lookup x).getD (.var x)).mentionsAny [y] = true := by
  induction t with
  | var x =>
    intro σ h
    rw [resolve_var] at h
    exact ⟨x, mentionsAny_var.2 rfl, h⟩
  | named decl args ih =>
    intro σ h
    rw [resolve_named] at h
    obtain ⟨_, hu, hy⟩ := mentionsAny_named.1 h
    obtain ⟨t, ht, rfl⟩ := List.mem_map.1 hu
    obtain ⟨x, hx, hy⟩ := ih t ht hy
    exact ⟨x, mentionsAny_named.2 ⟨t, ht, hx⟩, hy⟩
  | fn bound ps r ihp ihr =>
    intro σ h
    rw [resolve_fn] at h
    obtain ⟨hbound, hparts⟩ := mentionsAny_fn.1 h
    -- a name bound here stays, so it is not the one that brings in `y`
    have hout : ∀ x, (((σ.without bound).lookup x).getD (.var x)).mentionsAny [y] = true →
        x ∉ bound ∧ ((σ.lookup x).getD (.var x)).mentionsAny [y] = true := by
      intro x hx
      rw [lookup_without] at hx
      by_cases hb : x ∈ bound
      · rw [if_pos hb] at hx
        exact (hbound (mentionsAny_var.1 hx ▸ hb)).elim
      · rw [if_neg hb] at hx
        exact ⟨hb, hx⟩
    rcases hparts with ⟨_, hq, hy⟩ | hy
    · obtain ⟨p, hp, rfl⟩ := List.mem_map.1 hq
      obtain ⟨x, hx, hy⟩ := ihp p hp hy
      obtain ⟨hb, hy⟩ := hout x hy
      exact ⟨x, mentionsAny_fn.2 ⟨hb, Or.inl ⟨p, hp, hx⟩⟩, hy⟩
    · obtain ⟨x, hx, hy⟩ := ihr hy
      obtain ⟨hb, hy⟩ := hout x hy
      exact ⟨x, mentionsAny_fn.2 ⟨hb, Or.inr hx⟩, hy⟩
  | union ms ih =>
    intro σ h
    have hmem : ∃ u ∈ ms.map (resolve σ), u.mentionsAny [y] = true := by
      rcases resolve_union σ ms with he | he <;> rw [he] at h
      · exact mentionsAny_union.1 h
      · exact unionWith_mentions h
    obtain ⟨_, hu, hy⟩ := hmem
    obtain ⟨t, ht, rfl⟩ := List.mem_map.1 hu
    obtain ⟨x, hx, hy⟩ := ih t ht hy
    exact ⟨x, mentionsAny_union.2 ⟨t, ht, hx⟩, hy⟩

theorem mem_binders_resolve {g : String} {σ : Substitution} {t : Ty} (h : g ∈ (t.resolve σ).binders) :
    g ∈ t.binders ∨ ∃ x u, σ.lookup x = some u ∧ g ∈ u.binders := by
  rcases resolve_eq_or σ t with he | he <;> rw [he] at h
  · exact Or.inl h
  · exact mem_binders_substitute t h

/-- Substituting first `σ` and then `τ` is as good as substituting both at once, if no type of `σ`
mentions a name that `τ` replaces, and nothing is captured. -/
theorem meaning_resolve_resolve {v : Valuation} {σ τ ρ : Substitution} {t : Ty} (hv : Positional v)
    (hρ : ∀ x, ρ.lookup x = (τ.lookup x).or (σ.lookup x))
    (hdisjoint : ∀ x u, σ.lookup x = some u → τ.lookup x = none)
    (hopen : ∀ x u y w, σ.lookup x = some u → τ.lookup y = some w → u.mentionsAny [y] = false)
    (hτ : ∀ d i, τ.lookup (positional d i) = none)
    (hb : PlainBinders t) (hbσ : ∀ x u, σ.lookup x = some u → PlainBinders u)
    (hc : CaptureFree ρ t) (hcσ : ∀ x u, σ.lookup x = some u → CaptureFree τ u) :
    meaning v ((t.resolve σ).resolve τ) = meaning v (t.resolve ρ) := by
  -- both sides are the meaning of `t` under a valuation; the two agree at each name
  have hστ : ∀ x u, σ.lookup x = some u → ρ.lookup x = some u := fun x u hx => by
    rw [hρ, hdisjoint x u hx, hx]; rfl
  have hτρ : ∀ x u, τ.lookup x = some u → ρ.lookup x = some u := fun x u hx => by
    rw [hρ, hx]; rfl
  have hvτ : Positional (v.after τ) := fun d i => by rw [Valuation.after, hτ d i, hv d i]
  have hb' : PlainBinders (t.resolve σ) := fun d i hm => by
    rcases mem_binders_resolve hm with hm | ⟨x, u, hx, hm⟩
    · exact hb d i hm
    · exact hbσ x u hx d i hm
  have hc' : CaptureFree τ (t.resolve σ) := fun y w hy g hg => by
    rcases mem_binders_resolve hg with hg | ⟨x, u, hx, hg⟩
    · exact hc y w (hτρ y w hy) g hg
    · exact hcσ x u hx y w hy g hg
  have hcσ' : CaptureFree σ t := fun x u hx => hc x u (hστ x u hx)
  rw [meaning_resolve hv hb' hc'.uncaptured, meaning_resolve hvτ hb hcσ'.uncaptured,
    meaning_resolve hv hb hc.uncaptured]
  refine meaning_congr t fun x _ => ?_
  simp only [Valuation.after, hρ]
  cases hx : σ.lookup x with
  | none => rw [Option.or_none]
  | some u =>
    rw [hdisjoint x u hx]
    refine meaning_congr u fun y hy => ?_
    cases hyτ : τ.lookup y with
    | none => rw [Valuation.after, hyτ]
    | some w => rw [hopen x u y w hx hyτ] at hy; cases hy

/-! ## Regular types -/

/-- A type as programs have them: unions are flat, and no name starts with a dollar sign. -/
structure Regular (t : Ty) : Prop where
  flat : Flat t
  free : NoDollar t
  bound : ∀ g ∈ t.binders, g.toList.head? ≠ some '$'

theorem Regular.plainBinders {t : Ty} (h : Regular t) : PlainBinders t :=
  fun d i hm => h.bound _ hm (head_positional d i)

theorem Regular.resolve {σ : Substitution} {t : Ty} (ht : Regular t)
    (hσ : ∀ x u, σ.lookup x = some u → Regular u) : Regular (t.resolve σ) := by
  rcases resolve_eq_or σ t with he | he <;> rw [he]
  · exact ht
  · refine ⟨flat_substitute t ht.flat fun x u hx => (hσ x u hx).flat, fun y hy => ?_,
      fun g hg => ?_⟩
    · rcases mentions_substitute t hy with hy | ⟨x, u, hx, hy⟩
      · exact ht.free y hy
      · exact (hσ x u hx).free y hy
    · rcases mem_binders_substitute t hg with hg | ⟨x, u, hx, hg⟩
      · exact ht.bound g hg
      · exact (hσ x u hx).bound g hg

/-- A parameter of a function type is regular when the function type is. -/
theorem Regular.param {gs : List String} {ps : List (String × Ty)} {r : Ty} {p : String × Ty}
    (h : Regular (.fn gs ps r)) (hp : p ∈ ps) : Regular p.2 where
  flat := (flat_fn.1 h.flat).1 p hp
  free x hx := by
    by_cases hg : x ∈ gs
    · exact h.bound x (mem_binders_fn.2 (Or.inl hg))
    · exact h.free x (mentionsAny_fn.2 ⟨hg, Or.inl ⟨p, hp, hx⟩⟩)
  bound g hg := h.bound g (mem_binders_fn.2 (Or.inr (Or.inl ⟨p, hp, hg⟩)))

end Ty

end UnionChecker
