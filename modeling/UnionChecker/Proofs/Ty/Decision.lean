import UnionChecker.Proofs.Ty.Meaning
/-!
# Equality decides sameness of meaning

The converse of `meaning_eq_of_equal`. Comparing function types renames their generics to positional
names of depth zero, which after that are free names of the parts. So the converse is about types
whose free names are either no positional names at all or positional names of depth zero (`Clean`),
and whose unions have no unions as members (`Flat`).
-/

namespace UnionChecker.Ty

/-! ## Free names -/

theorem mentionsAny_nil (t : Ty) : t.mentionsAny [] = false := by
  induction t with
  | var x => rfl
  | named decl args ih => simpa [mentionsAny, mentionsAnyOf_eq_any] using ih
  | fn generics params result ihp ihr =>
    simpa [mentionsAny, mentionsAnyOfParams_eq_any, ihr] using fun a b => ihp (a, b)
  | union ms ih => simpa [mentionsAny, mentionsAnyOf_eq_any] using ih

theorem mentionsAny_var {x y : String} : (var y).mentionsAny [x] = true ↔ y = x := by
  simp [mentionsAny]

theorem mentionsAny_named {decl : Nominal} {args : List Ty} {x : String} :
    (named decl args).mentionsAny [x] = true ↔ ∃ t ∈ args, t.mentionsAny [x] = true := by
  show mentionsAnyOf [x] args = true ↔ _
  rw [mentionsAnyOf_eq_any, List.any_eq_true]

theorem mentionsAny_union {ms : List Ty} {x : String} :
    (union ms).mentionsAny [x] = true ↔ ∃ t ∈ ms, t.mentionsAny [x] = true := by
  show mentionsAnyOf [x] ms = true ↔ _
  rw [mentionsAnyOf_eq_any, List.any_eq_true]

theorem mentionsAny_fn {gs : List String} {ps : List (String × Ty)} {r : Ty} {x : String} :
    (fn gs ps r).mentionsAny [x] = true ↔
      x ∉ gs ∧ ((∃ p ∈ ps, p.2.mentionsAny [x] = true) ∨ r.mentionsAny [x] = true) := by
  by_cases hx : x ∈ gs
  · simp [mentionsAny, mentionsAnyOfParams_eq_any, hx, mentionsAny_nil]
  · simp [mentionsAny, mentionsAnyOfParams_eq_any, hx]

theorem unionWith_mentions {eq : Ty → Ty → Bool} {ts : List Ty} {x : String}
    (h : (unionWith eq ts).mentionsAny [x] = true) : ∃ t ∈ ts, t.mentionsAny [x] = true :=
  Spreads.exists_of_unionWith (P := fun t => t.mentionsAny [x] = true) (fun _ => mentionsAny_union) h

/-- The free names of a renamed type are the renamed free names. -/
theorem renameWith_mentions {eq : Ty → Ty → Bool} (t : Ty) : ∀ {depth ρ} {y : String},
    (renameWith eq depth ρ t).mentionsAny [y] = true →
      ∃ x, t.mentionsAny [x] = true ∧ (ρ.lookup x).getD x = y := by
  induction t with
  | var x => intro depth ρ y h; exact ⟨x, by simp [mentionsAny], mentionsAny_var.1 h⟩
  | named decl args ih =>
    intro depth ρ y h
    simp only [renameWith, renameAllWith_eq_map] at h
    obtain ⟨u, hu, hy⟩ := mentionsAny_named.1 h
    obtain ⟨t, ht, rfl⟩ := List.mem_map.1 hu
    obtain ⟨x, hx, e⟩ := ih t ht hy
    exact ⟨x, mentionsAny_named.2 ⟨t, ht, hx⟩, e⟩
  | fn generics params result ihp ihr =>
    intro depth ρ y h
    simp only [renameWith, renameParamsWith_eq_map] at h
    obtain ⟨hy, hparts⟩ := mentionsAny_fn.1 h
    -- a generic of the function type goes to a positional name that is bound again
    have hout : ∀ x, ((enter depth generics ρ).lookup x).getD x = y →
        x ∉ generics ∧ (ρ.lookup x).getD x = y := by
      intro x hx
      rw [lookup_enter] at hx
      cases hp : position generics x with
      | none => exact ⟨position_eq_none_iff.1 hp, by simpa [hp] using hx⟩
      | some i =>
        have hi := (List.getElem?_eq_some_iff.1 (position_eq_some hp)).1
        rw [hp] at hx
        refine absurd ?_ hy
        simp only [positionals, List.mem_map, List.mem_range]
        exact ⟨i, hi, by simpa using hx⟩
    rcases hparts with ⟨q, hq, hy'⟩ | hy'
    · obtain ⟨p, hp, rfl⟩ := List.mem_map.1 hq
      obtain ⟨x, hx, e⟩ := ihp p hp hy'
      exact ⟨x, mentionsAny_fn.2 ⟨(hout x e).1, Or.inl ⟨p, hp, hx⟩⟩, (hout x e).2⟩
    · obtain ⟨x, hx, e⟩ := ihr hy'
      exact ⟨x, mentionsAny_fn.2 ⟨(hout x e).1, Or.inr hx⟩, (hout x e).2⟩
  | union ms ih =>
    intro depth ρ y h
    rw [renameWith, renameAllWith_eq_map] at h
    obtain ⟨u, hu, hy⟩ := unionWith_mentions h
    obtain ⟨t, ht, rfl⟩ := List.mem_map.1 hu
    obtain ⟨x, hx, e⟩ := ih t ht hy
    exact ⟨x, mentionsAny_union.2 ⟨t, ht, hx⟩, e⟩

/-! ## Flat types -/

/-- Whether a type is a union. -/
def isUnion : Ty → Bool
  | .union _ => true
  | _ => false

/-- No union has a union as a member. -/
inductive Flat : Ty → Prop
  | var (x : String) : Flat (.var x)
  | named {decl : Nominal} {args : List Ty} (h : ∀ t ∈ args, Flat t) : Flat (.named decl args)
  | fn {gs : List String} {ps : List (String × Ty)} {r : Ty} (hp : ∀ p ∈ ps, Flat p.2)
      (hr : Flat r) : Flat (.fn gs ps r)
  | union {ms : List Ty} (h : ∀ m ∈ ms, Flat m) (hm : ∀ m ∈ ms, m.isUnion = false) :
      Flat (.union ms)

@[simp] theorem flat_var (x : String) : Flat (.var x) := .var x

@[simp] theorem flat_named {decl : Nominal} {args : List Ty} :
    Flat (.named decl args) ↔ ∀ t ∈ args, Flat t :=
  ⟨fun h => by cases h with | named h => exact h, .named⟩

@[simp] theorem flat_fn {gs : List String} {ps : List (String × Ty)} {r : Ty} :
    Flat (.fn gs ps r) ↔ (∀ p ∈ ps, Flat p.2) ∧ Flat r :=
  ⟨fun h => by cases h with | fn hp hr => exact ⟨hp, hr⟩, fun h => .fn h.1 h.2⟩

@[simp] theorem flat_union {ms : List Ty} :
    Flat (.union ms) ↔ (∀ m ∈ ms, Flat m) ∧ ∀ m ∈ ms, m.isUnion = false :=
  ⟨fun h => by cases h with | union h hm => exact ⟨h, hm⟩, fun h => .union h.1 h.2⟩

theorem flatten_of_not_isUnion {t : Ty} (h : t.isUnion = false) : t.flatten = [t] := by
  cases t with
  | union ms => cases h
  | _ => rfl

theorem members_of_not_isUnion {t : Ty} (h : t.isUnion = false) : t.members = [t] := by
  cases t with
  | union => cases h
  | var | named | fn => rfl

theorem flattenAll_of_not_isUnion {ts : List Ty} (h : ∀ t ∈ ts, t.isUnion = false) :
    flattenAll ts = ts := by
  induction ts with
  | nil => rfl
  | cons t ts ih =>
    show t.flatten ++ flattenAll ts = _
    rw [flatten_of_not_isUnion (h t (by simp)), ih fun u hu => h u (by simp [hu])]
    rfl

theorem Flat.of_mem_members {t m : Ty} (h : Flat t) (hm : m ∈ t.members) :
    Flat m ∧ m.isUnion = false := by
  cases t with
  | union ms => exact ⟨(flat_union.1 h).1 m hm, (flat_union.1 h).2 m hm⟩
  | _ => cases List.mem_singleton.1 hm; exact ⟨h, rfl⟩

theorem Flat.flatten_eq {t : Ty} (h : Flat t) : t.flatten = t.members := by
  cases t with
  | union ms => exact flattenAll_of_not_isUnion (flat_union.1 h).2
  | _ => rfl

theorem flat_unionWith {eq : Ty → Ty → Bool} {ts : List Ty} (h : ∀ t ∈ ts, Flat t) :
    Flat (unionWith eq ts) := by
  have hflat : ∀ m ∈ flattenAll ts, Flat m ∧ m.isUnion = false := fun m hm => by
    rw [flattenAll_eq_flatMap, List.mem_flatMap] at hm
    obtain ⟨t, ht, hm⟩ := hm
    rw [(h t ht).flatten_eq] at hm
    exact (h t ht).of_mem_members hm
  rcases unionWith_cases eq ts with hm | ⟨ms, hms, hsub⟩
  · exact (hflat _ hm).1
  · rw [hms, flat_union]
    exact ⟨fun m hm => (hflat m (hsub m hm)).1, fun m hm => (hflat m (hsub m hm)).2⟩

/-- Renaming builds every union anew, so that nested ones are opened. -/
theorem flat_renameWith {eq : Ty → Ty → Bool} (t : Ty) :
    ∀ {depth ρ}, Flat (renameWith eq depth ρ t) := by
  induction t with
  | var x => intro depth ρ; exact .var _
  | named decl args ih =>
    intro depth ρ
    simp only [renameWith, renameAllWith_eq_map]
    exact .named (List.forall_mem_map.2 fun t ht => ih t ht)
  | fn generics params result ihp ihr =>
    intro depth ρ
    simp only [renameWith, renameParamsWith_eq_map]
    exact .fn (List.forall_mem_map.2 fun p hp => ihp p hp) ihr
  | union ms ih =>
    intro depth ρ
    simp only [renameWith, renameAllWith_eq_map]
    exact flat_unionWith (List.forall_mem_map.2 fun t ht => ih t ht)

/-! ## Names that mean themselves -/

/-- Every name means itself, and positional names mean their positions. -/
noncomputable def atoms : Valuation := fun x =>
  open Classical in
  if h : ∃ i d, x = positional d i then {number (.bound h.choose)} else {number (.free x)}

theorem positional_atoms : Positional atoms := by
  intro d i
  have h : ∃ i' d', positional d i = positional d' i' := ⟨i, d, rfl⟩
  obtain ⟨d', hd⟩ := h.choose_spec
  rw [atoms, dif_pos h, ← (positional_inj hd).2]

theorem atoms_of_not_positional {x : String} (h : ∀ d i, x ≠ positional d i) :
    atoms x = {number (.free x)} := by
  rw [atoms, dif_neg]
  rintro ⟨i, d, rfl⟩
  exact h d i rfl

/-- A positional name of an inner function type. -/
def IsInner (x : String) : Prop := ∃ d i, 0 < d ∧ x = positional d i

theorem atoms_cases {x : String} (hx : ¬ IsInner x) :
    (∃ i, x = positional 0 i ∧ atoms x = {number (.bound i)}) ∨ atoms x = {number (.free x)} := by
  by_cases h : ∃ d i, x = positional d i
  · obtain ⟨d, i, rfl⟩ := h
    have hd : d = 0 := by
      rcases Nat.eq_zero_or_pos d with hd | hd
      · exact hd
      · exact absurd ⟨d, i, hd, rfl⟩ hx
    subst hd
    exact Or.inl ⟨i, rfl, positional_atoms 0 i⟩
  · exact Or.inr (atoms_of_not_positional fun d i e => h ⟨d, i, e⟩)

theorem atoms_inj {x y : String} (hx : ¬ IsInner x) (hy : ¬ IsInner y) (h : atoms x = atoms y) :
    x = y := by
  rcases atoms_cases hx with ⟨i, rfl, hx⟩ | hx <;> rcases atoms_cases hy with ⟨j, rfl, hy⟩ | hy <;>
    rw [hx, hy, Finset.singleton_inj, number_inj] at h <;> simp_all

/-- No free name is the positional name of an inner function type. -/
def Clean (t : Ty) : Prop := ∀ x, t.mentionsAny [x] = true → ¬ IsInner x

theorem clean_opened {gs : List String} {ps : List (String × Ty)} {r t : Ty}
    (h : Clean (.fn gs ps r)) (ht : ∀ x, t.mentionsAny [x] = true → x ∉ gs →
      (fn gs ps r).mentionsAny [x] = true) : Clean (rename 1 (enter 0 gs []) t) := by
  intro y hy
  obtain ⟨x, hx, rfl⟩ := renameWith_mentions t hy
  rw [lookup_enter]
  cases hp : position gs x with
  | none => simpa using h x (ht x hx (position_eq_none_iff.1 hp))
  | some i =>
    rintro ⟨d, j, hd, e⟩
    have := (positional_inj (show positional 0 i = positional d j by simpa using e)).1
    omega

/-! ## Types that mean the same are equal -/

theorem meaning_atoms_singleton {t : Ty} (h : t.isUnion = false) :
    ∃ e, meaning atoms t = {e} := by
  cases t with
  | union ms => cases h
  | var x =>
    by_cases hx : ∃ d i, x = positional d i
    · obtain ⟨d, i, rfl⟩ := hx
      exact ⟨_, positional_atoms d i⟩
    · exact ⟨_, atoms_of_not_positional fun d i e => hx ⟨d, i, e⟩⟩
  | _ => exact ⟨_, by rw [meaning]⟩

/-- Each member of one of two flat types that mean the same has a member of the other that means
the same as it. -/
theorem exists_member_meaning_eq {a b x : Ty} (ha : Flat a) (hb : Flat b)
    (h : meaning atoms a = meaning atoms b) (hx : x ∈ a.members) :
    ∃ y ∈ b.members, meaning atoms x = meaning atoms y := by
  obtain ⟨e, he⟩ := meaning_atoms_singleton (ha.of_mem_members hx).2
  have heb : e ∈ meaning atoms b := by
    rw [← h, ← mem_meaning_members]
    exact ⟨x, hx, by simp [he]⟩
  obtain ⟨y, hy, hey⟩ := (mem_meaning_members b).2 heb
  obtain ⟨e', he'⟩ := meaning_atoms_singleton (hb.of_mem_members hy).2
  rw [he', Finset.mem_singleton] at hey
  exact ⟨y, hy, by rw [he, he', hey]⟩

theorem Clean.of_mem_members {t m : Ty} (h : Clean t) (hm : m ∈ t.members) : Clean m := by
  cases t with
  | union ms => exact fun x hx => h x (mentionsAny_union.2 ⟨m, hm, hx⟩)
  | _ => simp only [members, List.mem_singleton] at hm; subst hm; exact h

theorem Clean.args {decl : Nominal} {args : List Ty} (h : Clean (.named decl args)) :
    ∀ t ∈ args, Clean t :=
  fun t ht x hx => h x (mentionsAny_named.2 ⟨t, ht, hx⟩)

/-- The parts of a function type, opened as a comparison opens them, mean what they mean in the
scope of its generics. -/
theorem meaning_opened (gs : List String) (t : Ty) :
    meaning atoms (rename 1 (enter 0 gs []) t) = meaning (atoms.bind gs) t := by
  rw [meaning_rename positional_atoms, before_enter_nil positional_atoms]

/-- Equality is complete on function types when it is on smaller types. The parts need not be flat,
since they are renamed. -/
theorem equal_fn_of_meaning_eq {s : Nat} {gs hs : List String} {ps qs : List (String × Ty)}
    {r t : Ty} (ih : ∀ {a b : Ty}, a.size + b.size ≤ s → Flat a → Flat b → Clean a → Clean b →
      meaning atoms a = meaning atoms b → equal a b = true)
    (hsize : (fn gs ps r).size + (fn hs qs t).size ≤ s + 1) (ca : Clean (.fn gs ps r))
    (cb : Clean (.fn hs qs t))
    (h : meaning atoms (.fn gs ps r) = meaning atoms (.fn hs qs t)) :
    equal (.fn gs ps r) (.fn hs qs t) = true := by
  simp only [meaning, Finset.singleton_inj, number_inj, Element.fn.injEq, meaningParams_eq_map] at h
  obtain ⟨hlen, hps, hr⟩ := h
  simp only [size] at hsize
  have hpart : ∀ x y : Ty, x.size + y.size ≤ s →
      Clean (rename 1 (enter 0 gs []) x) → Clean (rename 1 (enter 0 hs []) y) →
      meaning (atoms.bind gs) x = meaning (atoms.bind hs) y →
      equal (rename 1 (enter 0 gs []) x) (rename 1 (enter 0 hs []) y) = true :=
    fun x y hxy cx cy he => by
      have h1 := size_renameWith_le equal x 1 (enter 0 gs [])
      have h2 := size_renameWith_le equal y 1 (enter 0 hs [])
      rw [← meaning_opened, ← meaning_opened] at he
      exact ih (by simp only [rename]; omega) (flat_renameWith x) (flat_renameWith y) cx cy he
  refine equal_fn.2 ⟨hlen, forall₂_of_map_eq_map hps fun p hp q hq he => ?_, ?_⟩
  · have h1 := size_le_sizeParams hp
    have h2 := size_le_sizeParams hq
    refine hpart p.2 q.2 (by omega) (clean_opened ca fun x hx hg => ?_)
      (clean_opened cb fun x hx hg => ?_) he
    · exact mentionsAny_fn.2 ⟨hg, Or.inl ⟨p, hp, hx⟩⟩
    · exact mentionsAny_fn.2 ⟨hg, Or.inl ⟨q, hq, hx⟩⟩
  · refine hpart r t (by omega) (clean_opened ca fun x hx hg => ?_)
      (clean_opened cb fun x hx hg => ?_) hr
    · exact mentionsAny_fn.2 ⟨hg, Or.inr hx⟩
    · exact mentionsAny_fn.2 ⟨hg, Or.inr hx⟩

/-- A name never means what a declared type or a function type means. -/
theorem atoms_ne {x : String} {e : Element} (hx : ¬ IsInner x) (hb : ∀ i, e ≠ .bound i)
    (hf : ∀ y, e ≠ .free y) : atoms x ≠ {number e} := by
  intro h
  rcases atoms_cases hx with ⟨i, -, hi⟩ | hi <;>
    rw [hi, Finset.singleton_inj, number_inj] at h
  · exact hb i h.symm
  · exact hf x h.symm

/-- **Equality is complete** on flat types without positional names of inner function types. -/
theorem equal_of_meaning_eq : ∀ (s : Nat) {a b : Ty}, a.size + b.size ≤ s → Flat a → Flat b →
    Clean a → Clean b → meaning atoms a = meaning atoms b → equal a b = true
  | 0, a, _, hs, _, _, _, _, _ => by have := size_pos a; omega
  | s + 1, a, b, hs, ha, hb, ca, cb, h => by
    have ih := @equal_of_meaning_eq s
    -- if one of the types is a union, its members are smaller, and so they are matched by `ih`
    have hmembers : (∀ x ∈ a.members, ∀ y ∈ b.members, x.size < a.size ∨ y.size < b.size) →
        (∀ x ∈ a.members, ∃ y ∈ b.members, equal x y = true) ∧
          ∀ y ∈ b.members, ∃ x ∈ a.members, equal x y = true := by
      intro hlt
      have hequal : ∀ x ∈ a.members, ∀ y ∈ b.members, meaning atoms x = meaning atoms y →
          equal x y = true := fun x hx y hy he => by
        have h1 := size_le_of_mem_members hx
        have h2 := size_le_of_mem_members hy
        have h3 := hlt x hx y hy
        exact ih (by omega) (ha.of_mem_members hx).1 (hb.of_mem_members hy).1
          (ca.of_mem_members hx) (cb.of_mem_members hy) he
      refine ⟨fun x hx => ?_, fun y hy => ?_⟩
      · obtain ⟨y, hy, he⟩ := exists_member_meaning_eq ha hb h hx
        exact ⟨y, hy, hequal x hx y hy he⟩
      · obtain ⟨x, hx, he⟩ := exists_member_meaning_eq hb ha h.symm hy
        exact ⟨x, hx, hequal x hx y hy he.symm⟩
    have hright : ∀ bs, b = .union bs → equal a b = true := by
      rintro bs rfl
      exact equal_union_right.2 (hmembers fun x _ y hy => Or.inr (size_lt_of_mem_union hy))
    cases a with
    | union as =>
      exact equal_union_left.2 (hmembers fun x hx y _ => Or.inl (size_lt_of_mem_union hx))
    | var x =>
      have hx := ca x (mentionsAny_var.2 rfl)
      cases b with
      | union bs => exact hright bs rfl
      | var y => exact equal_var.2 (atoms_inj hx (cb y (mentionsAny_var.2 rfl)) h)
      | _ => simp only [meaning] at h; exact absurd h (atoms_ne hx (by simp) (by simp))
    | named d as =>
      cases b with
      | union bs => exact hright bs rfl
      | var y =>
        simp only [meaning] at h
        exact absurd h.symm (atoms_ne (cb y (mentionsAny_var.2 rfl)) (by simp) (by simp))
      | named e bs =>
        simp only [meaning, Finset.singleton_inj, number_inj, Element.named.injEq,
          meaningAll_eq_map] at h
        obtain ⟨hp, hn, hargs⟩ := h
        refine equal_named.2 ⟨?_, forall₂_of_map_eq_map hargs fun x hx y hy he => ?_⟩
        · obtain ⟨⟨p, n⟩, _, _⟩ := d
          obtain ⟨⟨p', n'⟩, _, _⟩ := e
          simp_all
        · have h1 := size_le_sizeAll hx
          have h2 := size_le_sizeAll hy
          simp only [size] at hs
          exact ih (by omega) (flat_named.1 ha x hx) (flat_named.1 hb y hy) (ca.args x hx)
            (cb.args y hy) he
      | fn hs' qs t => simp [meaning, number_inj] at h
    | fn gs ps r =>
      cases b with
      | union bs => exact hright bs rfl
      | var y =>
        simp only [meaning] at h
        exact absurd h.symm (atoms_ne (cb y (mentionsAny_var.2 rfl)) (by simp) (by simp))
      | named e bs => simp [meaning, number_inj] at h
      | fn hs' qs t => exact equal_fn_of_meaning_eq ih hs ca cb h

/-- **Equality decides sameness of meaning.** -/
theorem equal_iff_meaning_eq {a b : Ty} (ha : Flat a) (hb : Flat b) (ca : Clean a) (cb : Clean b) :
    equal a b = true ↔ meaning atoms a = meaning atoms b :=
  ⟨meaning_eq_of_equal positional_atoms, equal_of_meaning_eq _ (Nat.le_refl _) ha hb ca cb⟩

/-! ## Names without a dollar sign -/

/-- No free name starts with a dollar sign. -/
def NoDollar (t : Ty) : Prop := ∀ x, t.mentionsAny [x] = true → x.toList.head? ≠ some '$'

theorem NoDollar.ne_positional {t : Ty} (h : NoDollar t) {x : String}
    (hx : t.mentionsAny [x] = true) (d i : Nat) : x ≠ positional d i := by
  rintro rfl
  exact h _ hx (head_positional d i)

theorem NoDollar.clean {t : Ty} (h : NoDollar t) : Clean t := by
  rintro x hx ⟨d, i, -, e⟩
  exact h.ne_positional hx d i e

end UnionChecker.Ty
