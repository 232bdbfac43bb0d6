/-!
# Sequences of steps that may fail

What holds after a sequence of steps that all succeed: an invariant of the steps, and for each result
what its step says about it. A sequence of checks fails at its first failed one. Two
computations are alike when both succeed with related results or both fail (`Alike`).

Steps that only fail when they clash can be taken in any order: whether all of them succeed does not
depend on it (`foldlM_eq_ok_iff`), nor does the result when neighbours may be swapped (`foldl_perm`).
-/

namespace UnionChecker

variable {ε α β : Type}

theorem bind_eq_ok {x : Except ε α} {f : α → Except ε β} {b : β} :
    x >>= f = .ok b ↔ ∃ a, x = .ok a ∧ f a = .ok b := by
  cases x with
  | error e =>
    constructor
    · intro h; cases h
    · rintro ⟨a, h, -⟩; cases h
  | ok a =>
    constructor
    · exact fun h => ⟨a, rfl, h⟩
    · rintro ⟨a', h, hb⟩; cases h; exact hb

theorem map_eq_ok {x : Except ε α} {f : α → β} {b : β} :
    x.map f = .ok b ↔ ∃ a, x = .ok a ∧ b = f a := by
  cases x with
  | error e => simp [Except.map]
  | ok a => simp [Except.map, eq_comm]

theorem ite_error_eq_ok {c : Prop} [Decidable c] {e : ε} {a b : α} :
    (if c then Except.error e else .ok a) = .ok b ↔ ¬c ∧ b = a := by
  by_cases hc : c <;> simp [hc, eq_comm]

theorem ite_error_else_eq_ok {c : Prop} [Decidable c] {e : ε} {x : Except ε α} {a : α} :
    (if c then Except.error e else x) = .ok a ↔ ¬c ∧ x = .ok a := by
  by_cases hc : c <;> simp [hc]

theorem foldlM_invariant {I : β → Prop} {step : β → α → Except ε β} :
    ∀ {as : List α} {b b' : β}, (∀ b, ∀ a ∈ as, ∀ b', I b → step b a = .ok b' → I b') → I b →
      as.foldlM step b = .ok b' → I b'
  | [], b, b', _, hb, h => by cases h; exact hb
  | a :: as, b, b', hstep, hb, h => by
    rw [List.foldlM_cons, bind_eq_ok] at h
    obtain ⟨c, hc, h⟩ := h
    exact foldlM_invariant (fun b a' ha => hstep b a' (List.mem_cons_of_mem _ ha))
      (hstep b a List.mem_cons_self c hb hc) h

theorem foldl_invariant {I : β → Prop} {step : β → α → β} :
    ∀ {as : List α} {b : β}, (∀ b, ∀ a ∈ as, I b → I (step b a)) → I b → I (as.foldl step b)
  | [], _, _, hb => hb
  | a :: as, b, hstep, hb => by
    rw [List.foldl_cons]
    exact foldl_invariant (fun b a' ha => hstep b a' (List.mem_cons_of_mem _ ha))
      (hstep b a List.mem_cons_self hb)

theorem exists_of_mem_mapM {f : α → Except ε β} :
    ∀ {as : List α} {bs : List β}, as.mapM f = .ok bs → ∀ b ∈ bs, ∃ a ∈ as, f a = .ok b
  | [], bs, h => by cases h; simp
  | a :: as, bs, h => by
    rw [List.mapM_cons, bind_eq_ok] at h
    obtain ⟨b, hb, h⟩ := h
    rw [bind_eq_ok] at h
    obtain ⟨rest, hrest, h⟩ := h
    cases h
    intro x hx
    rcases List.mem_cons.1 hx with rfl | hx
    · exact ⟨a, List.mem_cons_self, hb⟩
    · obtain ⟨a', ha', hx⟩ := exists_of_mem_mapM hrest x hx
      exact ⟨a', List.mem_cons_of_mem _ ha', hx⟩

theorem forM_eq_ok_iff {f : α → Except ε Unit} :
    ∀ {as : List α}, as.forM f = .ok () ↔ ∀ a ∈ as, f a = .ok ()
  | [] => by simp [List.forM, pure, Except.pure]
  | a :: as => by
    rw [List.forM, bind_eq_ok, List.forall_mem_cons]
    exact ⟨fun ⟨_, ha, h⟩ => ⟨ha, forM_eq_ok_iff.1 h⟩, fun ⟨ha, h⟩ => ⟨(), ha, forM_eq_ok_iff.2 h⟩⟩

/-- A failed sequence of checks fails as its first failed check does. -/
theorem forM_eq_error {f : α → Except ε Unit} {e : ε} : ∀ {as : List α}, as.forM f = .error e →
    ∃ before a after, as = before ++ a :: after ∧ (∀ x ∈ before, f x = .ok ()) ∧ f a = .error e
  | [], h => by cases h
  | a :: as, h => by
    rw [List.forM] at h
    cases hfa : f a with
    | error e' =>
      rw [hfa] at h
      cases h
      exact ⟨[], a, as, rfl, by simp, hfa⟩
    | ok u =>
      rw [hfa] at h
      obtain ⟨before, b, after, rfl, hbefore, hb⟩ := forM_eq_error h
      exact ⟨a :: before, b, after, rfl, List.forall_mem_cons.2 ⟨hfa, hbefore⟩, hb⟩

/-! ## Related results -/

/-- Either both results are values and these are related, or both are failures and these are. -/
inductive Alike {ε ε' α β : Type} (E : ε → ε' → Prop) (R : α → β → Prop) :
    Except ε α → Except ε' β → Prop
  | ok {a : α} {b : β} (h : R a b) : Alike E R (.ok a) (.ok b)
  | error {e : ε} {e' : ε'} (h : E e e') : Alike E R (.error e) (.error e')

namespace Alike

variable {ε ε' α β γ δ : Type} {E : ε → ε' → Prop} {R : α → β → Prop} {Q : γ → δ → Prop}
  {x : Except ε α} {y : Except ε' β}

theorem bind {f : α → Except ε γ} {g : β → Except ε' δ} (h : Alike E R x y)
    (hfg : ∀ a b, R a b → Alike E Q (f a) (g b)) : Alike E Q (x >>= f) (y >>= g) := by
  cases h with
  | ok h => exact hfg _ _ h
  | error h => exact .error h

theorem map {f : α → γ} {g : β → δ} (h : Alike E R x y) (hfg : ∀ a b, R a b → Q (f a) (g b)) :
    Alike E Q (x.map f) (y.map g) := by
  cases h with
  | ok h => exact .ok (hfg _ _ h)
  | error h => exact .error h

theorem refl {E : ε → ε → Prop} {R : α → α → Prop} (hE : ∀ e, E e e) (hR : ∀ a, R a a) :
    ∀ x : Except ε α, Alike E R x x
  | .ok a => .ok (hR a)
  | .error e => .error (hE e)

theorem imp {D : ε → ε' → Prop} {Q : α → β → Prop} (h : Alike E R x y) (hE : ∀ e e', E e e' → D e e')
    (hR : ∀ a b, R a b → Q a b) : Alike D Q x y := by
  cases h with
  | ok h => exact .ok (hR _ _ h)
  | error h => exact .error (hE _ _ h)

theorem mapError {ζ ζ' : Type} {D : ζ → ζ' → Prop} {f : ε → ζ} {g : ε' → ζ'} (h : Alike E R x y)
    (hfg : ∀ e e', E e e' → D (f e) (g e')) : Alike D R (x.mapError f) (y.mapError g) := by
  cases h with
  | ok h => exact .ok h
  | error h => exact .error (hfg _ _ h)

/-- Success with a property. -/
theorem exists_ok_iff {p : α → Prop} {q : β → Prop} (h : Alike E R x y)
    (hpq : ∀ a b, R a b → (q b ↔ p a)) : (∃ b, y = .ok b ∧ q b) ↔ ∃ a, x = .ok a ∧ p a := by
  cases h with
  | ok h => simpa using hpq _ _ h
  | error => simp

end Alike

/-! ## Steps in another order -/

theorem mapM_cons_eq_ok {f : α → Except ε β} {a : α} {as : List α} {bs : List β} :
    (a :: as).mapM f = .ok bs ↔ ∃ b rest, f a = .ok b ∧ as.mapM f = .ok rest ∧ bs = b :: rest := by
  simp only [List.mapM_cons, bind_eq_ok]
  constructor
  · rintro ⟨b, hb, rest, hrest, h⟩
    cases h
    exact ⟨b, rest, hb, hrest, rfl⟩
  · rintro ⟨b, rest, hb, hrest, rfl⟩
    exact ⟨b, hb, rest, hrest, rfl⟩

theorem exists_ok_of_mem_mapM {f : α → Except ε β} :
    ∀ {as : List α} {bs : List β}, as.mapM f = .ok bs → ∀ a ∈ as, ∃ b ∈ bs, f a = .ok b
  | [], _, _ => by simp
  | a :: as, bs, h => by
    obtain ⟨b, rest, hb, hrest, rfl⟩ := mapM_cons_eq_ok.1 h
    refine List.forall_mem_cons.2 ⟨⟨b, List.mem_cons_self, hb⟩, fun a' ha' => ?_⟩
    obtain ⟨b', hb', h⟩ := exists_ok_of_mem_mapM hrest a' ha'
    exact ⟨b', List.mem_cons_of_mem _ hb', h⟩

/-- The first failure is reported. -/
theorem mapM_eq_error {f : α → Except ε β} {a : α} {e : ε} (ha : f a = .error e) (after : List α) :
    ∀ before : List α, (∀ a' ∈ before, ∃ b, f a' = .ok b) →
      (before ++ a :: after).mapM f = .error e
  | [], _ => by rw [List.nil_append, List.mapM_cons, ha]; rfl
  | a' :: before, h => by
    obtain ⟨⟨b, hb⟩, hbefore⟩ := List.forall_mem_cons.1 h
    rw [List.cons_append, List.mapM_cons, hb, mapM_eq_error ha after before hbefore]
    rfl

theorem map_eq_map_of_mapM {γ : Type} {f : α → Except ε β} {g : β → γ} {k : α → γ}
    (hf : ∀ a b, f a = .ok b → g b = k a) :
    ∀ {as : List α} {bs : List β}, as.mapM f = .ok bs → bs.map g = as.map k
  | [], bs, h => by cases h; rfl
  | a :: as, bs, h => by
    obtain ⟨b, rest, hb, hrest, rfl⟩ := mapM_cons_eq_ok.1 h
    rw [List.map_cons, List.map_cons, hf a b hb, map_eq_map_of_mapM hf hrest]

theorem mapM_eq_self {f : α → Except ε α} : ∀ {as : List α}, (∀ a ∈ as, f a = .ok a) →
    as.mapM f = .ok as
  | [], _ => rfl
  | a :: as, h =>
    mapM_cons_eq_ok.2 ⟨a, as, h a List.mem_cons_self,
      mapM_eq_self fun b hb => h b (List.mem_cons_of_mem a hb), rfl⟩

theorem mapM_perm {f : α → Except ε β} {as as' : List α} (h : as.Perm as') :
    ∀ {bs : List β}, as.mapM f = .ok bs → ∃ bs', as'.mapM f = .ok bs' ∧ bs.Perm bs' := by
  induction h with
  | nil => exact fun {bs} hbs => ⟨bs, hbs, .refl bs⟩
  | cons a _ ih =>
    intro bs hbs
    obtain ⟨b, rest, hb, hrest, rfl⟩ := mapM_cons_eq_ok.1 hbs
    obtain ⟨rest', hrest', hperm⟩ := ih hrest
    exact ⟨b :: rest', mapM_cons_eq_ok.2 ⟨b, rest', hb, hrest', rfl⟩, hperm.cons b⟩
  | swap a a' as =>
    intro bs hbs
    obtain ⟨b', rest', hb', hrest', rfl⟩ := mapM_cons_eq_ok.1 hbs
    obtain ⟨b, rest, hb, hrest, rfl⟩ := mapM_cons_eq_ok.1 hrest'
    exact ⟨b :: b' :: rest, mapM_cons_eq_ok.2 ⟨b, _, hb,
      mapM_cons_eq_ok.2 ⟨b', rest, hb', hrest, rfl⟩, rfl⟩, .swap b b' rest⟩
  | trans _ _ ih ih' =>
    intro bs hbs
    obtain ⟨bs', hbs', hperm⟩ := ih hbs
    obtain ⟨bs'', hbs'', hperm'⟩ := ih' hbs'
    exact ⟨bs'', hbs'', hperm.trans hperm'⟩

/-- Steps that fail when they are not free, and that take the freedom of those they clash with, all
succeed iff they are free at first and no two of them clash. -/
theorem foldlM_eq_ok_iff {step : β → α → Except ε β} {free : β → α → Prop} {f : β → α → β}
    {apart : α → α → Prop} (hstep : ∀ s a t, step s a = .ok t ↔ free s a ∧ t = f s a)
    (hfree : ∀ s a b, free s a → (free (f s a) b ↔ free s b ∧ apart a b)) :
    ∀ {as : List α} {s t : β}, as.foldlM step s = .ok t ↔
      as.Pairwise apart ∧ (∀ a ∈ as, free s a) ∧ t = as.foldl f s
  | [], s, t => by simp [pure, Except.pure, eq_comm]
  | a :: as, s, t => by
    simp only [List.foldlM_cons, bind_eq_ok, hstep, foldlM_eq_ok_iff hstep hfree,
      List.pairwise_cons, List.forall_mem_cons, List.foldl_cons]
    constructor
    · rintro ⟨_, ⟨ha, rfl⟩, hpairwise, hall, rfl⟩
      have hboth := fun b hb => (hfree s a b ha).1 (hall b hb)
      exact ⟨⟨fun b hb => (hboth b hb).2, hpairwise⟩, ⟨ha, fun b hb => (hboth b hb).1⟩, rfl⟩
    · rintro ⟨⟨hapart, hpairwise⟩, ⟨ha, hall⟩, rfl⟩
      exact ⟨_, ⟨ha, rfl⟩, hpairwise,
        fun b hb => (hfree s a b ha).2 ⟨hall b hb, hapart b hb⟩, rfl⟩

/-- Steps that can be swapped when they do not clash come to the same in any order. -/
theorem foldl_perm {f : β → α → β} {R : β → β → Prop} {apart : α → α → Prop}
    (hrefl : ∀ s, R s s) (htrans : ∀ {s t u}, R s t → R t u → R s u)
    (hcongr : ∀ {s t} a, R s t → R (f s a) (f t a)) (hsymm : ∀ {a b}, apart a b → apart b a)
    (hswap : ∀ s {a b}, apart a b → R (f (f s a) b) (f (f s b) a)) {as as' : List α}
    (h : as.Perm as') :
    ∀ {s s' : β}, as.Pairwise apart → R s s' → R (as.foldl f s) (as'.foldl f s') := by
  have hsame : ∀ (as : List α) {s s' : β}, R s s' → R (as.foldl f s) (as.foldl f s') := by
    intro as
    induction as with
    | nil => exact fun hs => hs
    | cons a as ih => exact fun hs => ih (hcongr a hs)
  induction h with
  | nil => exact fun _ hs => hs
  | cons a _ ih => exact fun hpairwise hs => ih (List.pairwise_cons.1 hpairwise).2 (hcongr a hs)
  | swap a b as =>
    intro s s' hpairwise hs
    have hba : apart b a := (List.pairwise_cons.1 hpairwise).1 a (by simp)
    exact hsame as (htrans (hswap s hba) (hcongr b (hcongr a hs)))
  | trans hp _ ih ih' =>
    intro s s' hpairwise hs
    exact htrans (ih hpairwise (hrefl s)) (ih' ((hp.pairwise_iff hsymm).1 hpairwise) hs)

end UnionChecker
