import Mathlib.Data.List.Forall2
import UnionChecker.Basic
/-!
# Association lists, related lists and sorted lists

Maps are only seen through `List.lookup`. Here is what a look-up finds after each change of a map.
Lists related element by element have related elements at each place. Sorting neither adds nor drops
elements, and leaves them in order.
-/

namespace UnionChecker

/-! ## Look-ups -/

theorem lookup_map_snd {κ α β : Type} [BEq κ] (f : α → β) (x : κ) : ∀ l : List (κ × α),
    (l.map fun p => (p.1, f p.2)).lookup x = (l.lookup x).map f
  | [] => rfl
  | (a, b) :: l => by
    simp only [List.map_cons, List.lookup_cons]
    cases x == a
    · exact lookup_map_snd f x l
    · rfl

section

variable {κ α : Type} [BEq κ] [LawfulBEq κ]

theorem mem_of_lookup_eq_some {x : κ} {a : α} {l : List (κ × α)} (h : l.lookup x = some a) :
    (x, a) ∈ l := by
  obtain ⟨l₁, l₂, rfl, -⟩ := List.lookup_eq_some_iff.1 h
  simp

/-- With every key once, a look-up finds each entry. -/
theorem lookup_eq_some_of_mem {x : κ} {a : α} : ∀ {l : List (κ × α)}, (l.map (·.1)).Nodup →
    (x, a) ∈ l → l.lookup x = some a
  | (y, b) :: l, hnd, h => by
    rw [List.map_cons, List.nodup_cons] at hnd
    rcases List.mem_cons.1 h with heq | hmem
    · cases heq
      exact List.lookup_cons_self
    · have hne : x ≠ y := fun hxy => hnd.1 (hxy ▸ List.mem_map.2 ⟨_, hmem, rfl⟩)
      rw [List.lookup_cons, beq_false_of_ne hne]
      exact lookup_eq_some_of_mem hnd.2 hmem

theorem lookup_filter_fst (keep : κ → Bool) (x : κ) : ∀ l : List (κ × α),
    (l.filter fun entry => keep entry.1).lookup x = if keep x then l.lookup x else none
  | [] => by simp
  | (y, a) :: l => by
    have ih := lookup_filter_fst keep x l
    by_cases hxy : x = y
    · subst hxy
      cases hk : keep x with
      | true => simp [hk]
      | false => simpa [hk] using ih
    · have hne : (x == y) = false := by simpa using hxy
      cases hk : keep y <;> simp [hk, List.lookup_cons, hne, ih]

theorem lookup_put_self (key : κ) (a : α) (l : List (κ × α)) :
    (put key a l).lookup key = some a := by
  simp [put]

theorem lookup_put_of_ne {key x : κ} (hx : x ≠ key) (a : α) (l : List (κ × α)) :
    (put key a l).lookup x = l.lookup x := by
  have hne : (x == key) = false := by simpa using hx
  rw [put, List.lookup_cons, hne]
  simpa [hne] using lookup_filter_fst (fun y => !(y == key)) x l

theorem hasKey_put_eq_false {key x : κ} {a : α} {l : List (κ × α)} :
    hasKey x (put key a l) = false ↔ hasKey x l = false ∧ key ≠ x := by
  by_cases hx : x = key
  · simp [hasKey, hx, lookup_put_self]
  · simp [hasKey, lookup_put_of_ne hx, Ne.symm hx]

end

/-! ## Maps with the same look-ups -/

/-- Each look-up finds the same in both maps. -/
def SameEntries {κ α : Type} [BEq κ] (m m' : List (κ × α)) : Prop :=
  ∀ x, m'.lookup x = m.lookup x

namespace SameEntries

variable {κ α : Type} [BEq κ] {m m' m'' : List (κ × α)}

theorem refl (m : List (κ × α)) : SameEntries m m := fun _ => rfl

theorem trans (h : SameEntries m m') (h' : SameEntries m' m'') : SameEntries m m'' :=
  fun x => (h' x).trans (h x)

theorem hasKey (h : SameEntries m m') (x : κ) : hasKey x m' = hasKey x m := by
  rw [UnionChecker.hasKey, UnionChecker.hasKey, h x]

variable [LawfulBEq κ]

theorem put (h : SameEntries m m') (key : κ) (a : α) :
    SameEntries (put key a m) (put key a m') := by
  intro x
  by_cases hx : x = key
  · rw [hx, lookup_put_self, lookup_put_self]
  · rw [lookup_put_of_ne hx, lookup_put_of_ne hx, h x]

end SameEntries

/-- Two entries can be put in either order, unless they differ and have one key. -/
theorem sameEntries_put_put {κ α : Type} [BEq κ] [LawfulBEq κ] {key key' : κ} {a a' : α}
    (h : key = key' → a = a') (m : List (κ × α)) :
    SameEntries (put key' a' (put key a m)) (put key a (put key' a' m)) := by
  intro x
  by_cases hkeys : key = key'
  · rw [h hkeys, hkeys]
  · by_cases hx : x = key
    · rw [hx, lookup_put_self, lookup_put_of_ne hkeys, lookup_put_self]
    · rw [lookup_put_of_ne hx]
      by_cases hx' : x = key'
      · rw [hx', lookup_put_self, lookup_put_self]
      · rw [lookup_put_of_ne hx', lookup_put_of_ne hx', lookup_put_of_ne hx]

/-- With every key once, an element is the only one with its key. -/
theorem filter_key_eq_singleton {κ α : Type} [BEq κ] [LawfulBEq κ] {key : α → κ} {a : α} :
    ∀ {l : List α}, (l.map key).Nodup → a ∈ l → (l.filter fun b => key b == key a) = [a]
  | b :: l, hnd, h => by
    rw [List.map_cons, List.nodup_cons] at hnd
    rcases List.mem_cons.1 h with rfl | hmem
    · rw [List.filter_cons_of_pos (by simp), List.filter_eq_nil_iff.2]
      intro c hc hkey
      exact hnd.1 (List.mem_map.2 ⟨c, hc, by simpa using hkey⟩)
    · have hne : key b ≠ key a := fun hkey => hnd.1 (hkey ▸ List.mem_map_of_mem hmem)
      rw [List.filter_cons_of_neg (by simpa using hne)]
      exact filter_key_eq_singleton hnd.2 hmem

/-! ## Related lists -/

section

variable {α β : Type} {R : α → β → Prop}

theorem forall₂_getElem?_left {as : List α} {bs : List β} {i : Nat} {a : α}
    (h : List.Forall₂ R as bs) (ha : as[i]? = some a) : ∃ b, bs[i]? = some b ∧ R a b := by
  induction h generalizing i with
  | nil => cases ha
  | cons hr _ ih =>
    cases i with
    | zero => cases ha; exact ⟨_, rfl, hr⟩
    | succ i => exact ih ha

theorem forall₂_getElem?_right {as : List α} {bs : List β} {i : Nat} {b : β}
    (h : List.Forall₂ R as bs) (hb : bs[i]? = some b) : ∃ a, as[i]? = some a ∧ R a b :=
  forall₂_getElem?_left (List.Forall₂.flip h) hb

theorem forall₂_zip_left {κ : Type} {as : List α} {bs : List β} (h : List.Forall₂ R as bs) :
    ∀ keys : List κ, List.Forall₂ (fun x y => x.1 = y.1 ∧ R x.2 y.2) (keys.zip as) (keys.zip bs) := by
  induction h with
  | nil => intro keys; simp
  | cons hr _ ih =>
    intro keys
    cases keys with
    | nil => exact .nil
    | cons key keys => exact .cons ⟨rfl, hr⟩ (ih keys)

theorem lookup_related {κ : Type} [BEq κ] {x : κ} {l : List (κ × α)} {l' : List (κ × β)}
    (h : List.Forall₂ (fun a b => a.1 = b.1 ∧ R a.2 b.2) l l') :
    (l.lookup x = none ∧ l'.lookup x = none) ∨
      ∃ a b, l.lookup x = some a ∧ l'.lookup x = some b ∧ R a b := by
  induction h with
  | nil => exact .inl ⟨rfl, rfl⟩
  | @cons a b _ _ hab _ ih =>
    obtain ⟨key, a⟩ := a
    obtain ⟨key', b⟩ := b
    obtain ⟨rfl, hr⟩ : key = key' ∧ R a b := hab
    simp only [List.lookup_cons]
    cases x == key with
    | true => exact .inr ⟨a, b, rfl, rfl, hr⟩
    | false => exact ih

/-- Look-ups by related keys find related values. -/
theorem rel_lookup {κ κ' : Type} [BEq κ] [BEq κ'] {N : κ → κ' → Prop} {x : κ} {x' : κ'}
    (hx : ∀ {y y'}, N y y' → (x' == y') = (x == y)) {l : List (κ × α)} {l' : List (κ' × β)}
    (h : List.Forall₂ (fun e e' => N e.1 e'.1 ∧ R e.2 e'.2) l l') :
    Option.Rel R (l.lookup x) (l'.lookup x') := by
  induction h with
  | nil => exact .none
  | @cons e e' _ _ he _ ih =>
    obtain ⟨y, a⟩ := e
    obtain ⟨y', b⟩ := e'
    rw [List.lookup_cons, List.lookup_cons, hx he.1]
    cases x == y with
    | true => exact .some he.2
    | false => exact ih

theorem forall₂_mem_left {as : List α} {bs : List β} {a : α} (h : List.Forall₂ R as bs)
    (ha : a ∈ as) : ∃ b ∈ bs, R a b := by
  obtain ⟨i, hi⟩ := List.mem_iff_getElem?.1 ha
  obtain ⟨b, hb, hr⟩ := forall₂_getElem?_left h hi
  exact ⟨b, List.mem_of_getElem? hb, hr⟩

theorem exists_forall₂ : ∀ {as : List α}, (∀ a ∈ as, ∃ b, R a b) → ∃ bs, List.Forall₂ R as bs
  | [], _ => ⟨[], .nil⟩
  | a :: as, h => by
    obtain ⟨b, hb⟩ := h a (by simp)
    obtain ⟨bs, hbs⟩ := exists_forall₂ fun a' ha => h a' (List.mem_cons_of_mem a ha)
    exact ⟨b :: bs, .cons hb hbs⟩

theorem forall₂_imp_of_mem {S : α → β → Prop} : ∀ {as : List α} {bs : List β},
    List.Forall₂ R as bs → (∀ a ∈ as, ∀ b ∈ bs, R a b → S a b) → List.Forall₂ S as bs
  | _, _, .nil, _ => .nil
  | _, _, .cons hab h, hRS =>
    .cons (hRS _ (by simp) _ (by simp) hab)
      (forall₂_imp_of_mem h fun a ha b hb => hRS a (by simp [ha]) b (by simp [hb]))

theorem forall₂_comp {γ : Type} {S : β → γ → Prop} {T : α → γ → Prop} :
    ∀ {as : List α} {bs : List β} {cs : List γ}, List.Forall₂ R as bs → List.Forall₂ S bs cs →
      (∀ a ∈ as, ∀ b ∈ bs, ∀ c ∈ cs, R a b → S b c → T a c) → List.Forall₂ T as cs
  | _, _, _, .nil, .nil, _ => .nil
  | _, _, _, .cons hab h, .cons hbc h', hT =>
    .cons (hT _ (by simp) _ (by simp) _ (by simp) hab hbc)
      (forall₂_comp h h' fun a ha b hb c hc =>
        hT a (by simp [ha]) b (by simp [hb]) c (by simp [hc]))

theorem map_eq_map_of_forall₂ {γ : Type} {f : α → γ} {g : β → γ} :
    ∀ {as : List α} {bs : List β}, List.Forall₂ R as bs →
      (∀ a ∈ as, ∀ b ∈ bs, R a b → f a = g b) → as.map f = bs.map g
  | _, _, .nil, _ => rfl
  | _, _, .cons hab h, hf => by
    rw [List.map_cons, List.map_cons, hf _ (by simp) _ (by simp) hab,
      map_eq_map_of_forall₂ h fun a ha b hb => hf a (by simp [ha]) b (by simp [hb])]

theorem forall₂_of_map_eq_map {γ : Type} {f : α → γ} {g : β → γ} :
    ∀ {as : List α} {bs : List β}, as.map f = bs.map g →
      (∀ a ∈ as, ∀ b ∈ bs, f a = g b → R a b) → List.Forall₂ R as bs
  | [], [], _, _ => .nil
  | [], _ :: _, h, _ => by simp at h
  | _ :: _, [], h, _ => by simp at h
  | a :: as, b :: bs, h, hR => by
    simp only [List.map_cons, List.cons.injEq] at h
    exact .cons (hR a (by simp) b (by simp) h.1)
      (forall₂_of_map_eq_map h.2 fun x hx y hy => hR x (by simp [hx]) y (by simp [hy]))

theorem forall₂_mem_right {as : List α} {bs : List β} {b : β} (h : List.Forall₂ R as bs)
    (hb : b ∈ bs) : ∃ a ∈ as, R a b :=
  forall₂_mem_left (List.Forall₂.flip h) hb

theorem forall₂_refl {R : α → α → Prop} (hR : ∀ a, R a a) (as : List α) :
    List.Forall₂ R as as :=
  List.forall₂_same.2 fun a _ => hR a

theorem rel_refl {R : α → α → Prop} (hR : ∀ a, R a a) : ∀ a : Option α, Option.Rel R a a
  | none => .none
  | some a => .some (hR a)

theorem eq_of_forall₂ {R : α → α → Prop} (hR : ∀ {a b}, R a b → a = b) {as bs : List α}
    (h : List.Forall₂ R as bs) : as = bs := by
  have h : List.Forall₂ Eq as bs := h.imp fun _ _ => hR
  rwa [List.forall₂_eq_eq_eq] at h

theorem eq_of_rel {R : α → α → Prop} (hR : ∀ {a b}, R a b → a = b) {a b : Option α}
    (h : Option.Rel R a b) : a = b := by
  cases h with
  | none => rfl
  | some h => rw [hR h]

theorem isEmpty_eq_of_forall₂ {as : List α} {bs : List β}
    (h : List.Forall₂ R as bs) : bs.isEmpty = as.isEmpty := by
  cases h <;> rfl

theorem forall₂_map {γ δ : Type} {Q : γ → δ → Prop} {f : α → γ} {g : β → δ} {as : List α}
    {bs : List β} (h : List.Forall₂ R as bs) (hfg : ∀ a ∈ as, ∀ b, R a b → Q (f a) (g b)) :
    List.Forall₂ Q (as.map f) (bs.map g) :=
  List.forall₂_map_left_iff.2 (List.forall₂_map_right_iff.2
    (forall₂_imp_of_mem h fun a ha b _ => hfg a ha b))

theorem forall_mem_iff_of_forall₂ {p : α → Prop} {q : β → Prop} {as : List α} {bs : List β}
    (h : List.Forall₂ R as bs) (hpq : ∀ a b, R a b → (q b ↔ p a)) :
    (∀ b ∈ bs, q b) ↔ ∀ a ∈ as, p a := by
  induction h with
  | nil => simp
  | cons hab _ ih => rw [List.forall_mem_cons, List.forall_mem_cons, hpq _ _ hab, ih]

theorem any_eq_of_forall₂ {p : α → Bool} {q : β → Bool} : ∀ {as : List α} {bs : List β},
    List.Forall₂ R as bs → (∀ a ∈ as, ∀ b, R a b → q b = p a) → bs.any q = as.any p
  | _, _, .nil, _ => rfl
  | _, _, .cons hab h, hpq => by
    rw [List.any_cons, List.any_cons, hpq _ (by simp) _ hab,
      any_eq_of_forall₂ h fun a ha => hpq a (by simp [ha])]

theorem all_eq_of_forall₂ {p : α → Bool} {q : β → Bool} : ∀ {as : List α} {bs : List β},
    List.Forall₂ R as bs → (∀ a ∈ as, ∀ b, R a b → q b = p a) → bs.all q = as.all p
  | _, _, .nil, _ => rfl
  | _, _, .cons hab h, hpq => by
    rw [List.all_cons, List.all_cons, hpq _ (by simp) _ hab,
      all_eq_of_forall₂ h fun a ha => hpq a (by simp [ha])]

theorem forall₂_filter {p : α → Bool} {q : β → Bool} {as : List α} {bs : List β}
    (h : List.Forall₂ R as bs) (hpq : ∀ a b, R a b → q b = p a) :
    List.Forall₂ R (as.filter p) (bs.filter q) :=
  List.rel_filter (fun a b hab => by simp only [hpq a b hab]) h

theorem forall₂_insertOrdered {le : α → α → Bool} {le' : β → β → Bool}
    (hle : ∀ a a' b b', R a b → R a' b' → le' b b' = le a a') {a : α} {b : β} (hab : R a b)
    {as : List α} {bs : List β} (h : List.Forall₂ R as bs) :
    List.Forall₂ R (insertOrdered le a as) (insertOrdered le' b bs) := by
  induction h with
  | nil => exact .cons hab .nil
  | cons hab' h ih =>
    rw [insertOrdered, insertOrdered, hle _ _ _ _ hab hab']
    split
    · exact .cons hab (.cons hab' h)
    · exact .cons hab' ih

theorem forall₂_sortOrdered {le : α → α → Bool} {le' : β → β → Bool}
    (hle : ∀ a a' b b', R a b → R a' b' → le' b b' = le a a') :
    ∀ {as : List α} {bs : List β}, List.Forall₂ R as bs →
      List.Forall₂ R (sortOrdered le as) (sortOrdered le' bs)
  | _, _, .nil => .nil
  | _, _, .cons hab h => forall₂_insertOrdered hle hab (forall₂_sortOrdered hle h)

theorem forall₂_zip {γ δ : Type} {Q : γ → δ → Prop} : ∀ {as : List α} {bs : List β} {cs : List γ}
    {ds : List δ}, List.Forall₂ R as bs → List.Forall₂ Q cs ds →
    List.Forall₂ (fun e e' => R e.1 e'.1 ∧ Q e.2 e'.2) (as.zip cs) (bs.zip ds)
  | _, _, _, _, .nil, _ => by simp
  | _, _, _, _, .cons _ _, .nil => .nil
  | _, _, _, _, .cons hab h, .cons hcd h' => .cons ⟨hab, hcd⟩ (forall₂_zip h h')

theorem rel_getD {a : Option α} {b : Option β} {c : α} {d : β} (h : Option.Rel R a b)
    (hcd : R c d) : R (a.getD c) (b.getD d) := by
  cases h with
  | none => exact hcd
  | some hab => exact hab

theorem forall₂_iff_map {P : α → Prop} {f : α → β} : ∀ {as : List α} {bs : List β},
    List.Forall₂ (fun a b => P a ∧ b = f a) as bs ↔ (∀ a ∈ as, P a) ∧ bs = as.map f
  | [], bs => by simp
  | a :: as, bs => by
    rw [List.forall₂_cons_left_iff, List.forall_mem_cons, List.map_cons]
    constructor
    · rintro ⟨b, bs, ⟨ha, rfl⟩, h, rfl⟩
      obtain ⟨has, rfl⟩ := forall₂_iff_map.1 h
      exact ⟨⟨ha, has⟩, rfl⟩
    · rintro ⟨⟨ha, has⟩, rfl⟩
      exact ⟨_, _, ⟨ha, rfl⟩, forall₂_iff_map.2 ⟨has, rfl⟩, rfl⟩

theorem find?_related {p : α → Bool} {q : β → Bool} {as : List α} {bs : List β}
    (h : List.Forall₂ R as bs) (hpq : ∀ a b, R a b → q b = p a) :
    Option.Rel R (as.find? p) (bs.find? q) := by
  induction h with
  | nil => exact .none
  | @cons a b _ _ hab _ ih =>
    rw [List.find?_cons, List.find?_cons, hpq a b hab]
    cases p a with
    | true => exact .some hab
    | false => exact ih

end

/-! ## Sorting -/

theorem mem_insertOrdered {α : Type} {le : α → α → Bool} {a x : α} :
    ∀ {l : List α}, x ∈ insertOrdered le a l ↔ x = a ∨ x ∈ l
  | [] => by simp [insertOrdered]
  | b :: bs => by
    simp only [insertOrdered]
    split
    · simp
    · simp only [List.mem_cons, mem_insertOrdered]; exact or_left_comm

theorem mem_sortOrdered {α : Type} {le : α → α → Bool} {x : α} :
    ∀ {l : List α}, x ∈ sortOrdered le l ↔ x ∈ l
  | [] => by simp [sortOrdered]
  | a :: as => by simp [sortOrdered, mem_insertOrdered, mem_sortOrdered]

theorem insertOrdered_perm {α : Type} {le : α → α → Bool} (a : α) :
    ∀ l : List α, (insertOrdered le a l).Perm (a :: l)
  | [] => .refl _
  | b :: bs => by
    simp only [insertOrdered]
    split
    · exact .refl _
    · exact ((insertOrdered_perm a bs).cons b).trans (.swap a b bs)

theorem sortOrdered_perm {α : Type} {le : α → α → Bool} :
    ∀ l : List α, (sortOrdered le l).Perm l
  | [] => .refl _
  | a :: as => (insertOrdered_perm a _).trans ((sortOrdered_perm as).cons a)

section

variable {α : Type} {le : α → α → Bool}

theorem pairwise_insertOrdered (htotal : ∀ a b, le a b = true ∨ le b a = true)
    (htrans : ∀ a b c, le a b = true → le b c = true → le a c = true) (a : α) :
    ∀ {l : List α}, l.Pairwise (le · · = true) → (insertOrdered le a l).Pairwise (le · · = true)
  | [], _ => by simp [insertOrdered]
  | b :: bs, h => by
    obtain ⟨hb, hbs⟩ := List.pairwise_cons.1 h
    simp only [insertOrdered]
    split
    · rename_i hab
      refine List.pairwise_cons.2 ⟨fun x hx => ?_, h⟩
      rcases List.mem_cons.1 hx with rfl | hx
      · exact hab
      · exact htrans a b x hab (hb x hx)
    · rename_i hab
      have hba : le b a = true := (htotal a b).resolve_left hab
      refine List.pairwise_cons.2 ⟨fun x hx => ?_, pairwise_insertOrdered htotal htrans a hbs⟩
      rcases mem_insertOrdered.1 hx with rfl | hx
      · exact hba
      · exact hb x hx

theorem pairwise_sortOrdered (htotal : ∀ a b, le a b = true ∨ le b a = true)
    (htrans : ∀ a b c, le a b = true → le b c = true → le a c = true) :
    ∀ l : List α, (sortOrdered le l).Pairwise (le · · = true)
  | [] => .nil
  | a :: as => pairwise_insertOrdered htotal htrans a (pairwise_sortOrdered htotal htrans as)

/-- What is in order stays as it is. -/
theorem sortOrdered_eq_self : ∀ {l : List α}, l.Pairwise (le · · = true) → sortOrdered le l = l
  | [], _ => rfl
  | [_], _ => rfl
  | a :: b :: bs, h => by
    obtain ⟨ha, hbs⟩ := List.pairwise_cons.1 h
    rw [sortOrdered, sortOrdered_eq_self hbs, insertOrdered, if_pos (ha b List.mem_cons_self)]

end

theorem textLe_iff {a b : String} : textLe a b = true ↔ a ≤ b := by
  rw [textLe, Bool.not_eq_true', decide_eq_false_iff_not, String.not_lt]

theorem textLe_total (a b : String) : textLe a b = true ∨ textLe b a = true := by
  simpa only [textLe_iff] using String.le_total a b

theorem textLe_trans (a b c : String) (hab : textLe a b = true) (hbc : textLe b c = true) :
    textLe a c = true :=
  textLe_iff.2 (String.le_trans (textLe_iff.1 hab) (textLe_iff.1 hbc))

end UnionChecker
