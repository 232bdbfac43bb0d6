import UnionChecker.Proofs.Ty.Nameless
/-!
# Equality and renaming of bound generics

Two types are *alpha-equivalent* when they differ only in what function types call their generics, in
the names of parameters, and in the order and repetition of members of unions.

`equal` never tells alpha-equivalent types apart, but it knows a bound generic by its position
alone: a function type inside another one is opened with the same positional names again, so that
the first generic of the inner one and the first of the outer one become the same name. It decides
alpha-equivalence of a type as long as positions say which function type is meant.
-/

namespace UnionChecker.Ty

/-! ## Definitions -/

/-- The function type that binds a name and the position there, given the generics of the function
types around, the innermost first. -/
def locate : (scopes : List (List String)) → String → Option (Nat × Nat)
  | [], _ => none
  | gs :: scopes, x =>
    match position gs x with
    | some i => some (0, i)
    | none => (locate scopes x).map fun found => (found.1 + 1, found.2)

mutual

/-- A type without names for bound generics. -/
def nameless (scopes : List (List String)) : Ty → Nameless
  | .var x =>
    match locate scopes x with
    | some (binder, index) => .bound binder index
    | none => .free x
  | .named decl args => .named decl.ref (namelessAll scopes args)
  | .fn generics params result =>
    .fn generics.length (namelessParams (generics :: scopes) params)
      (nameless (generics :: scopes) result)
  | .union ms => .union (namelessAll scopes ms)

def namelessAll (scopes : List (List String)) : List Ty → List Nameless
  | [] => []
  | t :: ts => nameless scopes t :: namelessAll scopes ts

def namelessParams (scopes : List (List String)) : List (String × Ty) → List Nameless
  | [] => []
  | (_, t) :: ps => nameless scopes t :: namelessParams scopes ps

end

/-- Alpha-equivalence, with unions as sets. -/
def AlphaEq (a b : Ty) : Prop := (a.nameless []).Same (b.nameless [])

/-- Positions of bound generics say which function type is meant. -/
def Unambiguous (t : Ty) : Prop := (t.nameless []).Unambiguous []

/-! ## Types with and without names -/

theorem namelessAll_eq_map (scopes : List (List String)) :
    ∀ ts : List Ty, namelessAll scopes ts = ts.map (nameless scopes)
  | [] => rfl
  | t :: ts => by simp [namelessAll, namelessAll_eq_map scopes ts]

theorem namelessParams_eq_map (scopes : List (List String)) :
    ∀ ps : List (String × Ty), namelessParams scopes ps = ps.map fun p => nameless scopes p.2
  | [] => rfl
  | (_, t) :: ps => by simp [namelessParams, namelessParams_eq_map scopes ps]

theorem locate_eq_some {x : String} {k i : Nat} : ∀ {scopes : List (List String)},
    locate scopes x = some (k, i) → ∃ n, (scopes.map List.length)[k]? = some n ∧ i < n
  | gs :: scopes, h => by
    rw [locate] at h
    split at h
    · rename_i j hj
      obtain ⟨rfl, rfl⟩ : 0 = k ∧ j = i := by simpa using h
      exact ⟨gs.length, by simp, (List.getElem?_eq_some_iff.1 (position_eq_some hj)).1⟩
    · obtain ⟨⟨k', i'⟩, hl, he⟩ := Option.map_eq_some_iff.1 h
      obtain ⟨rfl, rfl⟩ : k' + 1 = k ∧ i' = i := by simpa using he
      simpa using locate_eq_some hl

theorem scoped_nameless (t : Ty) : ∀ scopes : List (List String),
    (t.nameless scopes).Scoped (scopes.map List.length) := by
  induction t with
  | var x =>
    intro scopes
    rw [nameless]
    split
    · rename_i h
      obtain ⟨n, hn, hi⟩ := locate_eq_some h
      exact .bound hn hi
    · exact .free x
  | named decl args ih =>
    intro scopes
    rw [nameless, namelessAll_eq_map]
    exact .named (by simpa using fun t ht => ih t ht scopes)
  | fn generics params result ihp ihr =>
    intro scopes
    rw [nameless, namelessParams_eq_map]
    refine .fn (fun f hf => ?_) (ihr (generics :: scopes))
    obtain ⟨p, hp, rfl⟩ := List.mem_map.1 hf
    exact ihp p hp (generics :: scopes)
  | union ms ih =>
    intro scopes
    rw [nameless, namelessAll_eq_map]
    exact .union (by simpa using fun t ht => ih t ht scopes)

/-- What a name means among function types with the given generics, where a bound generic is known
by its position. -/
noncomputable def Valuation.under (v : Valuation) (scopes : List (List String)) : Valuation :=
  scopes.foldr (fun generics v => v.bind generics) v

theorem under_eq (v : Valuation) (x : String) : ∀ scopes : List (List String),
    v.under scopes x = match locate scopes x with
      | some (_, i) => {number (.bound i)}
      | none => v x
  | [] => rfl
  | gs :: scopes => by
    have ih := under_eq v x scopes
    simp only [Valuation.under, List.foldr_cons, Valuation.bind, locate] at ih ⊢
    cases position gs x with
    | some i => rfl
    | none => rw [ih]; cases locate scopes x <;> rfl

/-- The meaning of a type, where free names mean themselves, is that of its form without names, with
bound generics told apart by position. -/
theorem denote_nameless {v : Valuation} (t : Ty) : ∀ scopes : List (List String),
    (∀ x, t.mentionsAny [x] = true → locate scopes x = none → v x = {number (.free x)}) →
    (t.nameless scopes).denote (fun _ i => i) = meaning (v.under scopes) t := by
  induction t with
  | var x =>
    intro scopes hv
    rw [nameless, meaning, under_eq]
    cases hl : locate scopes x with
    | some p => rfl
    | none => exact (hv x (by simp [mentionsAny]) hl).symm
  | named decl args ih =>
    intro scopes hv
    have hargs := fun t ht => ih t ht scopes fun x hx => hv x (mentionsAny_named.2 ⟨t, ht, hx⟩)
    simp only [nameless, namelessAll_eq_map, Nameless.denote, Nameless.denoteAll_eq_map, meaning,
      meaningAll_eq_map, List.map_map, Function.comp_def, List.map_congr_left hargs]
  | fn generics params result ihp ihr =>
    intro scopes hv
    have hin : ∀ u : Ty, (∀ x, u.mentionsAny [x] = true → x ∉ generics →
        (fn generics params result).mentionsAny [x] = true) → ∀ x, u.mentionsAny [x] = true →
        locate (generics :: scopes) x = none → v x = {number (.free x)} := by
      intro u hu x hx hl
      rw [locate] at hl
      split at hl
      · cases hl
      · rename_i hp
        exact hv x (hu x hx (position_eq_none_iff.1 hp)) (Option.map_eq_none_iff.1 hl)
    have hps := fun p hp => ihp p hp (generics :: scopes)
      (hin p.2 fun x hx hg => mentionsAny_fn.2 ⟨hg, Or.inl ⟨p, hp, hx⟩⟩)
    have hr := ihr (generics :: scopes) (hin result fun x hx hg => mentionsAny_fn.2 ⟨hg, Or.inr hx⟩)
    simp only [nameless, namelessParams_eq_map, Nameless.denote, Nameless.denoteAll_eq_map, meaning,
      meaningParams_eq_map, List.map_map, Function.comp_def, List.map_congr_left hps, hr]
    rfl
  | union ms ih =>
    intro scopes hv
    have hms := fun t ht => ih t ht scopes fun x hx => hv x (mentionsAny_union.2 ⟨t, ht, hx⟩)
    simp only [nameless, namelessAll_eq_map, Nameless.denote, Nameless.denoteAll_eq_map, meaning,
      meaningAll_eq_map, List.map_map, Function.comp_def, List.map_congr_left hms]

theorem NoDollar.denote_nameless {t : Ty} (h : NoDollar t) :
    (t.nameless []).denote (fun _ i => i) = meaning atoms t :=
  Ty.denote_nameless (v := atoms) t [] fun _ hx _ => atoms_of_not_positional (h.ne_positional hx)

/-! ## What equality decides -/

/-- Equality compares types by the positions of their bound generics. -/
theorem equal_iff_same_forget {a b : Ty} (fa : Flat a) (fb : Flat b) (na : NoDollar a)
    (nb : NoDollar b) :
    equal a b = true ↔ (a.nameless []).forget.Same (b.nameless []).forget := by
  rw [Nameless.same_forget_iff, na.denote_nameless, nb.denote_nameless,
    equal_iff_meaning_eq fa fb na.clean nb.clean]

theorem Unambiguous.denote_nameless_eq {a b : Ty} (ua : Unambiguous a)
    (h : (a.nameless []).denote (fun _ i => i) = (b.nameless []).denote fun _ i => i) :
    (a.nameless []).denote Nat.pair = (b.nameless []).denote Nat.pair :=
  Nameless.Unambiguous.denote_eq ua (scoped_nameless b []) h

/-- **What equality decides.** It compares types by the positions of their bound generics alone. So
it finds alpha-equivalent types equal, and it finds no others equal to a type in which positions say
which function type is meant. -/
theorem equal_decides_alphaEq_up_to_binders {a b : Ty} (fa : Flat a) (fb : Flat b)
    (na : NoDollar a) (nb : NoDollar b) :
    (equal a b = true ↔ (a.nameless []).forget.Same (b.nameless []).forget) ∧
      (AlphaEq a b → equal a b = true) ∧
      (Unambiguous a ∨ Unambiguous b → (equal a b = true ↔ AlphaEq a b)) := by
  have hpos := equal_iff_same_forget fa fb na nb
  have halpha : AlphaEq a b → equal a b = true := fun h => by
    rw [hpos, Nameless.same_forget_iff]
    exact h.denote_eq _
  refine ⟨hpos, halpha, fun hu => ⟨fun h => ?_, halpha⟩⟩
  rw [hpos, Nameless.same_forget_iff] at h
  rw [AlphaEq, Nameless.same_iff_denote_eq]
  rcases hu with hu | hu
  · exact hu.denote_nameless_eq h
  · exact (hu.denote_nameless_eq h.symm).symm

/-- Here the inner generic of one type has the name of an outer one, and the outer generic that the
inner function type uses is beyond the generics of its own. -/
theorem equal_decides_alphaEq_at_shadowing :
    AlphaEq
      (.fn ["A", "B"] [("f", .fn ["C"] [("x", .var "B")] (.union [int, .var "B"]))] (.var "A"))
      (.fn ["X", "Y"] [("g", .fn ["X"] [("y", .var "Y")] (.union [.var "Y", int]))] (.var "X")) := by
  refine ((equal_decides_alphaEq_up_to_binders ?_ ?_ ?_ ?_).2.2 (Or.inl ?_)).1 (by decide)
  · simp [int, builtin, isUnion]
  · simp [int, builtin, isUnion]
  · intro x hx
    simp [mentionsAny_fn, mentionsAny_union, mentionsAny_var, mentionsAny_named, int, builtin] at hx
    grind
  · intro x hx
    simp [mentionsAny_fn, mentionsAny_union, mentionsAny_var, mentionsAny_named, int, builtin] at hx
    grind
  · have hB : Nameless.Unambiguous [1, 2] (.bound 1 1) := .bound fun j n hj hn => by
      rcases j with _ | _ | j <;> simp at hj <;> omega
    have hA : Nameless.Unambiguous [2] (.bound 0 0) := .bound fun j n hj hn => by
      rcases j with _ | j <;> simp at hj
      rfl
    have hint : Nameless.Unambiguous [1, 2] (.named ⟨"", "Int"⟩ []) := .named (by simp)
    have hinner : Nameless.Unambiguous [2]
        (.fn 1 [.bound 1 1] (.union [.named ⟨"", "Int"⟩ [], .bound 1 1])) :=
      .fn (by simpa using hB) (.union (by simpa using ⟨hint, hB⟩))
    exact .fn (List.forall_mem_singleton.2 hinner) hA

/-- Types of which one gives an inner function the outer generic first, and the other one last. -/
theorem equal_of_swapped_binders :
    equal
        (.fn ["A"] [("f", .fn ["B"] [("x", .var "A"), ("y", .var "B")] void)] void)
        (.fn ["A"] [("f", .fn ["B"] [("x", .var "B"), ("y", .var "A")] void)] void) = true ∧
      ¬ AlphaEq
        (.fn ["A"] [("f", .fn ["B"] [("x", .var "A"), ("y", .var "B")] void)] void)
        (.fn ["A"] [("f", .fn ["B"] [("x", .var "B"), ("y", .var "A")] void)] void) := by
  refine ⟨by decide, fun h => ?_⟩
  have hd := h.denote_eq Nat.pair
  simp [nameless, namelessParams, locate, position, Nameless.denote, Nameless.denoteAll, number_inj,
    void, builtin, namelessAll, List.lookup_cons] at hd

end UnionChecker.Ty
