import UnionChecker.Proofs.Ty.Assignability
import UnionChecker.Proofs.Ty.Equivalence
import UnionChecker.Proofs.Ty.Inference
/-!
# Types in scope

`Scoped known gs t` says that the free names of `t` are among `gs`, and that its declared types are
known ones at as many generics as they declare. Building unions and substituting keep types in scope,
even where a substitution captures names.

Inference does not: it looks into a function type of the argument without regard to the generics that
the type binds, and can bring one of them out. `plain` and `occursOutside` say of parameters where
that cannot do harm: either the inference never goes into such a function type, or the argument
clashes with the parameter at that place, whatever is put in for the generics (`Clash`), and the call
is rejected (`Found.scoped_or_clash`).
-/

namespace UnionChecker.Ty

variable {known : Nominal → Prop} {gs hs : List String} {t : Ty}

/-- The free names are among the given ones, and declared types are known and complete. -/
inductive Scoped (known : Nominal → Prop) : List String → Ty → Prop
  | var {gs : List String} {x : String} (h : x ∈ gs) : Scoped known gs (.var x)
  | named {gs : List String} {decl : Nominal} {args : List Ty} (hdecl : known decl)
      (hlen : args.length = decl.formals.length) (h : ∀ t ∈ args, Scoped known gs t) :
      Scoped known gs (.named decl args)
  | fn {gs bound : List String} {ps : List (String × Ty)} {r : Ty}
      (hp : ∀ p ∈ ps, Scoped known (bound ++ gs) p.2) (hr : Scoped known (bound ++ gs) r) :
      Scoped known gs (.fn bound ps r)
  | union {gs : List String} {ms : List Ty} (h : ∀ m ∈ ms, Scoped known gs m) :
      Scoped known gs (.union ms)

@[simp] theorem scoped_var {x : String} : Scoped known gs (.var x) ↔ x ∈ gs :=
  ⟨fun h => by cases h with | var h => exact h, .var⟩

@[simp] theorem scoped_named {decl : Nominal} {args : List Ty} :
    Scoped known gs (.named decl args) ↔
      known decl ∧ args.length = decl.formals.length ∧ ∀ t ∈ args, Scoped known gs t :=
  ⟨fun h => by cases h with | named hd hl h => exact ⟨hd, hl, h⟩, fun h => .named h.1 h.2.1 h.2.2⟩

@[simp] theorem scoped_fn {bound : List String} {ps : List (String × Ty)} {r : Ty} :
    Scoped known gs (.fn bound ps r) ↔
      (∀ p ∈ ps, Scoped known (bound ++ gs) p.2) ∧ Scoped known (bound ++ gs) r :=
  ⟨fun h => by cases h with | fn hp hr => exact ⟨hp, hr⟩, fun h => .fn h.1 h.2⟩

@[simp] theorem scoped_union {ms : List Ty} :
    Scoped known gs (.union ms) ↔ ∀ m ∈ ms, Scoped known gs m :=
  ⟨fun h => by cases h with | union h => exact h, .union⟩

/-! ## Free names -/

theorem Scoped.mem_of_mentions {x : String} (t : Ty) : ∀ {gs : List String}, Scoped known gs t →
    t.mentionsAny [x] = true → x ∈ gs := by
  induction t with
  | var y =>
    intro gs h hx
    obtain rfl := mentionsAny_var.1 hx
    exact scoped_var.1 h
  | named decl args ih =>
    intro gs h hx
    obtain ⟨t, ht, hx⟩ := mentionsAny_named.1 hx
    exact ih t ht ((scoped_named.1 h).2.2 t ht) hx
  | fn bound ps r ihp ihr =>
    intro gs h hx
    obtain ⟨hp, hr⟩ := scoped_fn.1 h
    obtain ⟨hbound, hx⟩ := mentionsAny_fn.1 hx
    have hmem : x ∈ bound ++ gs := by
      rcases hx with ⟨p, hmem, hx⟩ | hx
      · exact ihp p hmem (hp p hmem) hx
      · exact ihr hr hx
    exact (List.mem_append.1 hmem).resolve_left hbound
  | union ms ih =>
    intro gs h hx
    obtain ⟨t, ht, hx⟩ := mentionsAny_union.1 hx
    exact ih t ht (scoped_union.1 h t ht) hx

/-- Only the free names matter. -/
theorem Scoped.of_free (t : Ty) : ∀ {gs hs : List String}, Scoped known hs t →
    (∀ x, t.mentionsAny [x] = true → x ∈ gs) → Scoped known gs t := by
  induction t with
  | var y => exact fun _ hx => scoped_var.2 (hx y (mentionsAny_var.2 rfl))
  | named decl args ih =>
    intro gs hs h hx
    obtain ⟨hd, hl, hargs⟩ := scoped_named.1 h
    exact .named hd hl fun t ht => ih t ht (hargs t ht) fun x hm =>
      hx x (mentionsAny_named.2 ⟨t, ht, hm⟩)
  | fn bound ps r ihp ihr =>
    intro gs hs h hx
    obtain ⟨hp, hr⟩ := scoped_fn.1 h
    have hin : ∀ x, (x ∉ bound → (Ty.fn bound ps r).mentionsAny [x] = true) → x ∈ bound ++ gs := by
      intro x hfree
      by_cases hb : x ∈ bound
      · exact List.mem_append_left _ hb
      · exact List.mem_append_right _ (hx x (hfree hb))
    refine .fn (fun p hmem => ihp p hmem (hp p hmem) fun x hm => hin x fun hb => ?_)
      (ihr hr fun x hm => hin x fun hb => ?_)
    · exact mentionsAny_fn.2 ⟨hb, Or.inl ⟨p, hmem, hm⟩⟩
    · exact mentionsAny_fn.2 ⟨hb, Or.inr hm⟩
  | union ms ih =>
    intro gs hs h hx
    exact .union fun t ht => ih t ht (scoped_union.1 h t ht) fun x hm =>
      hx x (mentionsAny_union.2 ⟨t, ht, hm⟩)

theorem Scoped.mono (h : Scoped known gs t) (hsub : ∀ x ∈ gs, x ∈ hs) : Scoped known hs t :=
  h.of_free t fun x hx => hsub x (h.mem_of_mentions t hx)

/-! ## Unions -/

theorem spreads_not_scoped : Spreads fun t => ¬ Scoped known gs t := by
  intro ms
  simp only [scoped_union, not_forall]
  exact ⟨fun ⟨m, hm, h⟩ => ⟨m, hm, h⟩, fun ⟨m, hm, h⟩ => ⟨m, hm, h⟩⟩

theorem scoped_join {ts : List Ty} (h : ∀ t ∈ ts, Scoped known gs t) : Scoped known gs (join ts) := by
  by_contra hne
  obtain ⟨t, ht, hn⟩ := spreads_not_scoped.exists_of_unionWith hne
  exact hn (h t ht)

theorem Scoped.members (h : Scoped known gs t) {m : Ty} (hm : m ∈ t.members) : Scoped known gs m := by
  by_contra hne
  exact (spreads_not_scoped.members_iff t).1 ⟨m, hm, hne⟩ h

/-! ## Substitution -/

/-- Types in scope may be put in for names, also where they are captured. -/
theorem Scoped.resolve (t : Ty) : ∀ {gs hs : List String} {σ : Substitution}, Scoped known hs t →
    (∀ x ∈ hs, Scoped known gs ((σ.lookup x).getD (.var x))) → Scoped known gs (t.resolve σ) := by
  induction t with
  | var x =>
    intro gs hs σ h hσ
    rw [resolve_var]
    exact hσ x (scoped_var.1 h)
  | named decl args ih =>
    intro gs hs σ h hσ
    obtain ⟨hd, hl, hargs⟩ := scoped_named.1 h
    rw [resolve_named]
    refine .named hd (by simpa using hl) (List.forall_mem_map.2 fun t ht => ?_)
    exact ih t ht (hargs t ht) hσ
  | fn bound ps r ihp ihr =>
    intro gs hs σ h hσ
    obtain ⟨hp, hr⟩ := scoped_fn.1 h
    have hin : ∀ x ∈ bound ++ hs,
        Scoped known (bound ++ gs) (((σ.without bound).lookup x).getD (.var x)) := by
      intro x hx
      rw [Substitution.lookup_without]
      by_cases hb : x ∈ bound
      · rw [if_pos hb]
        exact .var (List.mem_append_left _ hb)
      · rw [if_neg hb]
        exact (hσ x ((List.mem_append.1 hx).resolve_left hb)).mono
          fun y hy => List.mem_append_right _ hy
    rw [resolve_fn]
    exact .fn (List.forall_mem_map.2 fun p hmem => ihp p hmem (hp p hmem) hin) (ihr hr hin)
  | union ms ih =>
    intro gs hs σ h hσ
    have hms : ∀ u ∈ ms.map (Ty.resolve σ), Scoped known gs u :=
      List.forall_mem_map.2 fun t ht => ih t ht (scoped_union.1 h t ht) hσ
    rcases resolve_union σ ms with he | he <;> rw [he]
    · exact .union hms
    · exact scoped_join hms

/-- Instances of a type whose names are the given generics. -/
theorem Scoped.resolve_ofLists {generics : List String} {types : List Ty}
    (h : Scoped known (generics ++ gs) t) (hlen : generics.length = types.length)
    (htypes : ∀ u ∈ types, Scoped known gs u) :
    Scoped known gs (t.resolve (.ofLists generics types)) := by
  refine h.resolve t fun x hx => ?_
  by_cases hg : x ∈ generics
  · obtain ⟨u, hu, hl⟩ := Substitution.exists_lookup_ofLists hlen hg
    rw [hl]
    exact htypes u hu
  · have hl : (Substitution.ofLists generics types).lookup x = none :=
      Option.eq_none_iff_forall_ne_some.2 fun u hu => hg (Substitution.mem_of_lookup_ofLists hu).1
    rw [hl]
    exact .var ((List.mem_append.1 hx).resolve_left hg)

/-! ## Places that inference may look at -/

mutual

/-- The names occur outside function types only. -/
def occursOutside (names : List String) : Ty → Bool
  | .var _ => true
  | .named _ args => occursOutsideAll names args
  | .fn generics params result => !(fn generics params result).mentionsAny names
  | .union ms => occursOutsideAll names ms

def occursOutsideAll (names : List String) : List Ty → Bool
  | [] => true
  | t :: ts => occursOutside names t && occursOutsideAll names ts

end

mutual

/-- The names occur in function types only where these have no generics and are not members of a
union. -/
def plain (names : List String) : Ty → Bool
  | .var _ => true
  | .named _ args => plainAll names args
  | .fn [] params result => plainParams names params && plain names result
  | .fn generics params result => !(fn generics params result).mentionsAny names
  | .union ms => occursOutsideAll names ms

def plainAll (names : List String) : List Ty → Bool
  | [] => true
  | t :: ts => plain names t && plainAll names ts

def plainParams (names : List String) : List (String × Ty) → Bool
  | [] => true
  | (_, t) :: ps => plain names t && plainParams names ps

end

section

variable {names : List String}

theorem occursOutsideAll_eq_all : ∀ ts : List Ty,
    occursOutsideAll names ts = ts.all (occursOutside names)
  | [] => rfl
  | t :: ts => congrArg (t.occursOutside names && ·) (occursOutsideAll_eq_all ts)

theorem plainAll_eq_all : ∀ ts : List Ty, plainAll names ts = ts.all (plain names)
  | [] => rfl
  | t :: ts => congrArg (t.plain names && ·) (plainAll_eq_all ts)

theorem plainParams_eq_all : ∀ ps : List (String × Ty),
    plainParams names ps = ps.all fun p => p.2.plain names
  | [] => rfl
  | (_, t) :: ps => congrArg (t.plain names && ·) (plainParams_eq_all ps)

theorem occursOutside_named {decl : Nominal} {args : List Ty} :
    (named decl args).occursOutside names = true ↔ ∀ t ∈ args, t.occursOutside names = true := by
  show occursOutsideAll names args = true ↔ _
  rw [occursOutsideAll_eq_all, List.all_eq_true]

theorem occursOutside_union {ms : List Ty} :
    (union ms).occursOutside names = true ↔ ∀ t ∈ ms, t.occursOutside names = true := by
  show occursOutsideAll names ms = true ↔ _
  rw [occursOutsideAll_eq_all, List.all_eq_true]

theorem plain_named {decl : Nominal} {args : List Ty} :
    (named decl args).plain names = true ↔ ∀ t ∈ args, t.plain names = true := by
  show plainAll names args = true ↔ _
  rw [plainAll_eq_all, List.all_eq_true]

theorem plain_fn_nil {ps : List (String × Ty)} {r : Ty} :
    (fn [] ps r).plain names = true ↔ (∀ p ∈ ps, p.2.plain names = true) ∧ r.plain names = true := by
  show (plainParams names ps && r.plain names) = true ↔ _
  rw [plainParams_eq_all, Bool.and_eq_true, List.all_eq_true]

theorem plain_fn_cons {g : String} {gs : List String} {ps : List (String × Ty)} {r : Ty} :
    (fn (g :: gs) ps r).plain names = true ↔ (fn (g :: gs) ps r).mentionsAny names = false := by
  rw [← Bool.not_eq_true']
  rfl

theorem plain_union {ms : List Ty} :
    (union ms).plain names = true ↔ ∀ t ∈ ms, t.occursOutside names = true :=
  occursOutside_union

theorem exists_mentionsAny_iff {ts : List Ty} (h : ∀ t ∈ ts,
      (t.mentionsAny names = true ↔ ∃ x ∈ names, t.mentionsAny [x] = true)) :
    (∃ t ∈ ts, t.mentionsAny names = true) ↔ ∃ x ∈ names, ∃ t ∈ ts, t.mentionsAny [x] = true := by
  constructor
  · rintro ⟨t, ht, hm⟩
    obtain ⟨x, hx, hm⟩ := (h t ht).1 hm
    exact ⟨x, hx, t, ht, hm⟩
  · rintro ⟨x, hx, t, ht, hm⟩
    exact ⟨t, ht, (h t ht).2 ⟨x, hx, hm⟩⟩

/-- A type mentions one of several names when it mentions one of them. -/
theorem mentionsAny_iff_exists (t : Ty) : ∀ {names : List String},
    t.mentionsAny names = true ↔ ∃ x ∈ names, t.mentionsAny [x] = true := by
  induction t with
  | var y => intro names; simp [mentionsAny]
  | named decl args ih =>
    intro names
    simp only [mentionsAny, mentionsAnyOf_eq_any, List.any_eq_true]
    exact exists_mentionsAny_iff fun t ht => ih t ht
  | fn bound ps r ihp ihr =>
    intro names
    simp only [mentionsAny_fn]
    simp only [mentionsAny, mentionsAnyOfParams_eq_any, Bool.or_eq_true, List.any_eq_true]
    constructor
    · rintro (⟨p, hp, h⟩ | h)
      · obtain ⟨x, hx, h⟩ := (ihp p hp).1 h
        obtain ⟨hx, hb⟩ := List.mem_filter.1 hx
        exact ⟨x, hx, by simpa using hb, Or.inl ⟨p, hp, h⟩⟩
      · obtain ⟨x, hx, h⟩ := ihr.1 h
        obtain ⟨hx, hb⟩ := List.mem_filter.1 hx
        exact ⟨x, hx, by simpa using hb, Or.inr h⟩
    · rintro ⟨x, hx, hb, ⟨p, hp, h⟩ | h⟩
      · exact Or.inl ⟨p, hp, (ihp p hp).2 ⟨x, List.mem_filter.2 ⟨hx, by simpa using hb⟩, h⟩⟩
      · exact Or.inr (ihr.2 ⟨x, List.mem_filter.2 ⟨hx, by simpa using hb⟩, h⟩)
  | union ms ih =>
    intro names
    simp only [mentionsAny, mentionsAnyOf_eq_any, List.any_eq_true]
    exact exists_mentionsAny_iff fun t ht => ih t ht

/-- Names that are not mentioned need not be in scope. -/
theorem Scoped.drop (h : Scoped known (names ++ gs) t) (hm : t.mentionsAny names = false) :
    Scoped known gs t := by
  refine h.of_free t fun x hx => (List.mem_append.1 (h.mem_of_mentions t hx)).resolve_left fun hn => ?_
  rw [(mentionsAny_iff_exists t).2 ⟨x, hn, hx⟩] at hm
  cases hm

/-- What is put in for the names does not bring them into function types. -/
def KeepsOutside (names : List String) (σ : Substitution) : Prop :=
  ∀ x u, σ.lookup x = some u → x ∈ names ∧ u.occursOutside names = true

/-- Where none of the names is mentioned, nothing is put in. -/
theorem not_mentions_resolve {σ : Substitution} (hσ : KeepsOutside names σ)
    (h : t.mentionsAny names = false) : (t.resolve σ).mentionsAny names = false := by
  by_contra hne
  obtain ⟨y, hy, hm⟩ := (mentionsAny_iff_exists _).1 (Bool.eq_true_of_not_eq_false hne)
  obtain ⟨x, hx, hxy⟩ := exists_mentions_of_resolve t hm
  have hnames : x ∉ names := fun hn => by
    rw [(mentionsAny_iff_exists t).2 ⟨x, hn, hx⟩] at h
    cases h
  cases hl : σ.lookup x with
  | some u => exact hnames (hσ x u hl).1
  | none =>
    rw [hl] at hxy
    exact hnames (mentionsAny_var.1 hxy ▸ hy)

theorem spreads_not_occursOutside : Spreads fun t => t.occursOutside names = false := by
  intro ms
  simp [occursOutside, occursOutsideAll_eq_all]

theorem occursOutside_resolve {σ : Substitution} (hσ : KeepsOutside names σ) (t : Ty) :
    t.occursOutside names = true → (t.resolve σ).occursOutside names = true := by
  induction t with
  | var x =>
    intro _
    rw [resolve_var]
    cases hl : σ.lookup x with
    | some u => exact (hσ x u hl).2
    | none => rfl
  | named decl args ih =>
    intro h
    rw [resolve_named]
    exact occursOutside_named.2 (List.forall_mem_map.2 fun t ht =>
      ih t ht (occursOutside_named.1 h t ht))
  | fn bound ps r _ _ =>
    intro h
    have hm := not_mentions_resolve hσ (by simpa [occursOutside] using h)
    rw [resolve_fn] at hm ⊢
    simp [occursOutside, hm]
  | union ms ih =>
    intro h
    have hms : ∀ u ∈ ms.map (Ty.resolve σ), u.occursOutside names = true :=
      List.forall_mem_map.2 fun t ht => ih t ht (occursOutside_union.1 h t ht)
    rcases resolve_union σ ms with he | he <;> rw [he]
    · exact occursOutside_union.2 hms
    · by_contra hne
      obtain ⟨u, hu, hn⟩ := spreads_not_occursOutside.exists_of_unionWith
        (Bool.eq_false_of_not_eq_true hne)
      rw [hms u hu] at hn
      cases hn

end

/-! ## Clashes -/

/-- At some place the parameter has a function type without generics and the argument one with
generics. Nothing that is put in for names of the parameter makes the two equal. -/
inductive Clash : (parameter argument : Ty) → Prop
  | generics {h : String} {hs : List String} {ps as : List (String × Ty)} {r s : Ty} :
      Clash (.fn [] ps r) (.fn (h :: hs) as s)
  | arg {d e : Nominal} {ps as : List Ty} {i : Nat} {p a : Ty} (hp : ps[i]? = some p)
      (ha : as[i]? = some a) (h : Clash p a) : Clash (.named d ps) (.named e as)
  | param {ps as : List (String × Ty)} {r s : Ty} {i : Nat} {p a : String × Ty}
      (hp : ps[i]? = some p) (ha : as[i]? = some a) (h : Clash p.2 a.2) :
      Clash (.fn [] ps r) (.fn [] as s)
  | result {ps as : List (String × Ty)} {r s : Ty} (h : Clash r s) :
      Clash (.fn [] ps r) (.fn [] as s)

theorem Clash.resolve {p a : Ty} (h : Clash p a) (σ : Substitution) : Clash (p.resolve σ) a := by
  induction h with
  | generics => rw [resolve_fn]; exact .generics
  | arg hp ha _ ih =>
    rw [resolve_named]
    exact .arg (by rw [List.getElem?_map, hp]; rfl) ha ih
  | param hp ha _ ih =>
    rw [resolve_fn, Substitution.without_nil]
    exact .param (by rw [List.getElem?_map, hp]; rfl) ha ih
  | result _ ih =>
    rw [resolve_fn, Substitution.without_nil]
    exact .result ih

theorem Clash.meaning_ne {p a : Ty} (h : Clash p a) (v : Valuation) : meaning v p ≠ meaning v a := by
  have hbind : v.bind [] = v := by
    funext x
    exact bind_of_not_mem (by simp)
  induction h with
  | generics => simp [meaning, number_inj]
  | @arg _ _ _ _ i _ _ hp ha _ ih =>
    simp only [meaning, meaningAll_eq_map, Ne, Finset.singleton_inj, number_inj, Element.named.injEq,
      not_and]
    intro _ _ he
    have hi := congrArg (·[i]?) he
    simp only [List.getElem?_map, hp, ha, Option.map_some, Option.some.injEq] at hi
    exact ih hi
  | @param _ _ _ _ i _ _ hp ha _ ih =>
    simp only [meaning, meaningParams_eq_map, hbind, Ne, Finset.singleton_inj, number_inj,
      Element.fn.injEq, not_and]
    intro _ he _
    have hi := congrArg (·[i]?) he
    simp only [List.getElem?_map, hp, ha, Option.map_some, Option.some.injEq] at hi
    exact ih hi
  | result _ ih =>
    simp only [meaning, hbind, Ne, Finset.singleton_inj, number_inj, Element.fn.injEq, not_and]
    exact fun _ _ he => ih he

theorem Clash.not_isUnion {p a : Ty} (h : Clash p a) : p.isUnion = false ∧ a.isUnion = false := by
  cases h <;> exact ⟨rfl, rfl⟩

theorem Clash.not_equal {p a : Ty} (h : Clash p a) : equal p a ≠ true := fun he =>
  h.meaning_ne atoms (meaning_eq_of_equal positional_atoms he)

theorem Clash.not_isAssignable {p a : Ty} (h : Clash p a) :
    isAssignable p a ≠ true ∧ isAssignable a p ≠ true := by
  obtain ⟨hp, ha⟩ := h.not_isUnion
  rw [Ne, Ne, isAssignable_iff, isAssignable_iff, flatten_of_not_isUnion hp, flatten_of_not_isUnion ha]
  simp only [List.mem_singleton, forall_eq, exists_eq_left]
  exact ⟨h.not_equal, fun he => h.not_equal (equal_symm he)⟩

/-! ## What inference finds -/

section

variable {names : List String} {g : String}

theorem not_mentions_of_outside {bound : List String} {ps : List (String × Ty)} {r : Ty}
    (hg : g ∈ names) (hq : (fn bound ps r).occursOutside names = true) :
    (fn bound ps r).mentionsAny [g] ≠ true := by
  intro h
  have hm := (mentionsAny_iff_exists _).2 ⟨g, hg, h⟩
  simp [occursOutside, hm] at hq

theorem Found.scoped_of_outside {q a : Ty} (h : Found g q a t) (hg : g ∈ names)
    (hq : q.occursOutside names = true) (ha : Scoped known gs a) : Scoped known gs t := by
  induction h with
  | var => exact ha
  | arg hp harg _ ih =>
    exact ih (occursOutside_named.1 hq _ (List.mem_of_getElem? hp))
      ((scoped_named.1 ha).2.2 _ (List.mem_of_getElem? harg))
  | param hgs hp _ h _ =>
    refine (not_mentions_of_outside hg hq (mentionsAny_fn.2 ⟨hgs, Or.inl ⟨_, ?_, h.mentions⟩⟩)).elim
    exact List.mem_of_getElem? hp
  | result hgs h _ =>
    exact (not_mentions_of_outside hg hq (mentionsAny_fn.2 ⟨hgs, Or.inr h.mentions⟩)).elim
  | member hp hrest _ ih =>
    exact ih (occursOutside_union.1 hq _ hp) (scoped_join fun m hm => ha.members (hrest m hm))

/-- What is found for a generic in a plain parameter is in scope, or the parameter clashes with the
argument. -/
theorem Found.scoped_or_clash {σ : Substitution} (hσ : KeepsOutside names σ) (hg : g ∈ names)
    (p : Ty) : ∀ {a : Ty}, p.plain names = true → Found g (p.resolve σ) a t → Scoped known gs a →
    Scoped known gs t ∨ Clash p a := by
  induction p with
  | var x =>
    intro a _ h ha
    refine Or.inl (h.scoped_of_outside hg ?_ ha)
    rw [resolve_var]
    cases hl : σ.lookup x with
    | some u => exact (hσ x u hl).2
    | none => rfl
  | named decl ps ih =>
    intro a hp h ha
    rw [resolve_named] at h
    cases h with
    | arg hi harg h =>
      rw [List.getElem?_map] at hi
      obtain ⟨p, hp', rfl⟩ := Option.map_eq_some_iff.1 hi
      have hmem := List.mem_of_getElem? hp'
      exact (ih p hmem (plain_named.1 hp p hmem) h
        ((scoped_named.1 ha).2.2 _ (List.mem_of_getElem? harg))).imp_right (.arg hp' harg)
  | fn bound ps r ihp ihr =>
    intro a hp h ha
    cases bound with
    | cons b bound =>
      -- a plain parameter with generics of its own mentions none of the call
      have hm := not_mentions_resolve hσ (plain_fn_cons.1 hp)
      rw [(mentionsAny_iff_exists _).2 ⟨g, hg, h.mentions⟩] at hm
      cases hm
    | nil =>
      obtain ⟨hparams, hresult⟩ := plain_fn_nil.1 hp
      rw [resolve_fn, Substitution.without_nil] at h
      cases h with
      | @param _ hs _ as _ s i _ _ _ _ hi harg h =>
        cases hs with
        | cons => exact Or.inr .generics
        | nil =>
          rw [List.getElem?_map] at hi
          obtain ⟨p, hp', rfl⟩ := Option.map_eq_some_iff.1 hi
          have hmem := List.mem_of_getElem? hp'
          exact (ihp p hmem (hparams p hmem) h
            ((scoped_fn.1 ha).1 _ (List.mem_of_getElem? harg))).imp_right (.param hp' harg)
      | @result _ hs _ as _ s _ _ h =>
        cases hs with
        | cons => exact Or.inr .generics
        | nil => exact (ihr hresult h (scoped_fn.1 ha).2).imp_right .result
  | union ms _ =>
    intro a hp h ha
    refine Or.inl (h.scoped_of_outside hg ?_ ha)
    exact occursOutside_resolve hσ _ (occursOutside_union.2 (plain_union.1 hp))

end

end UnionChecker.Ty
