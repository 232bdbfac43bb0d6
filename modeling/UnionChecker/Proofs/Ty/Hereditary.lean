import UnionChecker.Proofs.Ty.Canonical
import UnionChecker.Proofs.Ty.Inference
/-!
# Properties of types at every depth

A hereditary property holds of a type exactly when it holds of its parts, unions aside, and is kept by
building unions. Substituting and inferring then keep it, since all that they do is to take types
apart and to put them together.

The main example are types whose unions are in normal form (`Normal`): no union directly in a union,
no two equal members, never one member alone, and the members in the order of their names.
-/

namespace UnionChecker.Ty

/-- A property that passes to the parts of a type, and back if unions are built by `join`. `Named` says
what generics may be called, and `Declared` which declared types there are, and at how many
arguments. -/
structure Hereditary (Named : String → Prop) (Declared : Nominal → Nat → Prop) (P : Ty → Prop) :
    Prop where
  var {x : String} : P (.var x) ↔ Named x
  named {decl : Nominal} {args : List Ty} :
    P (.named decl args) ↔ Declared decl args.length ∧ ∀ t ∈ args, P t
  fn {gs : List String} {ps : List (String × Ty)} {r : Ty} :
    P (.fn gs ps r) ↔ (∀ g ∈ gs, Named g) ∧ (∀ p ∈ ps, P p.2) ∧ P r
  member {ms : List Ty} {m : Ty} : P (.union ms) → m ∈ ms → P m
  join {ts : List Ty} : (∀ t ∈ ts, P t) → P (.join ts)

namespace Hereditary

variable {Named : String → Prop} {Declared : Nominal → Nat → Prop} {P : Ty → Prop}
  (hP : Hereditary Named Declared P)
include hP

theorem members {t m : Ty} (h : P t) (hm : m ∈ t.members) : P m := by
  cases t with
  | union ms => exact hP.member h hm
  | var | named | fn => rwa [List.mem_singleton.1 hm]

theorem substitute (t : Ty) : ∀ {σ : Substitution}, P t → (∀ x u, σ.lookup x = some u → P u) →
    P (t.substitute σ) := by
  induction t with
  | var x =>
    intro σ h hσ
    simp only [Ty.substitute]
    cases hx : σ.lookup x with
    | none => exact h
    | some u => exact hσ x u hx
  | named decl args ih =>
    intro σ h hσ
    obtain ⟨hdecl, hargs⟩ := hP.named.1 h
    rw [Ty.substitute, substituteAll_eq_map]
    refine hP.named.2 ⟨by simpa using hdecl, List.forall_mem_map.2 fun t ht => ?_⟩
    exact ih t ht (hargs t ht) hσ
  | fn gs ps r ihp ihr =>
    intro σ h hσ
    obtain ⟨hgs, hps, hr⟩ := hP.fn.1 h
    rw [Ty.substitute]
    split
    · exact h
    · have hinner : ∀ x u, (σ.without gs).lookup x = some u → P u := fun x u hu =>
        hσ x u (Substitution.lookup_of_without hu).2
      rw [substituteParams_eq_map]
      exact hP.fn.2 ⟨hgs, List.forall_mem_map.2 fun p hp => ihp p hp (hps p hp) hinner,
        ihr hr hinner⟩
  | union ms ih =>
    intro σ h hσ
    rw [Ty.substitute, substituteAll_eq_map]
    exact hP.join (List.forall_mem_map.2 fun m hm => ih m hm (hP.member h hm) hσ)

theorem resolve {t : Ty} {σ : Substitution} (h : P t) (hσ : ∀ x u, σ.lookup x = some u → P u) :
    P (t.resolve σ) := by
  unfold Ty.resolve
  split
  · exact h
  · exact hP.substitute t h hσ

theorem resolve_ofLists {t : Ty} {gs : List String} {ts : List Ty} (h : P t)
    (hts : ∀ u ∈ ts, P u) : P (t.resolve (.ofLists gs ts)) :=
  hP.resolve h fun _ u hu => hts u (Substitution.mem_of_lookup_ofLists hu).2

/-- What inference finds stands in the argument, or is built from members that do. -/
theorem found {g : String} {p a t : Ty} (h : Found g p a t) (ha : P a) : P t := by
  induction h with
  | var => exact ha
  | arg _ ht _ ih => exact ih ((hP.named.1 ha).2 _ (List.mem_of_getElem? ht))
  | param _ _ ht _ ih => exact ih ((hP.fn.1 ha).2.1 _ (List.mem_of_getElem? ht))
  | result _ _ ih => exact ih (hP.fn.1 ha).2.2
  | member _ hrest _ ih => exact ih (hP.join fun m hm => hP.members ha (hrest m hm))

end Hereditary

/-! ## Normal form -/

/-- All unions in a type are in normal form. -/
inductive Normal : Ty → Prop
  | var (x : String) : Normal (.var x)
  | named {decl : Nominal} {args : List Ty} (h : ∀ t ∈ args, Normal t) : Normal (.named decl args)
  | fn {gs : List String} {ps : List (String × Ty)} {r : Ty} (hp : ∀ p ∈ ps, Normal p.2)
      (hr : Normal r) : Normal (.fn gs ps r)
  | union {ms : List Ty} (h : ∀ m ∈ ms, Normal m) (hflat : ∀ m ∈ ms, m.isUnion = false)
      (hdistinct : ms.Pairwise fun a b => a.equal b = false) (hlength : ms.length ≠ 1)
      (hsorted : ms.Pairwise fun a b => a.le b = true) : Normal (.union ms)

theorem Normal.flatten_eq {t : Ty} (h : Normal t) : t.flatten = t.members := by
  cases h with
  | union h hflat => rw [flatten, flattenAll_of_not_isUnion hflat, members]
  | _ => rfl

/-- An opened member of a union in normal form is in normal form, and no union. -/
theorem Normal.of_mem_flatten (t : Ty) {m : Ty} (h : Normal t) (hm : m ∈ t.flatten) :
    Normal m ∧ m.isUnion = false := by
  cases h with
  | union h hflat =>
    rw [flatten, flattenAll_of_not_isUnion hflat] at hm
    exact ⟨h m hm, hflat m hm⟩
  | var x => rw [List.mem_singleton.1 hm]; exact ⟨.var x, rfl⟩
  | named h => rw [List.mem_singleton.1 hm]; exact ⟨.named h, rfl⟩
  | fn hp hr => rw [List.mem_singleton.1 hm]; exact ⟨.fn hp hr, rfl⟩

theorem Normal.flat {t : Ty} (h : Normal t) : Flat t := by
  induction h with
  | var x => exact .var x
  | named _ ih => exact .named ih
  | fn _ _ ihp ihr => exact .fn ihp ihr
  | union _ hflat _ _ _ ih => exact .union ih hflat

theorem Normal.of_mem_members {t m : Ty} (h : Normal t) (hm : m ∈ t.members) : Normal m :=
  (Normal.of_mem_flatten t h (h.flatten_eq ▸ hm)).1

theorem Normal.of_mem_args {decl : Nominal} {args : List Ty} (h : Normal (.named decl args)) :
    ∀ t ∈ args, Normal t := by
  cases h with
  | named h => exact h

theorem Normal.distinct_members {t : Ty} (h : Normal t) :
    t.members.Pairwise fun a b => a.equal b = false := by
  cases h with
  | union _ _ hdistinct => exact hdistinct
  | var | named | fn => exact List.pairwise_singleton _ _

theorem Normal.sorted_members {t : Ty} (h : Normal t) :
    t.members.Pairwise fun a b => a.le b = true := by
  cases h with
  | union _ _ _ _ hsorted => exact hsorted
  | var | named | fn => exact List.pairwise_singleton _ _

/-- **Unions are built in normal form.** -/
theorem normal_join {ts : List Ty} (h : ∀ t ∈ ts, Normal t) : Normal (.join ts) := by
  have hmem : ∀ m ∈ (join ts).members, Normal m := fun m hm => by
    have hm := mem_members_join hm
    rw [flattenAll_eq_flatMap] at hm
    obtain ⟨t, ht, hm⟩ := List.mem_flatMap.1 hm
    exact ((h t ht).of_mem_flatten t hm).1
  have hjoin := canonical_join ts
  cases hu : join ts with
  | union ms =>
    rw [hu] at hmem hjoin
    refine .union hmem hjoin.flat hjoin.distinct (fun hone => ?_) hjoin.sorted
    obtain ⟨m, rfl⟩ := List.length_eq_one_iff.1 hone
    exact hjoin.never_one m rfl
  | var | named | fn => rw [hu] at hmem; exact hmem _ List.mem_cons_self

theorem hereditary_normal : Hereditary (fun _ => True) (fun _ _ => True) Normal where
  var := iff_of_true (.var _) trivial
  named := ⟨fun h => by cases h with | named h => exact ⟨trivial, h⟩, fun h => .named h.2⟩
  fn := ⟨fun h => by cases h with | fn hp hr => exact ⟨fun _ _ => trivial, hp, hr⟩,
    fun h => .fn h.2.1 h.2.2⟩
  member h hm := by cases h with | union h => exact h _ hm
  join := normal_join

/-! ## Rebuilding what is in normal form -/

theorem insertMember_eq_append {t : Ty} : ∀ {ms : List Ty}, (∀ m ∈ ms, m.equal t = false) →
    insertMember equal ms t = ms ++ [t]
  | [], _ => rfl
  | m :: ms, h => by
    rw [List.forall_mem_cons] at h
    rw [insertMember, if_neg (by simp [h.1]), insertMember_eq_append h.2, List.cons_append]

theorem insertMembers_eq_append : ∀ {ts ms : List Ty},
    (ms ++ ts).Pairwise (fun a b => a.equal b = false) →
    ts.foldl (insertMember equal) ms = ms ++ ts
  | [], ms, _ => by simp
  | t :: ts, ms, h => by
    have hms : ∀ m ∈ ms, m.equal t = false := fun m hm =>
      (List.pairwise_append.1 h).2.2 m hm t List.mem_cons_self
    rw [← List.singleton_append, ← List.append_assoc] at h ⊢
    rw [List.singleton_append, List.foldl_cons, insertMember_eq_append hms,
      insertMembers_eq_append h]

/-- A union in normal form is built from its members as it is. -/
theorem Normal.join_eq {ms : List Ty} (h : Normal (.union ms)) : join ms = .union ms := by
  cases h with
  | union _ hflat hdistinct hlength hsorted =>
    have hmembers : ms.foldl (insertMember equal) [] = [] ++ ms := insertMembers_eq_append hdistinct
    rw [join, unionWith, distinctMembers, flattenAll_of_not_isUnion hflat, hmembers, List.nil_append,
      ofMembers, sortOrdered_eq_self hsorted]
    rintro t rfl
    exact hlength rfl

/-- A type in normal form does not change when its free names are replaced by themselves or not at
all. -/
theorem Normal.substitute_eq (t : Ty) : ∀ {σ : Substitution}, Normal t →
    (∀ x u, σ.lookup x = some u → t.mentionsAny [x] = true → u = .var x) → t.substitute σ = t := by
  induction t with
  | var x =>
    intro σ _ hσ
    rw [substitute]
    cases hx : σ.lookup x with
    | none => rfl
    | some u => exact hσ x u hx (mentionsAny_var.2 rfl)
  | named decl args ih =>
    intro σ h hσ
    have hargs := (hereditary_normal.named.1 h).2
    have hkept : ∀ t ∈ args, t.substitute σ = t := fun t ht =>
      ih t ht (hargs t ht) fun x u hu hx => hσ x u hu (mentionsAny_named.2 ⟨t, ht, hx⟩)
    rw [substitute, substituteAll_eq_map, List.map_congr_left hkept, List.map_id']
  | fn gs ps r ihp ihr =>
    intro σ h hσ
    obtain ⟨-, hps, hr⟩ := hereditary_normal.fn.1 h
    -- what is put in inside is put in for a name that is free in the whole type
    have hinner : ∀ {x u}, (σ.without gs).lookup x = some u →
        (∃ p ∈ ps, p.2.mentionsAny [x] = true) ∨ r.mentionsAny [x] = true → u = .var x :=
      fun {x u} hu hx => by
        obtain ⟨hgs, hu⟩ := Substitution.lookup_of_without hu
        exact hσ x u hu (mentionsAny_fn.2 ⟨hgs, hx⟩)
    have hparams : ∀ p ∈ ps, (p.1, p.2.substitute (σ.without gs)) = p := fun p hp => by
      rw [ihp p hp (hps p hp) fun x u hu hx => hinner hu (Or.inl ⟨p, hp, hx⟩)]
    rw [substitute]
    split
    · rfl
    · rw [substituteParams_eq_map, ihr hr fun x u hu hx => hinner hu (Or.inr hx),
        List.map_congr_left hparams, List.map_id']
  | union ms ih =>
    intro σ h hσ
    have hkept : ∀ m ∈ ms, m.substitute σ = m := fun m hm =>
      ih m hm (hereditary_normal.member h hm) fun x u hu hx =>
        hσ x u hu (mentionsAny_union.2 ⟨m, hm, hx⟩)
    rw [substitute, substituteAll_eq_map, List.map_congr_left hkept, List.map_id', h.join_eq]

theorem Normal.resolve_self {t : Ty} (h : Normal t) (gs : List String) :
    t.resolve (.ofLists gs (gs.map .var)) = t := by
  rcases resolve_eq_or (.ofLists gs (gs.map .var)) t with he | he
  · exact he
  · rw [he]
    refine h.substitute_eq t fun x u hu _ => ?_
    rw [Substitution.lookup_ofLists_map] at hu
    split at hu <;> cases hu
    rfl

end UnionChecker.Ty
