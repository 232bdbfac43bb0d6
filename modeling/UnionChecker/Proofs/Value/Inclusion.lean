import UnionChecker.Proofs.Value.Tests
/-!
# Types within types

A type is within another when all its values have the other type too. Values know nothing of
generics, so a declared type grows with the types put in for its generics, and types that are equal
have the same values (`HasType.equal_iff`).

Putting a type in for a generic can drop members of unions that have become equal, so the second fact
is needed for the first; and equal types are compared generic by generic, so the first is needed for
the second. Both are proved together, for larger and larger values: the fields of a record are smaller
than the record, whatever their types.
-/

namespace UnionChecker

variable {table : Table} {ρ : String → Value → Prop}

/-! ## Sizes of values -/

theorem Value.sizeOf_lt_of_mem {u : Value} {items : List Value} (h : u ∈ items) :
    sizeOf u < sizeOf (Value.list items) := by
  have := List.sizeOf_lt_of_mem h
  simp only [Value.list.sizeOf_spec]
  omega

theorem Value.sizeOf_lt_of_lookup {tag : Ref} {fields : List (String × Value)} {name : String}
    {u : Value} (h : fields.lookup name = some u) : sizeOf u < sizeOf (Value.record tag fields) := by
  have := List.sizeOf_lt_of_mem (mem_of_lookup_eq_some h)
  simp only [Value.record.sizeOf_spec, Prod.mk.sizeOf_spec] at this ⊢
  omega

/-! ## Inclusion up to a size -/

/-- Every value below a size that has the one type has the other. -/
def WithinUpTo (table : Table) (ρ : String → Value → Prop) (n : Nat) (a b : Ty) : Prop :=
  ∀ v, sizeOf v < n → HasType table ρ v a → HasType table ρ v b

theorem WithinUpTo.mono {m n : Nat} {a b : Ty} (h : WithinUpTo table ρ n a b) (hm : m ≤ n) :
    WithinUpTo table ρ m a b := fun v hv => h v (by omega)

/-- Types that are equal have the same values, and larger types can be put in for generics. -/
structure RespectsUpTo (table : Table) (ρ : String → Value → Prop) (n : Nat) : Prop where
  equal : ∀ a b : Ty, a.equal b = true → WithinUpTo table ρ n a b ∧ WithinUpTo table ρ n b a
  substitute : ∀ σ τ : Substitution, (∀ x, WithinUpTo table ρ n ((Ty.var x).substitute σ)
    ((Ty.var x).substitute τ)) → ∀ t : Ty, WithinUpTo table ρ n (t.substitute σ) (t.substitute τ)

theorem hasType_var_iff {x : String} {v : Value} : HasType table ρ v (.var x) ↔ ρ x v :=
  ⟨fun h => by cases h; assumption, .var⟩

theorem hasType_fn_iff {generics : List String} {params : List (String × Ty)} {result : Ty}
    {v : Value} : HasType table ρ v (.fn generics params result) ↔ v = .function :=
  ⟨fun h => by cases h; rfl, fun h => h ▸ .function⟩

theorem spreads_hasType (v : Value) : Ty.Spreads fun t => HasType table ρ v t :=
  fun ms => hasType_iff_members (t := .union ms)

/-- Related types, put in for the same generics. -/
theorem resolve_ofLists_related {n : Nat} (hn : RespectsUpTo table ρ n) {generics : List String}
    {as bs : List Ty} (h : List.Forall₂ (WithinUpTo table ρ n) as bs) (t : Ty) :
    WithinUpTo table ρ n (t.resolve (.ofLists generics as)) (t.resolve (.ofLists generics bs)) := by
  have hrel := Substitution.lookup_ofLists_related h generics
  have hempty : (Substitution.ofLists generics as).isEmpty =
      (Substitution.ofLists generics bs).isEmpty := by
    rw [Bool.eq_iff_iff, Substitution.isEmpty_iff_lookup, Substitution.isEmpty_iff_lookup]
    refine forall_congr' fun x => ?_
    rcases hrel x with ⟨ha, hb⟩ | ⟨a, b, ha, hb, -⟩ <;> simp [ha, hb]
  rw [Ty.resolve, Ty.resolve, hempty]
  split
  · exact fun v _ hv => hv
  · refine hn.substitute _ _ (fun x => ?_) t
    rw [Ty.substitute, Ty.substitute]
    rcases hrel x with ⟨ha, hb⟩ | ⟨a, b, ha, hb, hab⟩
    · rw [ha, hb]
      exact fun v _ hv => hv
    · rw [ha, hb]
      exact hab

/-- A record of a declared type is one of the same type at larger generics. -/
theorem record_withinUpTo {n : Nat} (hn : RespectsUpTo table ρ n) {d e : Nominal} {as bs : List Ty}
    (href : d.ref = e.ref) (hargs : List.Forall₂ (WithinUpTo table ρ n) as bs) {tag : Ref}
    {fields : List (String × Value)} (hsize : sizeOf (Value.record tag fields) < n + 1)
    (h : HasType table ρ (.record tag fields) (.named d as)) :
    HasType table ρ (.record tag fields) (.named e bs) := by
  obtain ⟨htag, generic, hgeneric, hlength, h⟩ := hasType_record_iff.1 h
  refine hasType_record_iff.2 ⟨href ▸ htag, generic, hgeneric, hlength.trans hargs.length_eq,
    fun p hp => ?_⟩
  obtain ⟨u, hu, hut⟩ := h p hp
  have hlt : sizeOf u < sizeOf (Value.record tag fields) := Value.sizeOf_lt_of_lookup hu
  exact ⟨u, hu, resolve_ofLists_related hn hargs p.2 u (by omega) hut⟩

/-- A declared type is within the same type at larger generics. -/
theorem named_withinUpTo {n : Nat} (hn : RespectsUpTo table ρ n) {d e : Nominal} {as bs : List Ty}
    (href : d.ref = e.ref) (hargs : List.Forall₂ (WithinUpTo table ρ (n + 1)) as bs) :
    WithinUpTo table ρ (n + 1) (.named d as) (.named e bs) := by
  intro v hv h
  cases h with
  | literal hl =>
    cases hargs
    exact .literal (href ▸ hl)
  | list hlist hitems =>
    obtain ⟨element, rfl⟩ : ∃ element, bs = [element] := List.length_eq_one_iff.1 hargs.length_eq.symm
    cases hargs with
    | cons helement _ =>
      refine .list (href ▸ hlist) fun u hu => helement u ?_ (hitems u hu)
      have := Value.sizeOf_lt_of_mem hu
      omega
  | record htag hgeneric hinst hpresent h =>
    exact record_withinUpTo hn href (hargs.imp fun a b hab => hab.mono (by omega)) hv
      (.record htag hgeneric hinst hpresent h)

theorem withinUpTo_of_members {n : Nat} {a b : Ty}
    (h : ∀ x ∈ a.members, ∃ y ∈ b.members, WithinUpTo table ρ n x y) : WithinUpTo table ρ n a b := by
  intro v hv ha
  obtain ⟨x, hx, hvx⟩ := hasType_iff_members.1 ha
  obtain ⟨y, hy, hxy⟩ := h x hx
  exact hasType_iff_members.2 ⟨y, hy, hxy v hv hvx⟩

theorem equal_withinUpTo {n : Nat} (hn : RespectsUpTo table ρ n) : ∀ (s : Nat) (a b : Ty),
    a.size + b.size ≤ s → a.equal b = true →
      WithinUpTo table ρ (n + 1) a b ∧ WithinUpTo table ρ (n + 1) b a
  | 0, a, b, hs, _ => by have := Ty.size_pos a; omega
  | s + 1, a, b, hs, h => by
    cases Ty.matched_of_equal h with
    | var x => exact ⟨fun _ _ hv => hv, fun _ _ hv => hv⟩
    | @named d e as bs href hargs =>
      have ih : List.Forall₂ (fun x y => WithinUpTo table ρ (n + 1) x y ∧
          WithinUpTo table ρ (n + 1) y x) as bs := by
        refine List.forall₂_iff_zip.2 ⟨hargs.length_eq, fun {x y} hxy => ?_⟩
        have h1 := Ty.size_le_sizeAll (List.of_mem_zip hxy).1
        have h2 := Ty.size_le_sizeAll (List.of_mem_zip hxy).2
        simp only [Ty.size] at hs
        exact equal_withinUpTo hn s x y (by omega) (List.forall₂_zip hargs hxy)
      exact ⟨named_withinUpTo hn href (ih.imp fun _ _ h => h.1),
        named_withinUpTo hn href.symm (ih.imp fun _ _ h => h.2).flip⟩
    | fn h => exact ⟨fun v _ hv => hasType_fn_iff.2 (hasType_fn_iff.1 hv),
        fun v _ hv => hasType_fn_iff.2 (hasType_fn_iff.1 hv)⟩
    | members hleft hright hsize =>
      refine ⟨withinUpTo_of_members fun x hx => ?_, withinUpTo_of_members fun y hy => ?_⟩
      · obtain ⟨y, hy, he⟩ := hleft x hx
        have := hsize x hx y hy
        exact ⟨y, hy, (equal_withinUpTo hn s x y (by omega) he).1⟩
      · obtain ⟨x, hx, he⟩ := hright y hy
        have := hsize x hx y hy
        exact ⟨x, hx, (equal_withinUpTo hn s x y (by omega) he).2⟩

theorem substitute_withinUpTo {n : Nat} (hn : RespectsUpTo table ρ n) {σ τ : Substitution}
    (hvar : ∀ x, WithinUpTo table ρ (n + 1) ((Ty.var x).substitute σ) ((Ty.var x).substitute τ))
    (t : Ty) : WithinUpTo table ρ (n + 1) (t.substitute σ) (t.substitute τ) := by
  induction t with
  | var x => exact hvar x
  | named decl args ih =>
    rw [Ty.substitute, Ty.substitute, Ty.substituteAll_eq_map, Ty.substituteAll_eq_map]
    refine named_withinUpTo hn rfl ?_
    rw [List.forall₂_map_left_iff, List.forall₂_map_right_iff, List.forall₂_same]
    exact ih
  | fn generics params result =>
    intro v _ hv
    have hfn : ∀ σ : Substitution, HasType table ρ v ((Ty.fn generics params result).substitute σ) ↔
        v = .function := fun σ => by
      rw [Ty.substitute]
      split <;> exact hasType_fn_iff
    exact (hfn τ).2 ((hfn σ).1 hv)
  | union ms ih =>
    intro v hv h
    have hjoin : ∀ ts : List Ty, HasType table ρ v (.join ts) ↔ ∃ t ∈ ts, HasType table ρ v t :=
      fun ts => (spreads_hasType v).unionWith_iff fun a _ b _ he =>
        ⟨(equal_withinUpTo hn _ a b le_rfl he).1 v hv, (equal_withinUpTo hn _ a b le_rfl he).2 v hv⟩
    rw [Ty.substitute, Ty.substituteAll_eq_map, hjoin] at h ⊢
    obtain ⟨_, hmap, h⟩ := h
    obtain ⟨m, hm, rfl⟩ := List.mem_map.1 hmap
    exact ⟨_, List.mem_map_of_mem hm, ih m hm v hv h⟩

theorem respectsUpTo (table : Table) (ρ : String → Value → Prop) : ∀ n, RespectsUpTo table ρ n
  | 0 => ⟨fun _ _ _ => ⟨fun v hv => by omega, fun v hv => by omega⟩, fun _ _ _ _ v hv => by omega⟩
  | n + 1 =>
    have hn := respectsUpTo table ρ n
    ⟨fun a b => equal_withinUpTo hn _ a b le_rfl, fun _ _ hvar => substitute_withinUpTo hn hvar⟩

/-! ## Inclusion -/

/-- **Equal types have the same values.** -/
theorem HasType.equal_iff {a b : Ty} (h : a.equal b = true) (v : Value) :
    HasType table ρ v a ↔ HasType table ρ v b :=
  have hn := (respectsUpTo table ρ (sizeOf v + 1)).equal a b h
  ⟨hn.1 v (by omega), hn.2 v (by omega)⟩

/-- **Declared types grow with their generics.** -/
theorem HasType.named_mono {d e : Nominal} {as bs : List Ty} (href : d.ref = e.ref)
    (hargs : List.Forall₂ (fun a b => ∀ v, HasType table ρ v a → HasType table ρ v b) as bs)
    {v : Value} (h : HasType table ρ v (.named d as)) : HasType table ρ v (.named e bs) :=
  named_withinUpTo (respectsUpTo table ρ (sizeOf v)) href
    (hargs.imp fun _ _ hab v _ => hab v) v (by omega) h

end UnionChecker
