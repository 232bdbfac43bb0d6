import UnionChecker.Proofs.Binding.Records
import UnionChecker.Proofs.Ty.Substitution
/-!
# What a test looks at

A test for a type is put together from tests for its parts, one for each member of a union, for the
elements of a list and for each generic of a struct. The witness field of a generic is declared with
exactly this generic as its type, so in a record of type `S<t, …>` it holds a value of type `t`
(`HasType.witness`): this is why looking at it says something about the generics.
-/

namespace UnionChecker

namespace Discriminator

/-! ## Passing a test -/

theorem acceptsSome_iff {v : Value} : ∀ {tests : List Discriminator},
    acceptsSome tests v = true ↔ ∃ test ∈ tests, test.accepts v = true
  | [] => by simp [acceptsSome]
  | test :: tests => by simp [acceptsSome, acceptsSome_iff]

theorem acceptsWitnesses_iff {v : Value} : ∀ {witnesses : List (String × Discriminator)},
    acceptsWitnesses witnesses v = true ↔
      ∀ w ∈ witnesses, ∃ u, v.field? w.1 = some u ∧ w.2.accepts u = true
  | [] => by simp [acceptsWitnesses]
  | (field, test) :: witnesses => by
    rw [acceptsWitnesses, Bool.and_eq_true, acceptsWitnesses_iff, List.forall_mem_cons]
    refine and_congr_left fun _ => ?_
    cases v.field? field <;> simp

theorem accepts_tag_iff {ref : Ref} {witnesses : List (String × Discriminator)} {v : Value} :
    (tag ref witnesses).accepts v = true ↔ v.tag? = some ref ∧
      ∀ w ∈ witnesses, ∃ u, v.field? w.1 = some u ∧ w.2.accepts u = true := by
  rw [accepts, Bool.and_eq_true, acceptsWitnesses_iff, beq_iff_eq]

theorem accepts_list_iff {element : Discriminator} {v : Value} :
    (list element).accepts v = true ↔
      ∃ items, v = .list items ∧ ∀ u ∈ items, element.accepts u = true := by
  cases v <;> simp [accepts]

theorem accepts_void_iff {v : Value} : void.accepts v = true ↔ v = .literal .null := by
  cases v with
  | literal l => cases l <;> simp [accepts]
  | _ => simp [accepts]

/-! ## Building a test -/

variable {matchFields : MatchFields}

theorem synthesizeAll_eq_ok : ∀ {ts : List Ty} {tests : List Discriminator},
    synthesizeAll matchFields ts = .ok tests →
      List.Forall₂ (fun t test => synthesize matchFields .arm t = .ok test) ts tests
  | [], tests, h => by rw [synthesizeAll] at h; cases h; exact .nil
  | t :: ts, tests, h => by
    rw [synthesizeAll, bind_eq_ok] at h
    obtain ⟨first, hfirst, h⟩ := h
    rw [bind_eq_ok] at h
    obtain ⟨rest, hrest, h⟩ := h
    cases h
    exact .cons hfirst (synthesizeAll_eq_ok hrest)

/-- Each generic has a witness field and a test for it. -/
theorem synthesizeWitnesses_eq_ok {decl : Nominal} : ∀ {args : List Ty}
    {fields : List (Option String)} {formals : List String} {ws : List (String × Discriminator)},
    synthesizeWitnesses matchFields decl fields formals args = .ok ws →
      List.Forall₂ (fun arg w => synthesize matchFields .generic arg = .ok w.2) args ws ∧
        ∀ (i : Nat) (w : String × Discriminator), ws[i]? = some w → fields[i]? = some (some w.1)
  | [], fields, formals, ws, h => by
    rw [synthesizeWitnesses] at h
    cases h
    exact ⟨.nil, by simp⟩
  | arg :: args, [], formals, ws, h => by rw [synthesizeWitnesses] at h; cases h
  | arg :: args, none :: fields, formals, ws, h => by rw [synthesizeWitnesses] at h; cases h
  | arg :: args, some field :: fields, formals, ws, h => by
    rw [synthesizeWitnesses] at h
    obtain ⟨first, hfirst, h⟩ := bind_eq_ok.1 h
    obtain ⟨rest, hrest, h⟩ := bind_eq_ok.1 h
    cases h
    obtain ⟨htests, hfields⟩ := synthesizeWitnesses_eq_ok hrest
    refine ⟨.cons hfirst htests, fun i w hw => ?_⟩
    cases i with
    | zero => cases hw; rfl
    | succ i => exact hfields i w hw

variable {position : Position} {test : Discriminator}

theorem synthesize_var_ne_ok {x : String} : synthesize matchFields position (.var x) ≠ .ok test := by
  cases position <;> simp [synthesize]

theorem synthesize_fn_ne_ok {generics : List String} {params : List (String × Ty)} {result : Ty} :
    synthesize matchFields position (.fn generics params result) ≠ .ok test := by
  cases position <;> simp [synthesize]

theorem synthesize_union_eq_ok {ms : List Ty}
    (h : synthesize matchFields position (.union ms) = .ok test) :
    ∃ tests, List.Forall₂ (fun m test => synthesize matchFields .arm m = .ok test) ms tests ∧
      test = .anyOf tests := by
  cases position with
  | generic => simp [synthesize] at h
  | arm =>
    obtain ⟨tests, htests, rfl⟩ := map_eq_ok.1 (synthesize.eq_1 matchFields ms ▸ h)
    exact ⟨tests, synthesizeAll_eq_ok htests, rfl⟩

/-- Where a declared type stands does not matter. -/
theorem synthesize_named (decl : Nominal) (args : List Ty) :
    synthesize matchFields position (.named decl args) =
      if decl.ref = ⟨"", "Void"⟩ then .ok .void
      else if decl.ref = ⟨"", "List"⟩ then
        match args with
        | [] => .error (.wrongGenericCount 1 0)
        | element :: _ => (synthesize matchFields .arm element).map .list
      else
        (synthesizeWitnesses matchFields decl ((matchFields.lookup decl.ref).getD []) decl.formals
          args).map (.tag decl.ref) := by
  cases args <;> simp only [synthesize, beq_iff_eq]

/-- The test for a declared type looks for null, for a list or for a tag. -/
theorem synthesize_named_eq_ok {decl : Nominal} {args : List Ty}
    (h : synthesize matchFields position (.named decl args) = .ok test) :
    (decl.ref = ⟨"", "Void"⟩ ∧ test = .void) ∨
    (decl.ref = ⟨"", "List"⟩ ∧ ∃ element rest inner, args = element :: rest ∧
      synthesize matchFields .arm element = .ok inner ∧ test = .list inner) ∨
    (decl.ref ≠ ⟨"", "Void"⟩ ∧ decl.ref ≠ ⟨"", "List"⟩ ∧ ∃ ws, test = .tag decl.ref ws ∧
      synthesizeWitnesses matchFields decl ((matchFields.lookup decl.ref).getD []) decl.formals
        args = .ok ws) := by
  rw [synthesize_named] at h
  split at h
  · cases h
    exact .inl ⟨‹_›, rfl⟩
  · split at h
    · refine .inr (.inl ⟨‹_›, ?_⟩)
      cases args with
      | nil => cases h
      | cons element rest =>
        obtain ⟨inner, hinner, rfl⟩ := map_eq_ok.1 h
        exact ⟨element, rest, inner, rfl, hinner, rfl⟩
    · obtain ⟨ws, hws, rfl⟩ := map_eq_ok.1 h
      exact .inr (.inr ⟨‹_›, ‹_›, ws, rfl, hws⟩)

end Discriminator

/-! ## Witness fields -/

/-- The witness field of a generic is declared with this generic as its type. -/
theorem mem_of_witnessFields {generics : List String} {fields : List (String × Ty)} {i : Nat}
    {g name : String} (hg : generics[i]? = some g)
    (h : (witnessFields generics fields)[i]? = some (some name)) : (name, .var g) ∈ fields := by
  rw [witnessFields, List.getElem?_map, hg, Option.map_some, Option.some.injEq,
    Option.map_eq_some_iff] at h
  obtain ⟨⟨name', t⟩, hfind, rfl⟩ := h
  have htype := List.find?_some hfind
  cases t with
  | var x =>
    obtain rfl : x = g := by simpa using htype
    exact List.mem_of_find?_eq_some hfind
  | _ => cases htype

theorem Signature.instantiate_eq_ok {s inst : Signature} {types : List Ty} :
    s.instantiate types = .ok inst ↔ s.generics.length = types.length ∧
      inst = ⟨[], s.params.map fun p => (p.1, p.2.resolve (.ofLists s.generics types)),
        s.result.resolve (.ofLists s.generics types)⟩ := by
  rw [instantiate]
  split
  · rename_i hlength
    simp only [beq_iff_eq] at hlength
    simp [hlength, eq_comm]
  · rename_i hlength
    simp only [beq_iff_eq] at hlength
    simp [hlength]

/-- A generic at its position, put in for its name. -/
theorem Ty.resolve_var_ofLists {generics : List String} {types : List Ty} {i : Nat} {g : String}
    {t : Ty} (hnd : generics.Nodup) (hlength : generics.length = types.length)
    (hg : generics[i]? = some g) (ht : types[i]? = some t) :
    (Ty.var g).resolve (Substitution.ofLists generics types) = t := by
  have hmem : (g, t) ∈ generics.zip types :=
    List.mem_of_getElem? (List.getElem?_zip_eq_some.2 ⟨hg, ht⟩)
  have hlookup := Substitution.lookup_ofLists_of_nodup hnd hlength hmem
  rw [resolve, if_neg, substitute, hlookup, Option.getD_some]
  rw [Substitution.isEmpty_iff_lookup]
  exact fun hnone => by simp [hnone g] at hlookup

section

variable {table : Table} {ρ : String → Value → Prop}

/-- A value has a type when it has the type of a member. -/
theorem hasType_iff_members {v : Value} {t : Ty} :
    HasType table ρ v t ↔ ∃ m ∈ t.members, HasType table ρ v m := by
  cases t with
  | union ms =>
    constructor
    · intro h
      cases h with
      | union hm h => exact ⟨_, hm, h⟩
    · rintro ⟨m, hm, h⟩
      exact .union hm h
  | _ => simp [Ty.members]

/-- The typing of a record, read off its constructor. -/
theorem hasType_record_iff {tag : Ref} {fields : List (String × Value)} {decl : Nominal}
    {args : List Ty} : HasType table ρ (.record tag fields) (.named decl args) ↔
      decl.ref = tag ∧ ∃ generic, table.constructor? tag = some generic ∧
        generic.generics.length = args.length ∧ ∀ p ∈ generic.params, ∃ v,
          fields.lookup p.1 = some v ∧
            HasType table ρ v (p.2.resolve (.ofLists generic.generics args)) := by
  constructor
  · intro h
    cases h with
    | @record _ _ _ _ generic inst htag hgeneric hinst hpresent h =>
      obtain ⟨hlength, rfl⟩ := Signature.instantiate_eq_ok.1 hinst
      simp only [List.forall_mem_map] at hpresent h
      refine ⟨htag, generic, hgeneric, hlength, fun p hp => ?_⟩
      obtain ⟨v, hv⟩ := Option.isSome_iff_exists.1 (hpresent p hp)
      exact ⟨v, hv, h p hp v hv⟩
  · rintro ⟨htag, generic, hgeneric, hlength, h⟩
    refine .record htag hgeneric (Signature.instantiate_eq_ok.2 ⟨hlength, rfl⟩) ?_ ?_ <;>
      simp only [List.forall_mem_map]
    · intro p hp
      obtain ⟨v, hv, -⟩ := h p hp
      rw [hv]
      rfl
    · intro p hp u hu
      obtain ⟨v, hv, htype⟩ := h p hp
      obtain rfl : v = u := Option.some.inj (hv.symm.trans hu)
      exact htype

theorem Table.WitnessesAgree.witnessField_eq (hagree : table.WitnessesAgree) {ref : Ref}
    {generic : Signature} {i : Nat} {g name : String} (hgeneric : table.constructor? ref = some generic)
    (hg : generic.generics[i]? = some g)
    (hname : ((table.matchFields.lookup ref).getD [])[i]? = some (some name)) :
    (witnessFields generic.generics generic.params)[i]? = some (some name) ∧
      generic.generics.Nodup := by
  cases hw : table.matchFields.lookup ref with
  | none => rw [hw] at hname; cases hname
  | some witnesses =>
    rw [hw, Option.getD_some] at hname
    have hne : generic.generics ≠ [] := by rintro h; rw [h] at hg; cases hg
    obtain ⟨rfl, hnd⟩ := hagree.witnessFields_eq hgeneric hne hw
    exact ⟨hname, hnd⟩

/-- The witness field of a generic holds a value of the type that stands for the generic. -/
theorem HasType.witness (hagree : table.WitnessesAgree) {decl : Nominal} {args : List Ty} {tag : Ref}
    {fields : List (String × Value)} (h : HasType table ρ (.record tag fields) (.named decl args))
    {i : Nat} {name : String} {arg : Ty}
    (hname : ((table.matchFields.lookup tag).getD [])[i]? = some (some name))
    (harg : args[i]? = some arg) :
    ∃ v, fields.lookup name = some v ∧ HasType table ρ v arg := by
  obtain ⟨-, generic, hgeneric, hlength, h⟩ := hasType_record_iff.1 h
  obtain ⟨hi, -⟩ := List.getElem?_eq_some_iff.1 harg
  obtain ⟨g, hg⟩ : ∃ g, generic.generics[i]? = some g :=
    ⟨_, List.getElem?_eq_getElem (hlength ▸ hi)⟩
  obtain ⟨hname, hnd⟩ := hagree.witnessField_eq hgeneric hg hname
  obtain ⟨v, hv, htype⟩ := h _ (mem_of_witnessFields hg hname)
  rw [Ty.resolve_var_ofLists hnd hlength hg harg] at htype
  exact ⟨v, hv, htype⟩

end

end UnionChecker
