import UnionChecker.Proofs.Binding.Records
import UnionChecker.Proofs.Check.Extension
/-!
# Rounds of inference

A round of inference only adds to what is known: a declaration that has a type keeps it, and a name
that has a value keeps it (`Later`, `later_inferenceRounds`). So whatever was found while a type was
inferred is still found when the package is checked (`Later.context_le`).
-/

namespace UnionChecker

open Syntax

/-! ## Written types depend on the names of types only -/

section

variable {Γ Γ' : Context} {frames frames' : Frames}

section

set_option linter.unusedSectionVars false

variable
  (htype : ∀ gs name args, Γ'.typeAt frames' gs name args = Γ.typeAt frames gs name args)
  (hfile : Γ'.file = Γ.file)
include htype hfile

mutual

theorem resolveType_congr : ∀ (gs : List String) (type : TypeExpr),
      Γ'.resolveType frames' gs type = Γ.resolveType frames gs type
  | gs, ⟨alternatives, _⟩ => by
    rw [Context.resolveType, Context.resolveType,
      resolveAlternatives_congr gs alternatives]

theorem resolveAlternative_congr : ∀ (gs : List String) (a : Alternative),
      Γ'.resolveAlternative frames' gs a = Γ.resolveAlternative frames gs a
  | _, .hole _ => by
    rw [Context.resolveAlternative, Context.resolveAlternative, Context.failure, hfile]
    rfl
  | gs, .named name args => by
    simp only [Context.resolveAlternative, htype, resolveTypes_congr gs args]
  | gs, .fn bound params result _ => by
    simp only [Context.resolveAlternative, resolveParams_congr _ params,
      resolveType_congr _ result]

theorem resolveAlternatives_congr : ∀ (gs : List String) (as : List Alternative),
      Γ'.resolveAlternatives frames' gs as = Γ.resolveAlternatives frames gs as
  | _, [] => rfl
  | gs, a :: as => by
    simp only [Context.resolveAlternatives, resolveAlternative_congr gs a,
      resolveAlternatives_congr gs as]

theorem resolveTypes_congr : ∀ (gs : List String) (types : List TypeExpr),
      Γ'.resolveTypes frames' gs types = Γ.resolveTypes frames gs types
  | _, [] => rfl
  | gs, type :: types => by
    simp only [Context.resolveTypes, resolveType_congr gs type,
      resolveTypes_congr gs types]

theorem resolveParams_congr : ∀ (gs : List String) (params : List (Option Name × TypeExpr)),
      Γ'.resolveParams frames' gs params = Γ.resolveParams frames gs params
  | _, [] => rfl
  | gs, (_, type) :: params => by
    simp only [Context.resolveParams, resolveType_congr gs type,
      resolveParams_congr gs params]

end

end

end

/-! ## Contexts that know more -/

/-- `Γ'` knows the types of more package-level names than `Γ`, and the same otherwise. -/
structure Context.Grows (Γ Γ' : Context) : Prop where
  file : Γ'.file = Γ.file
  others : ∃ values, Γ'.table = { Γ.table with values }
  pending : ∀ x ∈ Γ'.pending, x ∈ Γ.pending
  values : ∀ x ∉ Γ.pending, Γ'.table.values.lookup x = Γ.table.values.lookup x

namespace Context.Grows

variable {Γ Γ' : Context}

theorem exists_eq (h : Γ.Grows Γ') :
    ∃ values pending', Γ' = ⟨{ Γ.table with values }, Γ.file, pending'⟩ := by
  obtain ⟨values, hvalues⟩ := h.others
  exact ⟨values, Γ'.pending, by rw [← hvalues, ← h.file]⟩

theorem resolveType (h : Γ.Grows Γ') (frames : Frames) (generics : List String) (type : TypeExpr) :
    Γ'.resolveType frames generics type = Γ.resolveType frames generics type := by
  obtain ⟨values, pending', rfl⟩ := h.exists_eq
  have hsame : ∀ gs name args,
      Context.typeAt ⟨{ Γ.table with values }, Γ.file, pending'⟩ frames gs name args =
        Γ.typeAt frames gs name args := fun _ _ _ => rfl
  exact resolveType_congr hsame rfl generics type

theorem resolveValue (h : Γ.Grows Γ') (frames : Frames) (name : String) :
    Γ.resolveValue frames name = .error .pending ∨
      Γ'.resolveValue frames name = Γ.resolveValue frames name := by
  obtain ⟨values, pending', rfl⟩ := h.exists_eq
  simp only [Context.resolveValue, List.contains_iff_mem]
  cases frames.value? name with
  | some ty => exact .inr rfl
  | none =>
    cases Γ.table.fileValues.lookup (Γ.file, name) with
    | some imported => exact .inr rfl
    | none =>
      by_cases hname : name ∈ Γ.pending
      · exact .inl (if_pos hname)
      · have hname' : name ∉ pending' := fun hmem => hname (h.pending name hmem)
        have hvalue := h.values name hname
        simp only at hvalue
        simp [hname, hname', hvalue]

theorem le (h : Γ.Grows Γ') : Γ.Le Γ' where
  type {frames generics type _} ht := (h.resolveType frames generics type).trans ht
  value {frames name _} hv := by
    rcases h.resolveValue frames name with hpending | heq
    · cases hv.symm.trans hpending
    · exact heq.trans hv
  fields decl args := by
    obtain ⟨values, pending', rfl⟩ := h.exists_eq
    rfl
  matchFields := by
    obtain ⟨values, pending', rfl⟩ := h.exists_eq
    rfl

end Context.Grows

/-! ## Declarations without sugar -/

theorem desugarTopDeclaration_eq_ok {file : String} {d e : Declaration}
    (h : desugarTopDeclaration file d = .ok e) :
    ∃ value, desugarTerm file d.value = .ok value ∧
      e = ⟨d.name, d.type, none, value, d.span⟩ := by
  obtain ⟨name, type, shortCircuit, value, span⟩ := d
  cases shortCircuit with
  | some _ => cases h
  | none =>
    simp only [desugarTopDeclaration, desugarDeclaration] at h
    obtain ⟨value', hvalue, h⟩ := bind_eq_ok.1 h
    cases h
    exact ⟨value', hvalue, rfl⟩

namespace Binding

variable {table table' table'' : Table} {slots slots' slots'' : List Slot}

/-! ## Slots -/

/-- The name of a declaration is not taken by a type. -/
def Declarable (table : Table) (aliasNames : List String) (d : String × Declaration) : Prop :=
  table.hasPackageName d.2.name.text = false ∧ d.2.name.text ∉ aliasNames

theorem requireNew_eq_ok_iff {aliasNames seen : List String} {d : String × Declaration}
    {done : Unit} :
    Slot.requireNew table aliasNames d.1 d.2.name seen = .ok done ↔
      Declarable table aliasNames d ∧ d.2.name.text ∉ seen := by
  simp [Slot.requireNew, Declarable]

/-- There is a slot for each declaration iff their names are new and different. -/
theorem collectSlots_eq_ok_iff {aliasNames : List String} :
    ∀ {ds : List (String × Declaration)} {seen : List String} {slots : List Slot},
    collectSlots table aliasNames ds seen = .ok slots ↔
      (ds.map (·.2.name.text)).Nodup ∧
      (∀ d ∈ ds, Declarable table aliasNames d ∧ d.2.name.text ∉ seen) ∧
      slots = ds.map fun d => Slot.ofDeclaration d.1 d.2
  | [], _, _ => by simp [collectSlots, eq_comm]
  | d :: ds, seen, slots => by
    simp only [collectSlots, bind_eq_ok, requireNew_eq_ok_iff, collectSlots_eq_ok_iff, List.map_cons,
      List.nodup_cons, List.forall_mem_cons]
    constructor
    · rintro ⟨_, hnew, _, ⟨hnodup, hall, rfl⟩, h⟩
      cases h
      refine ⟨⟨fun hmem => ?_, hnodup⟩,
        ⟨hnew, fun d' hd' => ⟨(hall d' hd').1, fun hseen => ?_⟩⟩, rfl⟩
      · obtain ⟨d', hd', hname⟩ := List.mem_map.1 hmem
        exact (hall d' hd').2 (by simp [hname])
      · exact (hall d' hd').2 (List.mem_cons_of_mem _ hseen)
    · rintro ⟨⟨hfirst, hnodup⟩, ⟨hnew, hall⟩, rfl⟩
      refine ⟨(), hnew, _, ⟨hnodup, fun d' hd' => ⟨(hall d' hd').1, fun hseen => ?_⟩, rfl⟩, rfl⟩
      rcases List.mem_cons.1 hseen with hname | hseen
      · exact hfirst (List.mem_map.2 ⟨d', hd', hname⟩)
      · exact (hall d' hd').2 hseen

theorem name_annotate (table : Table) (s : Slot) : (s.annotate table).name = s.name := by
  unfold Slot.annotate
  split
  · split
    · rfl
    · split <;> rfl
  · rfl

theorem Slot.bound_result_eq_ok (s : Slot) {d : Declaration} {ty : Ty} :
    s.bound.result = .ok (d, ty) ↔ s.state = .typed d ty := by
  unfold Slot.bound
  cases s.state <;> simp

/-! ## What a later state knows -/

/-- A slot after some rounds. -/
structure Slot.Later (s s' : Slot) : Prop where
  file : s'.file = s.file
  name : s'.name = s.name
  typed : ∀ {d ty}, s.state = .typed d ty → s'.state = .typed d ty

theorem Slot.Later.refl (s : Slot) : s.Later s := ⟨rfl, rfl, fun h => h⟩

theorem Slot.Later.trans {s s' s'' : Slot} (h : s.Later s') (h' : s'.Later s'') : s.Later s'' :=
  ⟨h'.file.trans h.file, h'.name.trans h.name, fun hs => h'.typed (h.typed hs)⟩

theorem Slot.later_attempt (s : Slot) (pending : List String) (final : Bool) :
    s.Later (s.attempt table pending final) := by
  unfold Slot.attempt
  split
  · rename_i hs
    split
    · exact ⟨rfl, rfl, fun h => by rw [hs] at h; cases h⟩
    · split
      · exact .refl s
      · exact ⟨rfl, rfl, fun h => by rw [hs] at h; cases h⟩
  · exact .refl s

theorem mem_untypedNames {x : String} :
    x ∈ untypedNames slots ↔ ∃ s ∈ slots, s.isTyped = false ∧ s.name.text = x := by
  simp [untypedNames, and_assoc]

theorem Slot.isTyped_iff {s : Slot} : s.isTyped = true ↔ ∃ d ty, s.state = .typed d ty := by
  unfold Slot.isTyped
  split
  · rename_i d ty hs
    exact ⟨fun _ => ⟨d, ty, hs⟩, fun _ => rfl⟩
  · rename_i hs
    exact ⟨fun h => (nomatch h), fun ⟨d, ty, h⟩ => (hs d ty h).elim⟩

/-- With a name that has a type, a slot has had its type before. -/
theorem typed_before (h : List.Forall₂ Slot.Later slots slots') {s' : Slot} (hs' : s' ∈ slots')
    (hname : s'.name.text ∉ untypedNames slots) :
    ∃ s ∈ slots, s.Later s' ∧ s.isTyped = true := by
  obtain ⟨s, hs, hlater⟩ := forall₂_mem_left h.flip hs'
  refine ⟨s, hs, hlater, ?_⟩
  by_contra hne
  exact hname (mem_untypedNames.2 ⟨s, hs, by simpa using hne, by rw [hlater.name]⟩)

/-- Names that are without a type later have been so before. -/
theorem untypedNames_subset (h : List.Forall₂ Slot.Later slots slots') {x : String}
    (hx : x ∈ untypedNames slots') : x ∈ untypedNames slots := by
  by_contra hne
  obtain ⟨s', hs', huntyped, rfl⟩ := mem_untypedNames.1 hx
  obtain ⟨s, -, hlater, htyped⟩ := typed_before h hs' hne
  obtain ⟨d, ty, hstate⟩ := Slot.isTyped_iff.1 htyped
  rw [Slot.isTyped_iff.2 ⟨d, ty, hlater.typed hstate⟩] at huntyped
  cases huntyped

/-- The second table and slots are what the first ones may become in some rounds. -/
structure Later (table : Table) (slots : List Slot) (table' : Table) (slots' : List Slot) :
    Prop where
  others : ∃ values, table' = { table with values }
  values : ∀ x ∉ untypedNames slots, table'.values.lookup x = table.values.lookup x
  slots : List.Forall₂ Slot.Later slots slots'

theorem Later.trans (h : Later table slots table' slots') (h' : Later table' slots' table'' slots'') :
    Later table slots table'' slots'' := by
  obtain ⟨values, rfl⟩ := h.others
  obtain ⟨values', rfl⟩ := h'.others
  refine ⟨⟨values', rfl⟩, fun x hx => ?_, ?_⟩
  · exact (h'.values x fun hx' => hx (untypedNames_subset h.slots hx')).trans (h.values x hx)
  · exact forall₂_comp h.slots h'.slots fun _ _ _ _ _ _ hs hs' => hs.trans hs'

/-- A later state knows more, with the names pending that it has no type for. -/
theorem Later.grows (h : Later table slots table' slots') (file : String) :
    Context.Grows ⟨table, file, untypedNames slots⟩ ⟨table', file, untypedNames slots'⟩ :=
  ⟨rfl, h.others, fun _ => untypedNames_subset h.slots, h.values⟩

/-- What is found while some names are without a type is still found later. -/
theorem Later.context_le (h : Later table slots table' slots') (file : String) :
    Context.Le ⟨table, file, untypedNames slots⟩ ⟨table', file, []⟩ :=
  Context.Grows.le ⟨rfl, h.others, fun _ hx => (List.not_mem_nil hx).elim, h.values⟩

/-! ## Recording types -/

/-- The types of slots are in the table. -/
def Recorded (table : Table) (slots : List Slot) : Prop :=
  ∀ s ∈ slots, ∀ d ty, s.state = .typed d ty → table.values.lookup s.name.text = some ty

theorem recordSlots_values (table : Table) (slots : List Slot) :
    ∃ values, recordSlots table slots = { table with values } := by
  refine foldl_invariant (I := fun t : Table => ∃ values, t = { table with values })
    (fun t s _ ht => ?_) ⟨table.values, rfl⟩
  obtain ⟨values, rfl⟩ := ht
  split
  · exact ⟨_, rfl⟩
  · exact ⟨values, rfl⟩

theorem later_recordSlots (hrecorded : Recorded table slots)
    (h : List.Forall₂ Slot.Later slots slots') :
    Later table slots (recordSlots table slots') slots' := by
  refine ⟨recordSlots_values table slots', fun x hx => ?_, h⟩
  refine foldl_invariant (I := fun t : Table => t.values.lookup x = table.values.lookup x)
    (fun t s' hs' ht => ?_) rfl
  split
  · rename_i d ty hstate
    by_cases hname : x = s'.name.text
    · -- the slot was typed before, and its type is in the table already
      subst hname
      obtain ⟨s, hs, hlater, htyped⟩ := typed_before h hs' hx
      obtain ⟨d', ty', hstate'⟩ := Slot.isTyped_iff.1 htyped
      cases hstate.symm.trans (hlater.typed hstate')
      rw [lookup_put_self, hlater.name, hrecorded s hs d ty hstate']
    · rw [lookup_put_of_ne hname]
      exact ht
  · exact ht

theorem recorded_recordSlots : ∀ {slots : List Slot} (table : Table),
    (slots.map (·.name.text)).Nodup → Recorded (recordSlots table slots) slots
  | [], _, _ => by simp [Recorded]
  | s :: slots, table, hnd => by
    rw [List.map_cons, List.nodup_cons] at hnd
    rw [recordSlots, List.foldl_cons]
    refine List.forall_mem_cons.2 ⟨fun d ty hs => ?_, recorded_recordSlots _ hnd.2⟩
    -- no later slot has the name of the first one
    refine foldl_invariant (I := fun t : Table => t.values.lookup s.name.text = some ty)
      (fun t s' hs' ht => ?_) ?_
    · split
      · have hne : s.name.text ≠ s'.name.text := fun he =>
          hnd.1 (he ▸ List.mem_map_of_mem hs')
        rw [lookup_put_of_ne hne]
        exact ht
      · exact ht
    · simp only [hs]
      exact lookup_put_self _ _ _

/-! ## All rounds -/

theorem later_attempts (table : Table) (pending : List String) (final : Bool) (slots : List Slot) :
    List.Forall₂ Slot.Later slots (slots.map (Slot.attempt table pending final)) := by
  rw [List.forall₂_map_right_iff, List.forall₂_same]
  exact fun s _ => s.later_attempt pending final

theorem names_attempts (table : Table) (pending : List String) (final : Bool) (slots : List Slot) :
    (slots.map (Slot.attempt table pending final)).map (·.name.text) = slots.map (·.name.text) := by
  rw [List.map_map]
  refine List.map_congr_left fun s _ => ?_
  exact congrArg Name.text (s.later_attempt pending final).name

/-- **Rounds only add to what is known.** -/
theorem later_inferenceRounds : ∀ (rounds : Nat) {table : Table} {slots : List Slot},
    Recorded table slots → (slots.map (·.name.text)).Nodup →
    Later table slots (inferenceRounds rounds table slots).1 (inferenceRounds rounds table slots).2
  | 0, table, slots, _, _ => ⟨⟨table.values, rfl⟩, fun _ _ => rfl, later_attempts ..⟩
  | rounds + 1, table, slots, hrecorded, hnd => by
    simp only [inferenceRounds]
    split
    · have hround := later_attempts table (untypedNames slots) false slots
      rw [← names_attempts table (untypedNames slots) false] at hnd
      exact (later_recordSlots hrecorded hround).trans
        (later_inferenceRounds rounds (recorded_recordSlots table hnd) hnd)
    · exact ⟨⟨table.values, rfl⟩, fun _ _ => rfl, later_attempts ..⟩

end Binding

end UnionChecker
