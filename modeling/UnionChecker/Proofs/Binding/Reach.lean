import Mathlib.Data.List.Induction
import Mathlib.Data.List.Nodup
import UnionChecker.Proofs.Binding.Rounds
import UnionChecker.Proofs.Binding.Types
import UnionChecker.Syntax.Construct
/-!
# What inference reaches

Declarations without a written type can be typed one after the other, each against what the ones
before it give (`Derives`), and there may be many orders to do so. The rounds of inference try all
waiting declarations at once. They reach whatever some order reaches, at the same types, and each
declaration that they type is reached by one.

The reason is that inference is monotone in what is known (`Context.Grows.infers`): in a context
that knows more it comes to the same, be it a type or a failure, unless it failed for a name that
was not known. So a failure that ends a declaration would end it at any later time, and the slots at
the end are what a last attempt at the end makes of the slots at the start (`Settles.eq_attempts`).
-/

namespace UnionChecker

open Syntax
open Check (inferDeclaration atTopLevel)

/-! ## Inference in a context that knows more -/

namespace Context.Grows

variable {Γ Γ' : Context}

/-- What fails for a name that is not known yet may come to something in a larger context. -/
theorem repeats (h : Γ.Grows Γ') : Γ.Repeats (fun f => f.isUndetermined = true) Γ' where
  failure cause span := .inr (by rw [Context.failure, Context.failure, h.file])
  relabel origin f hf := by
    unfold Check.residualFailure
    split
    · exact hf
    · exact hf
  type frames generics type := .inr (h.resolveType frames generics type)
  identifier name frames := by
    rcases h.resolveValue frames name.text with hpending | heq
    · refine .inl ⟨Γ.failure (.undetermined name.text) name.span, ?_, rfl⟩
      show (Check.identifier Γ name frames).1 = _
      simp only [Check.identifier, hpending]
    · refine .inr ?_
      show Check.identifier Γ' name frames = Check.identifier Γ name frames
      simp only [Check.identifier, heq, Context.failure, h.file]
  fields decl args := by
    obtain ⟨values, pending', rfl⟩ := h.exists_eq
    rfl
  tests t := by
    obtain ⟨values, pending', rfl⟩ := h.exists_eq
    rfl

/-- **Inference is monotone in what is known.** -/
theorem infers (h : Γ.Grows Γ') (d : Declaration) :
    (∃ f, atTopLevel (inferDeclaration Γ d) = .error f ∧ f.isUndetermined = true) ∨
      atTopLevel (inferDeclaration Γ' d) = atTopLevel (inferDeclaration Γ d) := by
  rcases Check.repeats_inferDeclaration h.repeats d .initial with hfails | heq
  · exact .inl hfails
  · exact .inr (congrArg Prod.fst heq)

end Context.Grows

namespace Binding

variable {table table' start : Table} {slots slots' declared : List Slot} {s : Slot}
  {pending pending' : List String} {d : Declaration} {ty : Ty} {n : Nat}

/-! ## One attempt -/

/-- Whether the type is to be inferred. -/
def Slot.isWaiting (s : Slot) : Bool :=
  match s.state with
  | .waiting _ => true
  | _ => false

/-- The type of a waiting slot can be inferred against what is known. -/
def Slot.Infers (table : Table) (pending : List String) (s : Slot) (d : Declaration) (ty : Ty) :
    Prop :=
  s.state = .waiting d ∧ atTopLevel (inferDeclaration ⟨table, s.file, pending⟩ d) = .ok ty

/-- What an attempt can make of a slot. -/
inductive Slot.Outcome (table : Table) (pending : List String) (final : Bool) (s : Slot) :
    Slot → Prop
  /-- It was not waiting. -/
  | settled (h : s.isWaiting = false) : Outcome table pending final s s
  | typed {d : Declaration} {ty : Ty} (h : s.Infers table pending d ty) :
      Outcome table pending final s { s with state := .typed d ty }
  | waits {d : Declaration} {f : Failure} (hs : s.state = .waiting d)
      (hf : atTopLevel (inferDeclaration ⟨table, s.file, pending⟩ d) = .error f)
      (hundetermined : f.isUndetermined = true) (hfinal : final = false) :
      Outcome table pending final s s
  | fails {d : Declaration} {f : Failure} (hs : s.state = .waiting d)
      (hf : atTopLevel (inferDeclaration ⟨table, s.file, pending⟩ d) = .error f)
      (h : f.isUndetermined = false ∨ final = true) :
      Outcome table pending final s { s with state := .failed f }

theorem outcome_attempt (table : Table) (pending : List String) (final : Bool) (s : Slot) :
    Slot.Outcome table pending final s (s.attempt table pending final) := by
  unfold Slot.attempt
  split
  · rename_i d hs
    split
    · exact .typed ⟨hs, ‹_›⟩
    · rename_i f hf
      split
      · rename_i h
        rw [Bool.and_eq_true, Bool.not_eq_true'] at h
        exact .waits hs hf h.1 h.2
      · rename_i h
        rw [Bool.and_eq_true, Bool.not_eq_true', not_and_or, Bool.not_eq_true,
          Bool.not_eq_false] at h
        exact .fails hs hf h
  · rename_i hs
    refine .settled ?_
    unfold Slot.isWaiting
    split
    · rename_i d hd
      exact (hs d hd).elim
    · rfl

theorem Slot.Infers.grows (h : s.Infers table pending d ty)
    (hgrows : Context.Grows ⟨table, s.file, pending⟩ ⟨table', s.file, pending'⟩) :
    s.Infers table' pending' d ty := by
  refine ⟨h.1, ?_⟩
  rcases hgrows.infers d with ⟨f, hf, -⟩ | heq
  · cases h.2.symm.trans hf
  · exact heq.trans h.2

theorem attempt_of_infers (h : s.Infers table pending d ty) (final : Bool) :
    s.attempt table pending final = { s with state := .typed d ty } := by
  simp only [Slot.attempt, h.1, h.2]

theorem attempt_of_not_waiting (h : s.isWaiting = false) (final : Bool) :
    s.attempt table pending final = s := by
  obtain ⟨file, name, span, state⟩ := s
  cases state with
  | waiting d => cases h
  | failed f => rfl
  | typed d ty => rfl

theorem typed_attempt_iff {final : Bool} :
    (s.attempt table pending final).state = .typed d ty ↔
      s.state = .typed d ty ∨ s.Infers table pending d ty := by
  constructor
  · intro h
    have houtcome := outcome_attempt table pending final s
    generalize s.attempt table pending final = s' at h houtcome
    cases houtcome with
    | settled hs => exact .inl h
    | typed hinfers =>
      cases h
      exact .inr hinfers
    | waits hs hf _ _ => exact .inl h
    | fails hs hf _ => cases h
  · rintro (h | h)
    · rw [attempt_of_not_waiting (by rw [Slot.isWaiting, h])]
      exact h
    · rw [attempt_of_infers h]

theorem isTyped_attempt_iff {final : Bool} : (s.attempt table pending final).isTyped = true ↔
    s.isTyped = true ∨ ∃ d ty, s.Infers table pending d ty := by
  simp only [Slot.isTyped_iff, typed_attempt_iff, exists_or]

theorem isWaiting_of_attempt {final : Bool}
    (h : (s.attempt table pending final).isWaiting = true) :
    s.attempt table pending final = s := by
  have houtcome := outcome_attempt table pending final s
  generalize s.attempt table pending final = s' at h houtcome
  cases houtcome with
  | settled _ => rfl
  | typed _ => cases h
  | waits _ _ _ _ => rfl
  | fails _ _ _ => cases h

/-- An attempt that is not the last one does not change what a later one comes to. -/
theorem attempt_attempt
    (hgrows : Context.Grows ⟨table, s.file, pending⟩ ⟨table', s.file, pending'⟩) :
    (s.attempt table pending false).attempt table' pending' true =
      s.attempt table' pending' true := by
  have houtcome := outcome_attempt table pending false s
  generalize s.attempt table pending false = s' at houtcome
  cases houtcome with
  | settled _ => rfl
  | typed h => rw [attempt_of_infers (h.grows hgrows), attempt_of_not_waiting rfl]
  | waits _ _ _ _ => rfl
  | fails hs hf h =>
    rw [attempt_of_not_waiting rfl]
    rcases hgrows.infers _ with ⟨f', hf', hundetermined⟩ | heq
    · -- a failure for a name that is not known yet would not have ended the slot
      cases hf.symm.trans hf'
      cases (h.resolve_right (by simp)).symm.trans hundetermined
    · simp [Slot.attempt, hs, heq, hf]

/-! ## Rounds until nothing is inferred -/

theorem countP_lt_countP {α : Type} {p q : α → Bool} {l : List α} {a : α}
    (h : ∀ x ∈ l, p x = true → q x = true) (ha : a ∈ l) (hq : q a = true) (hp : p a = false) :
    l.countP p < l.countP q := by
  obtain ⟨before, after, rfl⟩ := List.append_of_mem ha
  have hbefore : before.countP p ≤ before.countP q :=
    List.countP_mono_left fun x hx => h x (List.mem_append_left _ hx)
  have hafter : after.countP p ≤ after.countP q :=
    List.countP_mono_left fun x hx => h x (List.mem_append_right _ (List.mem_cons_of_mem _ hx))
  simp only [List.countP_append, List.countP_cons, hq, hp]
  simp only [if_true, Bool.false_eq_true, if_false]
  omega

/-- A round types a slot iff the type of one can be inferred. -/
theorem progress_iff :
    (untypedNames (slots.map (Slot.attempt table (untypedNames slots) false))).length <
      (untypedNames slots).length ↔
    ∃ s ∈ slots, ∃ d ty, s.Infers table (untypedNames slots) d ty := by
  have hlength : ∀ slots : List Slot,
      (untypedNames slots).length = slots.countP fun s => !s.isTyped := fun slots => by
    simp [untypedNames, List.countP_eq_length_filter]
  rw [hlength, hlength slots, List.countP_map]
  constructor
  · intro hlt
    by_contra hnone
    refine absurd hlt (Nat.not_lt.2 (List.countP_mono_left fun s hs huntyped => ?_))
    simp only [Function.comp, Bool.not_eq_true', ← Bool.not_eq_true, isTyped_attempt_iff]
      at huntyped ⊢
    exact fun h => h.elim huntyped fun h => hnone ⟨s, hs, h⟩
  · rintro ⟨s, hs, d, ty, hinfers⟩
    refine countP_lt_countP (fun s' _ huntyped => ?_) hs ?_ ?_
    · simp only [Function.comp, Bool.not_eq_true', ← Bool.not_eq_true, isTyped_attempt_iff]
        at huntyped ⊢
      exact fun h => huntyped (.inl h)
    · simp [Slot.isTyped, hinfers.1]
    · simp only [Function.comp, attempt_of_infers hinfers]
      rfl

/-- Inference in `n` rounds: it ends when nothing waits, or with a round that infers no type. -/
inductive Settles : Nat → Table → List Slot → Table → List Slot → Prop
  | done {table : Table} {slots : List Slot} (h : ∀ s ∈ slots, s.isWaiting = false) :
      Settles 0 table slots table slots
  | stuck {table : Table} {slots : List Slot} (hwaits : ∃ s ∈ slots, s.isWaiting = true)
      (h : ∀ s ∈ slots, ∀ d ty, ¬ s.Infers table (untypedNames slots) d ty) :
      Settles 1 table slots table (slots.map (Slot.attempt table (untypedNames slots) true))
  | next {n : Nat} {table table' : Table} {slots slots' attempted : List Slot}
      (hround : attempted = slots.map (Slot.attempt table (untypedNames slots) false))
      (h : ∃ s ∈ slots, ∃ d ty, s.Infers table (untypedNames slots) d ty)
      (hrest : Settles n (recordSlots table attempted) attempted table' slots') :
      Settles (n + 1) table slots table' slots'

theorem settles_of_not_infers
    (h : ∀ s ∈ slots, ∀ d ty, ¬ s.Infers table (untypedNames slots) d ty) :
    ∃ n, n ≤ slots.countP Slot.isWaiting ∧ Settles n table slots table
      (slots.map (Slot.attempt table (untypedNames slots) true)) := by
  by_cases hwaits : ∃ s ∈ slots, s.isWaiting = true
  · exact ⟨1, List.countP_pos_iff.2 hwaits, .stuck hwaits h⟩
  · have hsettled : ∀ s ∈ slots, s.isWaiting = false := by simpa using hwaits
    have hsame : slots.map (Slot.attempt table (untypedNames slots) true) = slots :=
      (List.map_congr_left fun s hs => attempt_of_not_waiting (hsettled s hs) true).trans
        (List.map_id slots)
    rw [hsame]
    exact ⟨0, Nat.zero_le _, .done hsettled⟩

/-- A round that infers a type leaves fewer slots waiting. -/
theorem countP_isWaiting_lt (h : ∃ s ∈ slots, ∃ d ty, s.Infers table pending d ty) :
    (slots.map (Slot.attempt table pending false)).countP Slot.isWaiting <
      slots.countP Slot.isWaiting := by
  obtain ⟨s, hs, d, ty, hinfers⟩ := h
  rw [List.countP_map]
  refine countP_lt_countP (fun s' _ hwaits => ?_) hs ?_ ?_
  · rwa [Function.comp, isWaiting_of_attempt hwaits] at hwaits
  · simp [Slot.isWaiting, hinfers.1]
  · simp [attempt_of_infers hinfers, Slot.isWaiting]

/-- **As many rounds as there are waiting slots are enough.** -/
theorem settles_inferenceRounds : ∀ (rounds : Nat) {table : Table} {slots : List Slot},
    slots.countP Slot.isWaiting ≤ rounds →
    ∃ n, n ≤ slots.countP Slot.isWaiting ∧ Settles n table slots
      (inferenceRounds rounds table slots).1 (inferenceRounds rounds table slots).2
  | 0, table, slots, h => by
    have hsettled : ∀ s ∈ slots, ¬ s.isWaiting = true := List.countP_eq_zero.1 (Nat.le_zero.1 h)
    refine settles_of_not_infers fun s hs d ty hinfers => hsettled s hs ?_
    simp [Slot.isWaiting, hinfers.1]
  | rounds + 1, table, slots, h => by
    simp only [inferenceRounds]
    by_cases hprogress : ∃ s ∈ slots, ∃ d ty, s.Infers table (untypedNames slots) d ty
    · rw [if_pos (progress_iff.2 hprogress)]
      have hlt := countP_isWaiting_lt hprogress
      obtain ⟨n, hn, hsettles⟩ := @settles_inferenceRounds rounds (recordSlots table _) _
        (Nat.le_of_lt_succ (Nat.lt_of_lt_of_le hlt h))
      exact ⟨n + 1, Nat.lt_of_le_of_lt hn hlt, .next rfl hprogress hsettles⟩
    · rw [if_neg (mt progress_iff.1 hprogress)]
      exact settles_of_not_infers fun s hs d ty hinfers => hprogress ⟨s, hs, d, ty, hinfers⟩

/-- Later rounds would change nothing. -/
theorem Settles.eq_inferenceRounds (h : Settles n table slots table' slots') :
    inferenceRounds n table slots = (table', slots') := by
  induction h with
  | done h =>
    rw [inferenceRounds, List.map_congr_left fun s hs => attempt_of_not_waiting (h s hs) true,
      List.map_id']
  | stuck hwaits h =>
    simp only [inferenceRounds]
    refine if_neg (mt progress_iff.1 ?_)
    rintro ⟨s, hs, d, ty, hinfers⟩
    exact h s hs d ty hinfers
  | next hround h hrest ih =>
    subst hround
    simp only [inferenceRounds]
    rw [if_pos (progress_iff.2 h), ih]

theorem Settles.later (h : Settles n table slots table' slots') (hrecorded : Recorded table slots)
    (hnd : (slots.map (·.name.text)).Nodup) : Later table slots table' slots' := by
  have hlater := later_inferenceRounds n hrecorded hnd
  rwa [h.eq_inferenceRounds] at hlater

theorem Settles.recorded (h : Settles n table slots table' slots')
    (hrecorded : Recorded table slots) (hnd : (slots.map (·.name.text)).Nodup) :
    Recorded table' slots' := by
  induction h with
  | done h => exact hrecorded
  | stuck hwaits h =>
    intro s' hs' d ty hstate
    obtain ⟨s, hs, rfl⟩ := List.mem_map.1 hs'
    rcases typed_attempt_iff.1 hstate with htyped | hinfers
    · rw [(s.later_attempt _ true).name]
      exact hrecorded s hs d ty htyped
    · exact (h s hs d ty hinfers).elim
  | next hround h hrest ih =>
    subst hround
    rw [← names_attempts] at hnd
    exact ih (recorded_recordSlots _ hnd) hnd

theorem untypedNames_attempts {final : Bool}
    (h : ∀ s ∈ slots, ∀ d ty, ¬ s.Infers table pending d ty) :
    untypedNames (slots.map (Slot.attempt table pending final)) = untypedNames slots := by
  have hsame : ∀ s ∈ slots, (s.attempt table pending final).isTyped = s.isTyped := by
    intro s hs
    rw [Bool.eq_iff_iff, isTyped_attempt_iff]
    exact or_iff_left fun ⟨d, ty, hinfers⟩ => h s hs d ty hinfers
  have hfilter : slots.filter ((fun s => !s.isTyped) ∘ Slot.attempt table pending final) =
      slots.filter fun s => !s.isTyped := List.filter_congr fun s hs => congrArg not (hsame s hs)
  rw [untypedNames, List.filter_map, List.map_map, hfilter]
  exact List.map_congr_left fun s _ => congrArg Name.text (s.later_attempt pending final).name

/-- **What the rounds come to is what a last attempt at their end makes of the slots at the
start.** -/
theorem Settles.eq_attempts (h : Settles n table slots table' slots')
    (hrecorded : Recorded table slots) (hnd : (slots.map (·.name.text)).Nodup) :
    slots' = slots.map (Slot.attempt table' (untypedNames slots') true) := by
  induction h with
  | done h =>
    rw [List.map_congr_left fun s hs => attempt_of_not_waiting (h s hs) true, List.map_id']
  | stuck hwaits h => rw [untypedNames_attempts h]
  | next hround h hrest ih =>
    have hlater := (Settles.next hround h hrest).later hrecorded hnd
    subst hround
    have hnd' := hnd
    rw [← names_attempts] at hnd'
    refine (ih (recorded_recordSlots _ hnd') hnd').trans ?_
    rw [List.map_map]
    exact List.map_congr_left fun s _ => attempt_attempt (hlater.grows s.file)

/-! ## One declaration after the other -/

/-- A table with the types of further slots. -/
def assume (table : Table) (known : List (Slot × Ty)) : Table :=
  { table with values := known.foldl (fun values e => put e.1.name.text e.2 values) table.values }

/-- The names that are without a type when the types of further slots are known. -/
def stillPending (slots : List Slot) (known : List (Slot × Ty)) : List String :=
  (untypedNames slots).filter fun x => !known.any fun e => e.1.name.text == x

/-- Waiting slots whose types are inferred one after the other, each against the types of those
before it, with all other names pending. -/
inductive Derives (table : Table) (slots : List Slot) : List (Slot × Ty) → Prop
  | nil : Derives table slots []
  | snoc {known : List (Slot × Ty)} {s : Slot} {d : Declaration} {ty : Ty}
      (h : Derives table slots known) (hs : s ∈ slots)
      (hinfers : s.Infers (assume table known) (stillPending slots known) d ty) :
      Derives table slots (known ++ [(s, ty)])

variable {known : List (Slot × Ty)}

theorem mem_stillPending {x : String} : x ∈ stillPending slots known ↔
    x ∈ untypedNames slots ∧ ∀ e ∈ known, e.1.name.text ≠ x := by
  simp [stillPending]

theorem assume_append (known known' : List (Slot × Ty)) :
    assume table (known ++ known') = assume (assume table known) known' := by
  simp [assume]

theorem lookup_assume_of_not_mem {x : String} (hx : ∀ e ∈ known, e.1.name.text ≠ x) :
    (assume table known).values.lookup x = table.values.lookup x := by
  refine foldl_invariant (I := fun values : List (String × Ty) =>
    values.lookup x = table.values.lookup x) (fun values e he h => ?_) rfl
  rw [lookup_put_of_ne (hx e he).symm]
  exact h

theorem exists_lookup_assume {x : String} (hx : ∃ e ∈ known, e.1.name.text = x) :
    ∃ e ∈ known, e.1.name.text = x ∧ (assume table known).values.lookup x = some e.2 := by
  induction known using List.reverseRecOn with
  | nil => simp at hx
  | append_singleton known e ih =>
    rw [assume_append]
    by_cases he : e.1.name.text = x
    · refine ⟨e, by simp, he, ?_⟩
      rw [← he]
      exact lookup_put_self _ _ _
    · have hknown : ∃ e ∈ known, e.1.name.text = x := by simpa [he] using hx
      obtain ⟨e', he', hname, hlookup⟩ := ih hknown
      refine ⟨e', List.mem_append_left _ he', hname, ?_⟩
      rw [lookup_assume_of_not_mem (by simpa using he)]
      exact hlookup

/-! ## Whatever can be derived is reached -/

theorem Settles.names (h : Settles n table slots table' slots') (hrecorded : Recorded table slots)
    (hnd : (slots.map (·.name.text)).Nodup) :
    slots'.map (·.name.text) = slots.map (·.name.text) := by
  rw [h.eq_attempts hrecorded hnd]
  exact names_attempts _ _ _ slots

/-- A state that has the types of some slots knows what these types let one know. -/
theorem grows_of_reached (hlater : Later table slots table' slots')
    (hrecorded : Recorded table' slots') (hnd : (slots'.map (·.name.text)).Nodup)
    (hknown : ∀ e ∈ known, ∃ d, { e.1 with state := .typed d e.2 } ∈ slots') (file : String) :
    Context.Grows ⟨assume table known, file, stillPending slots known⟩
      ⟨table', file, untypedNames slots'⟩ := by
  have hvalue : ∀ e ∈ known, table'.values.lookup e.1.name.text = some e.2 := by
    intro e he
    obtain ⟨d, hmem⟩ := hknown e he
    exact hrecorded _ hmem d e.2 rfl
  have htyped : ∀ e ∈ known, e.1.name.text ∉ untypedNames slots' := by
    intro e he hx
    obtain ⟨s', hs', huntyped, hname⟩ := mem_untypedNames.1 hx
    obtain ⟨d, hmem⟩ := hknown e he
    obtain rfl := List.inj_on_of_nodup_map hnd hs' hmem hname
    cases huntyped
  refine ⟨rfl, ?_, fun x hx => ?_, fun x hx => ?_⟩
  · obtain ⟨values, rfl⟩ := hlater.others
    exact ⟨values, rfl⟩
  · exact mem_stillPending.2 ⟨untypedNames_subset hlater.slots hx, fun e he hname =>
      htyped e he (hname ▸ hx)⟩
  · by_cases hmem : ∃ e ∈ known, e.1.name.text = x
    · obtain ⟨e, he, rfl, hlookup⟩ := exists_lookup_assume hmem
      exact (hvalue e he).trans hlookup.symm
    · have hnone : ∀ e ∈ known, e.1.name.text ≠ x := fun e he hname => hmem ⟨e, he, hname⟩
      refine (hlater.values x fun hx' => hx ?_).trans (lookup_assume_of_not_mem hnone).symm
      exact mem_stillPending.2 ⟨hx', hnone⟩

/-- **Whatever can be derived is reached, at the same type.** -/
theorem Derives.reached (hd : Derives table slots known) (h : Settles n table slots table' slots')
    (hrecorded : Recorded table slots) (hnd : (slots.map (·.name.text)).Nodup) :
    ∀ e ∈ known, ∃ d, e.1.state = .waiting d ∧ { e.1 with state := .typed d e.2 } ∈ slots' := by
  induction hd with
  | nil => simp
  | @snoc known s d ty hd hs hinfers ih =>
    have hnd' : (slots'.map (·.name.text)).Nodup := by
      rw [h.names hrecorded hnd]
      exact hnd
    have hgrows := grows_of_reached (h.later hrecorded hnd) (h.recorded hrecorded hnd) hnd'
      (fun e he => (ih e he).imp fun _ => And.right) s.file
    -- at the end the slot would still be inferred at this type, and so it has been
    have hattempt := attempt_of_infers (hinfers.grows hgrows) true
    have hmem := List.mem_map_of_mem (f := Slot.attempt table' (untypedNames slots') true) hs
    rw [← h.eq_attempts hrecorded hnd, hattempt] at hmem
    intro e he
    rcases List.mem_append.1 he with he | he
    · exact ih e he
    · obtain rfl := List.mem_singleton.1 he
      exact ⟨d, hinfers.1, hmem⟩

/-! ## Whatever is reached can be derived -/

/-- What a round infers. -/
def inferred (table : Table) (slots : List Slot) : List (Slot × Ty) :=
  slots.filterMap fun s =>
    match s.state with
    | .waiting d =>
      (atTopLevel (inferDeclaration ⟨table, s.file, untypedNames slots⟩ d)).toOption.map (s, ·)
    | _ => none

theorem mem_inferred {e : Slot × Ty} : e ∈ inferred table slots ↔
    e.1 ∈ slots ∧ ∃ d, e.1.Infers table (untypedNames slots) d e.2 := by
  rw [inferred, List.mem_filterMap]
  constructor
  · rintro ⟨s, hs, h⟩
    split at h
    · rename_i d hd
      cases hty : atTopLevel (inferDeclaration ⟨table, s.file, untypedNames slots⟩ d) with
      | error f => simp [hty, Except.toOption] at h
      | ok ty =>
        simp only [hty, Except.toOption, Option.map_some, Option.some.injEq] at h
        subst h
        exact ⟨hs, d, hd, hty⟩
    · cases h
  · rintro ⟨hs, d, hd, hty⟩
    exact ⟨e.1, hs, by simp [hd, hty, Except.toOption]⟩

theorem untyped_of_mem_inferred {e : Slot × Ty} (he : e ∈ inferred table slots) :
    e.1.name.text ∈ untypedNames slots := by
  obtain ⟨hs, d, hinfers⟩ := mem_inferred.1 he
  exact mem_untypedNames.2 ⟨e.1, hs, by simp [Slot.isTyped, hinfers.1], rfl⟩

/-- A round types the names that it infers a type for. -/
theorem mem_untypedNames_round (hnd : (slots.map (·.name.text)).Nodup) {x : String} :
    x ∈ untypedNames (slots.map (Slot.attempt table (untypedNames slots) false)) ↔
      x ∈ untypedNames slots ∧ ∀ e ∈ inferred table slots, e.1.name.text ≠ x := by
  constructor
  · intro hx
    refine ⟨untypedNames_subset (later_attempts ..) hx, fun e he hname => ?_⟩
    obtain ⟨_, hs', huntyped, rfl⟩ := mem_untypedNames.1 hx
    obtain ⟨s, hs, rfl⟩ := List.mem_map.1 hs'
    obtain ⟨he, d, hinfers⟩ := mem_inferred.1 he
    rw [(s.later_attempt _ false).name] at hname
    obtain rfl := List.inj_on_of_nodup_map hnd he hs hname
    rw [attempt_of_infers hinfers] at huntyped
    cases huntyped
  · rintro ⟨hx, hnone⟩
    obtain ⟨s, hs, huntyped, rfl⟩ := mem_untypedNames.1 hx
    refine mem_untypedNames.2 ⟨_, List.mem_map_of_mem hs, ?_,
      congrArg Name.text (s.later_attempt _ false).name⟩
    rw [← Bool.not_eq_true, isTyped_attempt_iff, huntyped]
    rintro (h | ⟨d, ty, hinfers⟩)
    · cases h
    · exact hnone (s, ty) (mem_inferred.2 ⟨hs, d, hinfers⟩) rfl

/-- The state of some rounds, and a sequence that derives what they have inferred. -/
structure Matches (start : Table) (declared : List Slot) (known : List (Slot × Ty)) (table : Table)
    (slots : List Slot) : Prop where
  derives : Derives start declared known
  others : ∃ values, table = { start with values }
  pending : ∀ x, x ∈ stillPending declared known ↔ x ∈ untypedNames slots
  values : ∀ x ∉ untypedNames slots, (assume start known).values.lookup x = table.values.lookup x
  waiting : ∀ s ∈ slots, s.isWaiting = true → s ∈ declared
  typed : ∀ s ∈ slots, ∀ d ty, s.state = .typed d ty → s ∈ declared ∨
    ∃ s₀, (s₀, ty) ∈ known ∧ s₀.state = .waiting d ∧ s = { s₀ with state := .typed d ty }

namespace Matches

theorem refl (table : Table) (slots : List Slot) : Matches table slots [] table slots where
  derives := .nil
  others := ⟨table.values, rfl⟩
  pending x := by simp [mem_stillPending]
  values _ _ := rfl
  waiting _ hs _ := hs
  typed _ hs _ _ _ := .inl hs

variable (h : Matches start declared known table slots)
include h

/-- The sequence may go on with names that have no type yet. -/
theorem grows_append {fresh : List (Slot × Ty)}
    (hfresh : ∀ e ∈ fresh, e.1.name.text ∈ untypedNames slots) (file : String) :
    Context.Grows ⟨table, file, untypedNames slots⟩
      ⟨assume start (known ++ fresh), file, stillPending declared (known ++ fresh)⟩ := by
  refine ⟨rfl, ?_, fun x hx => ?_, fun x hx => ?_⟩
  · obtain ⟨values, rfl⟩ := h.others
    exact ⟨_, rfl⟩
  · obtain ⟨hx, hnone⟩ := mem_stillPending.1 hx
    exact (h.pending x).1 (mem_stillPending.2 ⟨hx, fun e he => hnone e (List.mem_append_left _ he)⟩)
  · have hnone : ∀ e ∈ fresh, e.1.name.text ≠ x := fun e he hname => hx (hname ▸ hfresh e he)
    simp only [assume_append, lookup_assume_of_not_mem hnone]
    exact h.values x hx

theorem derives_append {fresh : List (Slot × Ty)} (hfresh : fresh ⊆ inferred table slots) :
    Derives start declared (known ++ fresh) := by
  induction fresh using List.reverseRecOn with
  | nil => simpa using h.derives
  | append_singleton fresh e ih =>
    obtain ⟨hfresh, he⟩ := List.append_subset.1 hfresh
    obtain ⟨hs, d, hinfers⟩ := mem_inferred.1 (he (List.mem_singleton_self e))
    have hgrows := h.grows_append (fun e he => untyped_of_mem_inferred (hfresh he)) e.1.file
    rw [← List.append_assoc]
    exact (ih hfresh).snoc (h.waiting _ hs (by simp [Slot.isWaiting, hinfers.1]))
      (hinfers.grows hgrows)

theorem waiting_attempts (final : Bool) {s' : Slot}
    (hs' : s' ∈ slots.map (Slot.attempt table (untypedNames slots) final))
    (hwaits : s'.isWaiting = true) : s' ∈ declared := by
  obtain ⟨s, hs, rfl⟩ := List.mem_map.1 hs'
  have hsame := isWaiting_of_attempt hwaits
  rw [hsame] at hwaits ⊢
  exact h.waiting s hs hwaits

/-- A round goes on with what it infers. -/
theorem next (hrecorded : Recorded table slots) (hnd : (slots.map (·.name.text)).Nodup) :
    Matches start declared (known ++ inferred table slots)
      (recordSlots table (slots.map (Slot.attempt table (untypedNames slots) false)))
      (slots.map (Slot.attempt table (untypedNames slots) false)) where
  derives := h.derives_append (List.Subset.refl _)
  others := by
    obtain ⟨values, rfl⟩ := h.others
    exact recordSlots_values { start with values } _
  pending x := by
    rw [mem_untypedNames_round hnd, ← h.pending, mem_stillPending, mem_stillPending,
      List.forall_mem_append, and_assoc]
  values x hx := by
    rw [assume_append]
    -- a name is typed in this round, or has the type it had before
    by_cases hmem : ∃ e ∈ inferred table slots, e.1.name.text = x
    · obtain ⟨e, he, rfl, hlookup⟩ := @exists_lookup_assume (assume start known) _ _ hmem
      obtain ⟨hs, d, hinfers⟩ := mem_inferred.1 he
      have hround := List.mem_map_of_mem (f := Slot.attempt table (untypedNames slots) false) hs
      rw [attempt_of_infers hinfers] at hround
      rw [← names_attempts table (untypedNames slots) false] at hnd
      exact hlookup.trans (recorded_recordSlots table hnd _ hround d e.2 rfl).symm
    · have hnone : ∀ e ∈ inferred table slots, e.1.name.text ≠ x :=
        fun e he hname => hmem ⟨e, he, hname⟩
      have hx' : x ∉ untypedNames slots :=
        fun hx' => hx ((mem_untypedNames_round hnd).2 ⟨hx', hnone⟩)
      rw [lookup_assume_of_not_mem hnone, h.values x hx']
      exact ((later_recordSlots hrecorded (later_attempts ..)).values x hx').symm
  waiting _ := h.waiting_attempts false
  typed s' hs' d ty hstate := by
    obtain ⟨s, hs, rfl⟩ := List.mem_map.1 hs'
    rcases typed_attempt_iff.1 hstate with htyped | hinfers
    · rw [attempt_of_not_waiting (by simp [Slot.isWaiting, htyped])]
      exact (h.typed s hs d ty htyped).imp_right fun ⟨s₀, hmem, hrest⟩ =>
        ⟨s₀, List.mem_append_left _ hmem, hrest⟩
    · exact .inr ⟨s, List.mem_append_right _ (mem_inferred.2 ⟨hs, d, hinfers⟩), hinfers.1,
        attempt_of_infers hinfers false⟩

theorem stuck (hstuck : ∀ s ∈ slots, ∀ d ty, ¬ s.Infers table (untypedNames slots) d ty) :
    Matches start declared known table
      (slots.map (Slot.attempt table (untypedNames slots) true)) where
  derives := h.derives
  others := h.others
  pending := by
    rw [untypedNames_attempts hstuck]
    exact h.pending
  values := by
    rw [untypedNames_attempts hstuck]
    exact h.values
  waiting _ := h.waiting_attempts true
  typed s' hs' d ty hstate := by
    obtain ⟨s, hs, rfl⟩ := List.mem_map.1 hs'
    have htyped := (typed_attempt_iff.1 hstate).resolve_right (hstuck s hs d ty)
    rw [attempt_of_not_waiting (by simp [Slot.isWaiting, htyped])]
    exact h.typed s hs d ty htyped

end Matches

/-- **Whatever is reached can be derived.** -/
theorem Settles.matches (h : Settles n table slots table' slots') {known : List (Slot × Ty)}
    (hmatches : Matches start declared known table slots) (hrecorded : Recorded table slots)
    (hnd : (slots.map (·.name.text)).Nodup) :
    ∃ known', Matches start declared known' table' slots' := by
  induction h generalizing known with
  | done h => exact ⟨known, hmatches⟩
  | stuck hwaits h => exact ⟨known, hmatches.stuck h⟩
  | next hround h hrest ih =>
    subst hround
    have hnext := hmatches.next hrecorded hnd
    rw [← names_attempts] at hnd
    exact ih hnext (recorded_recordSlots _ hnd) hnd

/-! ## Packages -/

/-- The slots of the declarations of a package. -/
def declaredSlots (files : List SourceFile) : List Slot :=
  (files.flatMap valueDeclarations).map fun d => Slot.ofDeclaration d.1 d.2

/-- A slot that waits is one without a written type. -/
theorem mem_annotated_waiting : s ∈ slots.map (Slot.annotate table) ∧ s.state = .waiting d ↔
    s ∈ slots ∧ s.state = .waiting d ∧ d.type = none := by
  have hannotate : ∀ {s : Slot}, (s.annotate table).state = .waiting d →
      s.annotate table = s ∧ d.type = none := by
    intro s h
    unfold Slot.annotate at h ⊢
    split at h
    · rename_i d' hd'
      split at h
      · rename_i htype
        cases hd'.symm.trans h
        simp [htype]
      · split at h <;> cases h
    · rename_i hs
      exact (hs d h).elim
  constructor
  · rintro ⟨hs', hstate⟩
    obtain ⟨s, hs, rfl⟩ := List.mem_map.1 hs'
    obtain ⟨heq, htype⟩ := hannotate hstate
    rw [heq] at hstate ⊢
    exact ⟨hs, hstate, htype⟩
  · rintro ⟨hs, hstate, htype⟩
    refine ⟨List.mem_map.2 ⟨s, hs, ?_⟩, hstate⟩
    simp only [Slot.annotate, hstate, htype]

/-- A slot that has its type before the first round has a written one. -/
theorem type_of_mem_annotated {files : List SourceFile}
    (hmem : s ∈ (declaredSlots files).map (Slot.annotate table)) (hstate : s.state = .typed d ty) :
    d.type ≠ none := by
  obtain ⟨s, hs, rfl⟩ := List.mem_map.1 hmem
  have huntyped : s.state ≠ .typed d ty := by
    obtain ⟨⟨file, declaration⟩, -, rfl⟩ := List.mem_map.1 hs
    simp only [Slot.ofDeclaration]
    split <;> simp
  unfold Slot.annotate at hstate
  split at hstate
  · split at hstate
    · exact (huntyped hstate).elim
    · rename_i htype
      split at hstate
      · cases hstate
        simp [htype]
      · cases hstate
  · exact (huntyped hstate).elim

/-- **Inference reaches the largest possible set of declarations.** The slots that wait are those of
the declarations without a written type. Whatever some order derives is typed, at the same type; one
order derives all that is typed without being written; and there are at most as many rounds as slots
that wait. -/
theorem types_derivable {files : List SourceFile} {bound : Bound}
    (h : Bound.ofFiles files = .ok bound) :
    ∃ table aliasNames, bindTypes files = .ok (table, aliasNames) ∧
      let annotated := (declaredSlots files).map (Slot.annotate table)
      let start := recordSlots table annotated
      (∀ s d, s ∈ annotated ∧ s.state = .waiting d ↔
        s ∈ declaredSlots files ∧ s.state = .waiting d ∧ d.type = none) ∧
      (∀ known, Derives start annotated known → ∀ e ∈ known, ∃ d, e.1.state = .waiting d ∧
        ∃ b ∈ bound.declarations, b.file = e.1.file ∧ b.name = e.1.name ∧ b.result = .ok (d, e.2)) ∧
      (∃ known, Derives start annotated known ∧ ∀ b ∈ bound.declarations, ∀ d ty,
        b.result = .ok (d, ty) → d.type = none →
          ∃ s, (s, ty) ∈ known ∧ s.state = .waiting d ∧ s.file = b.file ∧ s.name = b.name) ∧
      ∃ n final, n ≤ annotated.countP Slot.isWaiting ∧
        Settles n start annotated bound.table final ∧
        inferenceRounds n start annotated = (bound.table, final) ∧
        bound.declarations = final.map Slot.bound := by
  obtain ⟨table, aliasNames, htypes, hdeclarations⟩ := Bound.ofFiles_eq_ok.1 h
  obtain ⟨final, declarations⟩ := bound
  obtain ⟨slots, hslots, hbound⟩ := bind_eq_ok.1 hdeclarations
  obtain ⟨hnd, -, hslots⟩ := collectSlots_eq_ok_iff.1 hslots
  obtain rfl : slots = declaredSlots files := hslots
  refine ⟨table, aliasNames, htypes, ?_⟩
  intro annotated start
  have hnames : (annotated.map (·.name.text)).Nodup := by
    have heq : annotated.map (·.name.text) =
        (files.flatMap valueDeclarations).map (·.2.name.text) := by
      simp [annotated, declaredSlots, name_annotate, Slot.ofDeclaration]
    rw [heq]
    exact hnd
  have hrecorded : Recorded start annotated := recorded_recordSlots table hnames
  have hwaiting : annotated.countP Slot.isWaiting ≤ (declaredSlots files).length := by
    have hlength : annotated.length = (declaredSlots files).length := List.length_map _
    exact hlength ▸ List.countP_le_length
  obtain ⟨n, hn, hsettles⟩ := @settles_inferenceRounds (declaredSlots files).length start annotated
    hwaiting
  cases hbound
  obtain ⟨known, hmatches⟩ := hsettles.matches (.refl start annotated) hrecorded hnames
  refine ⟨fun s d => mem_annotated_waiting, fun known hderives e he => ?_,
    ⟨known, hmatches.derives, fun b hb d ty hresult htype => ?_⟩, n, _, hn, hsettles,
      hsettles.eq_inferenceRounds, rfl⟩
  · obtain ⟨d, hstate, hmem⟩ := hderives.reached hsettles hrecorded hnames e he
    exact ⟨d, hstate, _, List.mem_map_of_mem hmem, rfl, rfl, rfl⟩
  · obtain ⟨s', hs', rfl⟩ := List.mem_map.1 hb
    have hstate := s'.bound_result_eq_ok.1 hresult
    rcases hmatches.typed s' hs' d ty hstate with hmem | ⟨s, hmem, hs, rfl⟩
    · exact (type_of_mem_annotated hmem hstate htype).elim
    · exact ⟨s, hmem, hs, rfl, rfl⟩

/-- A reference ahead, and two declarations that wait for each other. -/
def forwardFile : SourceFile :=
  ⟨"main", ⟨⟨[.plain "main"], .zero⟩, [],
    [.declaration (.plain "a" none (.var "b")), .declaration (.plain "b" none (.literal (.int 1))),
      .declaration (.plain "c" none (.var "d")), .declaration (.plain "d" none (.var "c"))]⟩⟩

/-- Once `b` is known `a` can be inferred, and four rounds would be enough. -/
theorem types_derivable_forward :
    ∃ bound, Bound.ofFiles [forwardFile] = .ok bound ∧
      (∃ b ∈ bound.declarations, b.name = .plain "a" ∧ ∃ d, b.result = .ok (d, .int)) ∧
      ∃ n start annotated final, n ≤ 4 ∧ inferenceRounds n start annotated = (bound.table, final) ∧
        bound.declarations = final.map Slot.bound := by
  have hok : (Bound.ofFiles [forwardFile]).isOk = true := by with_unfolding_all rfl
  cases hbound : Bound.ofFiles [forwardFile] with
  | error f =>
    rw [hbound] at hok
    cases hok
  | ok bound =>
    obtain ⟨table, aliasNames, htypes, -, hreached, -, n, final, hn, -, hrounds, hdeclarations⟩ :=
      types_derivable hbound
    have hempty : bindTypes [forwardFile] = .ok (.empty "main", []) := by with_unfolding_all rfl
    cases hempty.symm.trans htypes
    let a : Slot := ⟨"main", .plain "a", .zero, .waiting (.plain "a" none (.var "b"))⟩
    let b : Slot := ⟨"main", .plain "b", .zero, .waiting (.plain "b" none (.literal (.int 1)))⟩
    have hforward := hreached ([] ++ [(b, .int)] ++ [(a, .int)]) (by
      refine .snoc (.snoc .nil ?_ ⟨rfl, ?_⟩) ?_ ⟨rfl, ?_⟩
      · with_unfolding_all exact .tail _ (.head _)
      · with_unfolding_all rfl
      · with_unfolding_all exact .head _
      · with_unfolding_all rfl)
    obtain ⟨d, -, bound', hmem, -, hname, hresult⟩ := hforward (a, .int) (by simp)
    exact ⟨bound, rfl, ⟨bound', hmem, hname, d, hresult⟩, n, _, _, final, hn, hrounds,
      hdeclarations⟩

end Binding

end UnionChecker
