import UnionChecker.Proofs.Binding.Rounds
import UnionChecker.Proofs.Syntax.Binders
/-!
# Slots and what they declare

A slot is made for every declaration of the files (`Slot.From`). It has a type when one is written or
inferred, and then declares what desugaring gives. Rounds of inference change nothing in this, so the
declarations that are bound in the end come from the files (`declared_bindDeclarations`).
-/

namespace UnionChecker.Binding

open Syntax

variable {files : List SourceFile} {table table' : Table} {aliasNames : List String}

/-- The slots of a package have different names and no types yet. -/
theorem collectSlots_names {declarations : List (String × Declaration)}
    {seen : List String} {slots : List Slot}
    (h : collectSlots table aliasNames declarations seen = .ok slots) :
    (slots.map (·.name.text)).Nodup ∧ ∀ s ∈ slots, s.name.text ∉ seen ∧ s.isTyped = false := by
  obtain ⟨hnd, hall, rfl⟩ := collectSlots_eq_ok_iff.1 h
  refine ⟨by simpa [Function.comp_def, Slot.ofDeclaration] using hnd,
    List.forall_mem_map.2 fun d hd => ⟨(hall d hd).2, ?_⟩⟩
  unfold Slot.isTyped Slot.ofDeclaration
  split
  · rename_i hstate
    simp only at hstate
    split at hstate <;> cases hstate
  · rfl

/-- A slot that gets a type from its declaration gets the written one. -/
theorem typed_annotate {s : Slot} (hs : s.isTyped = false) {d : Declaration} {ty : Ty}
    (h : (s.annotate table).state = .typed d ty) :
    ∃ type, (fileContext table s.file).resolveType .initial [] type = .ok ty := by
  have huntyped : s.state ≠ .typed d ty := fun htyped => by
    rw [Slot.isTyped_iff.2 ⟨d, ty, htyped⟩] at hs
    cases hs
  unfold Slot.annotate at h
  split at h
  · split at h
    · exact (huntyped h).elim
    · rename_i type _
      split at h
      · rename_i hty
        cases h
        exact ⟨type, hty⟩
      · cases h
  · exact (huntyped h).elim

/-- The declaration that a slot has typed, or that it is still to type. -/
def Slot.Declares (s : Slot) (d : Declaration) : Prop :=
  s.state = .waiting d ∨ ∃ ty, s.state = .typed d ty

theorem Slot.declares_ofDeclaration {file : String} {d e : Declaration} :
    (Slot.ofDeclaration file d).Declares e ↔
      ¬ Reserved d.name.text ∧ desugarTopDeclaration file d = .ok e := by
  by_cases hname : Reserved d.name.text
  · have hfailed : (Slot.ofDeclaration file d).state =
        .failed (.of (.reservedName d.name.text) file d.name.span) := by
      simp only [Slot.ofDeclaration, show (d.name.text == "true" || d.name.text == "false") = true by
        simpa [Reserved] using hname, if_true]
    simp [Slot.Declares, hfailed, hname]
  · have hplain : (d.name.text == "true" || d.name.text == "false") = false := by
      simpa [Reserved, not_or] using hname
    simp only [Slot.Declares, Slot.ofDeclaration, hplain, Bool.false_eq_true, if_false]
    cases desugarTopDeclaration file d <;> simp [hname]

theorem Slot.declares_of_annotate {s : Slot} {d : Declaration}
    (h : (s.annotate table).Declares d) : s.Declares d := by
  unfold Slot.annotate at h
  split at h
  · rename_i d' hstate
    split at h
    · exact h
    · split at h <;> rcases h with h | ⟨ty, h⟩ <;> cases h
      exact .inl hstate
  · exact h

theorem Slot.declares_of_attempt {s : Slot} {d : Declaration} {pending : List String} {final : Bool}
    (h : (s.attempt table pending final).Declares d) : s.Declares d := by
  unfold Slot.attempt at h
  split at h
  · rename_i d' hstate
    split at h
    · rcases h with h | ⟨ty, h⟩ <;> cases h
      exact .inl hstate
    · split at h
      · exact h
      · rcases h with h | ⟨ty, h⟩ <;> cases h
  · exact h

theorem file_annotate (table : Table) (s : Slot) : (s.annotate table).file = s.file := by
  unfold Slot.annotate
  split
  · split
    · rfl
    · split <;> rfl
  · rfl

theorem forall_inferenceRounds {Q : Slot → Prop}
    (hattempt : ∀ table pending final s, Q s → Q (s.attempt table pending final)) :
    ∀ (rounds : Nat) {table : Table} {slots : List Slot}, (∀ s ∈ slots, Q s) →
    ∀ s ∈ (inferenceRounds rounds table slots).2, Q s
  | 0, table, slots, h => List.forall_mem_map.2 fun s hs => hattempt _ _ _ s (h s hs)
  | rounds + 1, table, slots, h => by
    simp only [inferenceRounds]
    split
    · exact forall_inferenceRounds hattempt rounds
        (List.forall_mem_map.2 fun s hs => hattempt _ _ _ s (h s hs))
    · exact List.forall_mem_map.2 fun s hs => hattempt _ _ _ s (h s hs)

/-- The slot of a declaration of the files. What it declares is that declaration without sugar, and
is not called like a literal. -/
def Slot.From (files : List SourceFile) (s : Slot) : Prop :=
  ∃ d, (s.file, d) ∈ files.flatMap valueDeclarations ∧ s.name = d.name ∧ ∀ e, s.Declares e →
    ¬ Reserved d.name.text ∧ desugarTopDeclaration s.file d = .ok e

theorem Slot.From.congr {s s' : Slot} (h : s.From files) (hfile : s'.file = s.file)
    (hname : s'.name = s.name) (hdeclares : ∀ e, s'.Declares e → s.Declares e) : s'.From files := by
  obtain ⟨d, hd, hsame, hdesugars⟩ := h
  rw [Slot.From, hfile, hname]
  exact ⟨d, hd, hsame, fun e he => hdesugars e (hdeclares e he)⟩

/-- What is bound comes from a declaration of the files. -/
theorem declared_bindDeclarations {declarations : List BoundDeclaration}
    (h : bindDeclarations table aliasNames files = .ok (table', declarations)) :
    ∀ b ∈ declarations, ∃ d, (b.file, d) ∈ files.flatMap valueDeclarations ∧ b.name = d.name ∧
      ∀ e ty, b.result = .ok (e, ty) →
        ¬ Reserved d.name.text ∧ desugarTopDeclaration b.file d = .ok e := by
  rw [bindDeclarations, bind_eq_ok] at h
  obtain ⟨slots, hslots, h⟩ := h
  cases h
  obtain ⟨-, -, rfl⟩ := collectSlots_eq_ok_iff.1 hslots
  refine List.forall_mem_map.2 fun s hs => ?_
  have hfrom : s.From files := by
    refine forall_inferenceRounds (Q := Slot.From files) (fun table pending final s hs => ?_) _ ?_
      s hs
    · have hlater : s.Later (s.attempt table pending final) := s.later_attempt _ _
      exact hs.congr hlater.file hlater.name fun _ => Slot.declares_of_attempt
    · simp only [List.forall_mem_map]
      intro d hd
      have hfirst : (Slot.ofDeclaration d.1 d.2).From files :=
        ⟨d.2, hd, rfl, fun e he => Slot.declares_ofDeclaration.1 he⟩
      exact hfirst.congr (file_annotate _ _) (name_annotate _ _) fun _ => Slot.declares_of_annotate
  obtain ⟨d, hd, hname, hdeclares⟩ := hfrom
  exact ⟨d, hd, hname, fun e ty he => hdeclares e (.inr ⟨ty, s.bound_result_eq_ok.1 he⟩)⟩

end UnionChecker.Binding
