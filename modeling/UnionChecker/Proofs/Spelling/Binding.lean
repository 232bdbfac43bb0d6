import UnionChecker.Proofs.PackageCheck
import UnionChecker.Proofs.Spelling.Check
/-!
# Declarations are bound alike, however generics are spelled

The declarations of a package and their respelled copies go through the same rounds of inference. In
each round the slots are related (`SpellsSlot`): both have failed, both wait, or both have a type,
and then it is the same type with the other names. So in the end the same declarations have types
(`bindDeclarations_spells`), and the same ones pass their check (`SpellsBound.checked`).
-/

namespace UnionChecker.Binding

open Syntax Respelling Check

variable {S : Respelling} {table table' : Table} {s s' : Slot} {slots slots' : List Slot}

/-- How far the bindings of a declaration and of its respelled copy have come. -/
inductive SpellsState (S : Respelling) : BindingState → BindingState → Prop
  | failed {failure failure' : Failure} : SpellsState S (.failed failure) (.failed failure')
  | waiting {d : Declaration} (hd : d.Uses S.wording) :
      SpellsState S (.waiting d) (.waiting (d.respell S.spell))
  | typed {d : Declaration} {t t' : Ty} (hd : d.Uses S.wording) (ht : S.Spells t t') :
      SpellsState S (.typed d t) (.typed (d.respell S.spell) t')

/-- The slots of a declaration and of its respelled copy. -/
structure SpellsSlot (S : Respelling) (s s' : Slot) : Prop where
  file : s'.file = s.file
  name : s'.name = s.name
  state : SpellsState S s.state s'.state

/-! ## Slots -/

theorem spellsSlot_ofDeclaration (file : String) {d : Declaration} (hd : d.Uses S.wording) :
    SpellsSlot S (.ofDeclaration file d) (.ofDeclaration file (d.respell S.spell)) := by
  refine ⟨rfl, d.name_respell _, ?_⟩
  simp only [Slot.ofDeclaration, Declaration.name_respell, desugarTopDeclaration_respell]
  cases d.name.text == "true" || d.name.text == "false" with
  | true => exact .failed
  | false =>
    cases hdesugar : desugarTopDeclaration file d with
    | error failure => exact .failed
    | ok d' => exact .waiting (uses_desugarTopDeclaration hd hdesugar)

/-- The slots of declarations and of their respelled copies. -/
theorem collectSlots_spells (aliasNames : List String) : ∀ (ds : List (String × Declaration))
    (seen : List String), (∀ d ∈ ds, d.2.Uses S.wording) →
    Alike anyFailure (List.Forall₂ (SpellsSlot S)) (collectSlots table aliasNames ds seen)
      (collectSlots table aliasNames (ds.map fun d => (d.1, d.2.respell S.spell)) seen)
  | [], _, _ => .ok .nil
  | (file, d) :: ds, seen, hu => by
    obtain ⟨hd, hds⟩ := List.forall_mem_cons.1 hu
    have hrest := collectSlots_spells aliasNames ds (d.name.text :: seen) hds
    rw [List.map_cons, collectSlots, collectSlots, Declaration.name_respell]
    refine Alike.bind (R := Eq) ?_ fun _ _ _ => hrest.bind fun slots slots' hslots => ?_
    · cases Slot.requireNew table aliasNames file d.name seen with
      | ok => exact .ok rfl
      | error => exact .error trivial
    · exact .ok (.cons (spellsSlot_ofDeclaration file hd) hslots)

theorem SpellsSlot.isTyped (h : SpellsSlot S s s') : s'.isTyped = s.isTyped := by
  have hstate := h.state
  unfold Slot.isTyped
  generalize s.state = state, s'.state = state' at hstate
  cases hstate <;> rfl

theorem untypedNames_spells (h : List.Forall₂ (SpellsSlot S) slots slots') :
    untypedNames slots' = untypedNames slots := by
  have huntyped : List.Forall₂ (SpellsSlot S) (slots.filter fun s => !s.isTyped)
      (slots'.filter fun s => !s.isTyped) := forall₂_filter h fun _ _ hs => by rw [hs.isTyped]
  have hnames : List.Forall₂ Eq (untypedNames slots) (untypedNames slots') :=
    forall₂_map huntyped fun _ _ _ hs => by rw [hs.name]
  exact (List.forall₂_eq_eq_eq ▸ hnames).symm

theorem spellsTable_put {x : String} {t t' : Ty} (h : S.SpellsTable table table')
    (ht : S.Spells t t') : S.SpellsTable { table with values := put x t table.values }
      { table' with values := put x t' table'.values } :=
  ⟨h.types, h.fileTypes, h.fileValues, h.fields, h.matchFields, forall₂_put ht h.values, h.imported,
    h.symbol, h.fieldsOf⟩

theorem recordSlots_spells (ht : S.SpellsTable table table')
    (h : List.Forall₂ (SpellsSlot S) slots slots') :
    S.SpellsTable (recordSlots table slots) (recordSlots table' slots') := by
  unfold recordSlots
  induction h generalizing table table' with
  | nil => exact ht
  | @cons s s' _ _ hs _ ih =>
    rw [List.foldl_cons, List.foldl_cons]
    refine ih ?_
    have hstate := hs.state
    rw [hs.name]
    generalize s.state = state, s'.state = state' at hstate
    cases hstate with
    | failed => exact ht
    | waiting => exact ht
    | typed _ hty => exact spellsTable_put ht hty

/-! ## Rounds of inference -/

theorem annotate_spells (ht : S.SpellsTable table table') (h : SpellsSlot S s s') :
    SpellsSlot S (s.annotate table) (s'.annotate table') := by
  obtain ⟨file, name, span, state⟩ := s
  obtain ⟨file', name', span', state'⟩ := s'
  obtain ⟨rfl, rfl, hstate⟩ := h
  cases hstate with
  | failed => exact ⟨rfl, rfl, .failed⟩
  | typed hd hty => exact ⟨rfl, rfl, .typed hd hty⟩
  | @waiting d hd =>
    have htype := d.uses_type hd
    unfold Slot.annotate
    simp only [Declaration.type_respell]
    cases htypes : d.type with
    | none => exact ⟨rfl, rfl, .waiting hd⟩
    | some type =>
      have hΓ : S.SpellsContext (fileContext table file') (fileContext table' file') :=
        ⟨ht, rfl, rfl⟩
      have hresolved := resolveType_spells hΓ spellsFrames_initial type (htype _ htypes) .nil
      dsimp only [Option.map_some]
      generalize (fileContext table file').resolveType .initial [] type = r,
        (fileContext table' file').resolveType .initial [] (type.respell S.spell) = r' at hresolved
      cases hresolved with
      | ok hty => exact ⟨rfl, rfl, .typed hd hty⟩
      | error => exact ⟨rfl, rfl, .failed⟩

theorem attempt_spells (ht : S.SpellsTable table table') (pending : List String) (final : Bool)
    (h : SpellsSlot S s s') :
    SpellsSlot S (s.attempt table pending final) (s'.attempt table' pending final) := by
  obtain ⟨file, name, span, state⟩ := s
  obtain ⟨file', name', span', state'⟩ := s'
  obtain ⟨rfl, rfl, hstate⟩ := h
  cases hstate with
  | failed => exact ⟨rfl, rfl, .failed⟩
  | typed hd hty => exact ⟨rfl, rfl, .typed hd hty⟩
  | @waiting d hd =>
    have hΓ : S.SpellsContext ⟨table, file', pending⟩ ⟨table', file', pending⟩ := ⟨ht, rfl, rfl⟩
    have hinfer := inferDeclaration_spells hΓ hd
    simp only [Slot.attempt]
    generalize atTopLevel (inferDeclaration ⟨table, file', pending⟩ d) = r,
      atTopLevel (inferDeclaration ⟨table', file', pending⟩ (d.respell S.spell)) = r' at hinfer
    cases hinfer with
    | ok hty => exact ⟨rfl, rfl, .typed hd hty⟩
    | error hfailure =>
      dsimp only
      rw [hfailure]
      split
      · exact ⟨rfl, rfl, .waiting hd⟩
      · exact ⟨rfl, rfl, .failed⟩

theorem inferenceRounds_spells : ∀ (rounds : Nat) {table table' : Table} {slots slots' : List Slot},
    S.SpellsTable table table' → List.Forall₂ (SpellsSlot S) slots slots' →
    S.SpellsTable (inferenceRounds rounds table slots).1 (inferenceRounds rounds table' slots').1 ∧
      List.Forall₂ (SpellsSlot S) (inferenceRounds rounds table slots).2
        (inferenceRounds rounds table' slots').2
  | 0, table, table', slots, slots', ht, h => by
    rw [inferenceRounds, inferenceRounds, untypedNames_spells h]
    exact ⟨ht, forall₂_map h fun _ _ _ hs => attempt_spells ht _ _ hs⟩
  | rounds + 1, table, table', slots, slots', ht, h => by
    have hattempted (final : Bool) :
        List.Forall₂ (SpellsSlot S) (slots.map (Slot.attempt table (untypedNames slots) final))
          (slots'.map (Slot.attempt table' (untypedNames slots) final)) :=
      forall₂_map h fun _ _ _ hs => attempt_spells ht _ _ hs
    rw [inferenceRounds, inferenceRounds, untypedNames_spells h,
      untypedNames_spells (hattempted false)]
    split
    · exact inferenceRounds_spells rounds (recordSlots_spells ht (hattempted false))
        (hattempted false)
    · exact ⟨ht, hattempted true⟩

/-! ## Bound declarations -/

/-- A bound declaration, and its respelled copy. -/
structure SpellsBound (S : Respelling) (b b' : BoundDeclaration) : Prop where
  file : b'.file = b.file
  result : Alike anyFailure
    (fun r r' => r.1.Uses S.wording ∧ r'.1 = r.1.respell S.spell ∧ S.Spells r.2 r'.2)
    b.result b'.result

theorem SpellsSlot.bound (h : SpellsSlot S s s') : SpellsBound S s.bound s'.bound := by
  obtain ⟨file, name, span, state⟩ := s
  obtain ⟨file', name', span', state'⟩ := s'
  obtain ⟨rfl, rfl, hstate⟩ := h
  cases hstate with
  | failed => exact ⟨rfl, .error trivial⟩
  | waiting => exact ⟨rfl, .error trivial⟩
  | typed hd hty => exact ⟨rfl, .ok ⟨hd, rfl, hty⟩⟩

/-- A declaration passes its check exactly if its respelled copy does. -/
theorem SpellsBound.checked {b b' : BoundDeclaration} (ht : S.SpellsTable table table')
    (h : SpellsBound S b b') :
    (∃ d, PackageCheck.checked table' [] b' = .ok d) ↔
      ∃ d, PackageCheck.checked table [] b = .ok d := by
  obtain ⟨file, name, span, result⟩ := b
  obtain ⟨file', name', span', result'⟩ := b'
  obtain ⟨rfl, hresult⟩ := h
  cases hresult with
  | error => simp [PackageCheck.checked]
  | @ok r r' hr =>
    obtain ⟨d, t⟩ := r
    obtain ⟨d', t'⟩ := r'
    obtain ⟨hd, rfl, hty⟩ := hr
    have hΓ : S.SpellsContext ⟨table, file', []⟩ ⟨table', file', []⟩ := ⟨ht, rfl, rfl⟩
    have hcheck := checkDeclaration_spells hΓ hd hty
    simp only [PackageCheck.checked]
    generalize atTopLevel (checkDeclaration ⟨table, file', []⟩ d t) = r,
      atTopLevel (checkDeclaration ⟨table', file', []⟩ (d.respell S.spell) t') = r' at hcheck
    cases hcheck with
    | ok => simp
    | error => simp

/-- The value declarations of respelled files. -/
theorem flatMap_valueDeclarations_respell (f : String → String) (files : List SourceFile) :
    (files.map (·.respell f)).flatMap valueDeclarations =
      (files.flatMap valueDeclarations).map fun d => (d.1, d.2.respell f) := by
  rw [List.flatMap_map, List.map_flatMap]
  refine congrArg files.flatMap (funext fun file => ?_)
  simp only [valueDeclarations, SourceFile.respell, List.filterMap_map, List.map_filterMap]
  refine congrArg (List.filterMap · _) (funext fun d => ?_)
  cases d <;> rfl

/-- **Respelled declarations are bound as the declarations themselves.** -/
theorem bindDeclarations_spells (ht : S.SpellsTable table table) (aliasNames : List String)
    {files : List SourceFile}
    (hu : ∀ d ∈ files.flatMap valueDeclarations, d.2.Uses S.wording) :
    Alike anyFailure (fun r r' => S.SpellsTable r.1 r'.1 ∧ List.Forall₂ (SpellsBound S) r.2 r'.2)
      (bindDeclarations table aliasNames files)
      (bindDeclarations table aliasNames (files.map (·.respell S.spell))) := by
  unfold bindDeclarations
  rw [flatMap_valueDeclarations_respell]
  refine (collectSlots_spells aliasNames _ [] hu).bind fun slots slots' hslots => ?_
  have hannotated := forall₂_map (R := SpellsSlot S) (Q := SpellsSlot S) hslots
    fun _ _ _ hs => annotate_spells ht hs
  have hrounds := inferenceRounds_spells slots.length (recordSlots_spells ht hannotated) hannotated
  rw [← hslots.length_eq]
  exact .ok ⟨hrounds.1, forall₂_map hrounds.2 fun _ _ _ hs => hs.bound⟩

end UnionChecker.Binding
