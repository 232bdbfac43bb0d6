import Mathlib.Data.List.Nodup
import UnionChecker.Json.Fields
import UnionChecker.Proofs.Lists
/-!
# Missing fields and their defaults

A format is given by a layout for each kind of node: the fields of a record with their defaults, or
the tags of a choice. Filling a value puts in the default of every field that is missing, at every
depth (`fill`), so that none is missing any more (`not_lacks_fill`). A record then has the fields it
had, and the defaults of the others (`fields?_fill`).
-/

namespace UnionChecker.Json

/-! ## Layouts -/

/-- What stands at a place: something without fields of its own, a node, or a list of nodes. -/
inductive Shape (κ : Type) where
  | plain
  | node (kind : κ)
  | nodes (kind : κ)

/-- A field of a record. -/
inductive Slot (κ : Type) where
  /-- A field that may not be missing. -/
  | required (key : String) (shape : Shape κ)
  /-- A field that may be missing or null. -/
  | optional (key : String) (shape : Shape κ)
  /-- A list of nodes that may be missing. -/
  | many (key : String) (kind : κ)
  /-- A value without fields of its own that may be missing, with its default. -/
  | value (key : String) (default : Json)

namespace Slot

variable {κ : Type}

def key : Slot κ → String
  | required key _ | optional key _ | many key _ | value key _ => key

def shape : Slot κ → Shape κ
  | required _ shape | optional _ shape => shape
  | many _ kind => .nodes kind
  | value _ _ => .plain

/-- A node that may not be missing. -/
def one (key : String) (kind : κ) : Slot κ := .required key (.node kind)

/-- A list of nodes that may not be missing. -/
def list (key : String) (kind : κ) : Slot κ := .required key (.nodes kind)

/-- A node that may be missing or null. -/
def maybe (key : String) (kind : κ) : Slot κ := .optional key (.node kind)

/-- What stands for a missing field. -/
def default : Slot κ → Option Json
  | required _ _ => none
  | optional _ _ => some .null
  | many _ _ => some (.arr [])
  | value _ default => some default

end Slot

/-- How nodes of a kind are written. -/
inductive Layout (κ : Type) where
  /-- A record with the given fields. -/
  | record (slots : List (Slot κ)) (distinct : (slots.map Slot.key).Nodup := by decide)
  /-- A tag with its payload. -/
  | choice (payloads : List (String × Shape κ))

/-! ## Filling -/

section

variable {κ : Type} (layout : κ → Layout κ)

/-- The shape under a key, which is none in particular where nobody looks. -/
def shapeAt (shapes : List (String × Shape κ)) (key : String) : Shape κ :=
  (shapes.lookup key).getD .plain

/-- The shapes of the fields by their keys. -/
def Slot.shapes (slots : List (Slot κ)) : List (String × Shape κ) :=
  slots.map fun slot => (slot.key, slot.shape)

/-- The defaults of the fields that an object does not have. -/
def absent (slots : List (Slot κ)) (members : List (String × Json)) : List (String × Json) :=
  slots.filterMap fun slot =>
    match members.lookup slot.key with
    | some _ => none
    | none => slot.default.map (slot.key, ·)

/-- The defaults that can be written at the end of an array: those before a required field. -/
def defaults : List (Slot κ) → List Json
  | [] => []
  | slot :: slots =>
    match slot.default with
    | some j => j :: defaults slots
    | none => []

mutual

/-- The value with the default of every missing field put in, at every depth. -/
def fill : Shape κ → Json → Json
  | .node kind, .obj members =>
    match layout kind with
    | .record slots _ => .obj (fillMembers (Slot.shapes slots) members ++ absent slots members)
    | .choice payloads => .obj (fillMembers payloads members)
  | .node kind, .arr items =>
    match layout kind with
    | .record slots _ => .arr (fillFields slots items)
    | .choice _ => .arr items
  | .nodes kind, .arr items => .arr (fillItems kind items)
  | _, j => j

/-- `fill` on the members of an object. -/
def fillMembers (shapes : List (String × Shape κ)) : List (String × Json) → List (String × Json)
  | [] => []
  | (key, j) :: members => (key, fill (shapeAt shapes key) j) :: fillMembers shapes members

/-- `fill` on the fields of a record that is written as an array. -/
def fillFields : List (Slot κ) → List Json → List Json
  | slots, [] => defaults slots
  | [], items => items
  | slot :: slots, j :: items => fill slot.shape j :: fillFields slots items

/-- `fill` on the nodes of a list. -/
def fillItems (kind : κ) : List Json → List Json
  | [] => []
  | j :: items => fill (.node kind) j :: fillItems kind items

end

/-- A field after filling. -/
def Slot.fill (slot : Slot κ) : Option Json → Option Json
  | some j => some (Json.fill layout slot.shape j)
  | none => slot.default

theorem fillMembers_eq_map (shapes : List (String × Shape κ)) : ∀ members : List (String × Json),
    fillMembers layout shapes members =
      members.map fun m => (m.1, fill layout (shapeAt shapes m.1) m.2)
  | [] => rfl
  | (key, j) :: members => by simp [fillMembers, fillMembers_eq_map shapes members]

theorem fillItems_eq_map (kind : κ) : ∀ items : List Json,
    fillItems layout kind items = items.map (fill layout (.node kind))
  | [] => rfl
  | j :: items => by simp [fillItems, fillItems_eq_map kind items]

@[simp] theorem fill_plain (j : Json) : fill layout .plain j = j := by
  cases j <;> rfl

@[simp] theorem fill_null (s : Shape κ) : fill layout s .null = .null := by
  cases s <;> rfl

theorem fill_eq_null {s : Shape κ} {j : Json} (h : fill layout s j = .null) : j = .null := by
  cases s with
  | plain => rwa [fill_plain] at h
  | nodes kind => cases j <;> first | rfl | cases h
  | node kind =>
    cases j with
    | obj members => simp only [fill] at h; split at h <;> cases h
    | arr items => simp only [fill] at h; split at h <;> cases h
    | _ => exact h

end

/-! ## Depth -/

theorem depth_pos (j : Json) : 0 < j.depth := by
  cases j <;> simp [depth]

theorem depth_le_depthItems {j : Json} :
    ∀ {items : List Json}, j ∈ items → j.depth ≤ depthItems items
  | i :: items, h => by
    rw [depthItems]
    rcases List.mem_cons.1 h with rfl | h
    · exact Nat.le_max_left _ _
    · exact Nat.le_trans (depth_le_depthItems h) (Nat.le_max_right _ _)

theorem depth_le_depthMembers {m : String × Json} :
    ∀ {members : List (String × Json)}, m ∈ members → m.2.depth ≤ depthMembers members
  | (key, j) :: members, h => by
    rw [depthMembers]
    rcases List.mem_cons.1 h with rfl | h
    · exact Nat.le_max_left _ _
    · exact Nat.le_trans (depth_le_depthMembers h) (Nat.le_max_right _ _)

theorem depth_lt_of_fields? {keys : List String} {j field : Json} {v : String → Option Json}
    {key : String} (h : j.fields? keys = some v) (hfield : v key = some field) :
    field.depth < j.depth := by
  cases j with
  | obj members =>
    simp only [fields?] at h
    split at h
    · cases h
    · cases h
      exact Nat.lt_succ_of_le (depth_le_depthMembers (mem_of_lookup_eq_some hfield))
  | arr items =>
    simp only [fields?] at h
    split at h
    · cases h
      exact Nat.lt_succ_of_le
        (depth_le_depthItems (List.of_mem_zip (mem_of_lookup_eq_some hfield)).2)
    · cases h
  | _ => cases h

/-! ## The fields of a filled record -/

section

variable {κ : Type} {layout : κ → Layout κ} {slots : List (Slot κ)}

theorem map_fst_shapes : (Slot.shapes slots).map (·.1) = slots.map Slot.key := by
  simp [Slot.shapes, Function.comp_def]

theorem shapeAt_key (hkeys : (slots.map Slot.key).Nodup) {slot : Slot κ} (hslot : slot ∈ slots) :
    shapeAt (Slot.shapes slots) slot.key = slot.shape := by
  have hmem : (slot.key, slot.shape) ∈ Slot.shapes slots := List.mem_map.2 ⟨slot, hslot, rfl⟩
  rw [shapeAt, lookup_eq_some_of_mem (by rwa [map_fst_shapes]) hmem, Option.getD_some]

theorem lookup_fillMembers (shapes : List (String × Shape κ)) (key : String) :
    ∀ members : List (String × Json), (fillMembers layout shapes members).lookup key =
      (members.lookup key).map (fill layout (shapeAt shapes key))
  | [] => rfl
  | (key', j) :: members => by
    rw [fillMembers, List.lookup_cons, List.lookup_cons, lookup_fillMembers shapes key members]
    by_cases h : key = key'
    · simp [h]
    · simp [beq_eq_false_iff_ne.2 h]

/-- What is put into an object are defaults of fields that it does not have. -/
theorem mem_absent {members : List (String × Json)} {m : String × Json} :
    m ∈ absent slots members ↔ ∃ slot ∈ slots,
      members.lookup slot.key = none ∧ slot.default = some m.2 ∧ slot.key = m.1 := by
  simp only [absent, List.mem_filterMap]
  refine exists_congr fun slot => and_congr_right fun _ => ?_
  cases members.lookup slot.key with
  | some j => simp
  | none => cases slot.default <;> simp [Prod.ext_iff, and_comm]

theorem nodup_absent (members : List (String × Json)) : ∀ {slots : List (Slot κ)},
    (slots.map Slot.key).Nodup → ((absent slots members).map (·.1)).Nodup
  | [], _ => List.nodup_nil
  | slot :: slots, h => by
    rw [List.map_cons, List.nodup_cons] at h
    have ih := nodup_absent members h.2
    rw [absent] at ih ⊢
    rw [List.filterMap_cons]
    split
    · exact ih
    · rename_i m hm
      refine List.nodup_cons.2 ⟨fun hmem => h.1 ?_, ih⟩
      obtain ⟨m', hm', hkey⟩ := List.mem_map.1 hmem
      obtain ⟨slot', hslot', -, -, hkey'⟩ := mem_absent.1 hm'
      obtain ⟨slot'', hslot'', -, -, hkey''⟩ :=
        mem_absent.1 (List.mem_filterMap.2 ⟨slot, List.mem_singleton_self slot, hm⟩)
      rw [List.mem_singleton.1 hslot''] at hkey''
      exact List.mem_map.2 ⟨slot', hslot', hkey'.trans (hkey.trans hkey''.symm)⟩

theorem lookup_absent (hkeys : (slots.map Slot.key).Nodup) {members : List (String × Json)}
    {slot : Slot κ} (hslot : slot ∈ slots) (hnone : members.lookup slot.key = none) :
    (absent slots members).lookup slot.key = slot.default := by
  cases hdefault : slot.default with
  | some j =>
    exact lookup_eq_some_of_mem (nodup_absent members hkeys)
      (mem_absent.2 ⟨slot, hslot, hnone, hdefault, rfl⟩)
  | none =>
    refine List.lookup_eq_none_iff.2 fun m hm => ?_
    obtain ⟨slot', hslot', -, hdefault', hkey⟩ := mem_absent.1 hm
    have hne : slot.key ≠ m.1 := by
      rw [← hkey]
      intro heq
      obtain rfl := List.inj_on_of_nodup_map hkeys hslot hslot' heq
      simp [hdefault] at hdefault'
    simpa using hne

theorem fields?_obj {keys : List String} {members : List (String × Json)}
    {v : String → Option Json} : fields? keys (.obj members) = some v ↔
      (∀ key ∈ keys, (members.map (·.1)).count key ≤ 1) ∧ v = (members.lookup ·) := by
  have hcount : ∀ key,
      (members.filter fun m => m.1 == key).length = (members.map (·.1)).count key := by
    intro key
    rw [List.count, List.countP_map, List.countP_eq_length_filter]
    rfl
  rw [fields?]
  simp only [hcount]
  split
  · rename_i h
    simp only [List.any_eq_true, decide_eq_true_eq] at h
    obtain ⟨key, hkey, hlt⟩ := h
    simp only [reduceCtorEq, false_iff, not_and]
    intro hall
    have := hall key hkey
    omega
  · rename_i h
    simp only [List.any_eq_true, decide_eq_true_eq, not_exists, not_and, Nat.not_lt] at h
    simp only [Option.some.injEq, eq_comm, iff_and_self]
    exact fun _ => h

theorem lookup_filled (hkeys : (slots.map Slot.key).Nodup) (members : List (String × Json))
    {slot : Slot κ} (hslot : slot ∈ slots) :
    (fillMembers layout (Slot.shapes slots) members ++ absent slots members).lookup slot.key =
      slot.fill layout (members.lookup slot.key) := by
  rw [List.lookup_append, lookup_fillMembers, shapeAt_key hkeys hslot]
  cases hlookup : members.lookup slot.key with
  | some j => rfl
  | none => exact lookup_absent hkeys hslot hlookup

/-- A filled object has each of its fields once, as it was or by default. -/
theorem fields?_fill_obj (hkeys : (slots.map Slot.key).Nodup) {members : List (String × Json)}
    {v : String → Option Json} (h : fields? (slots.map Slot.key) (.obj members) = some v) :
    ∃ v', fields? (slots.map Slot.key)
        (.obj (fillMembers layout (Slot.shapes slots) members ++ absent slots members)) = some v' ∧
      ∀ slot ∈ slots, v' slot.key = slot.fill layout (v slot.key) := by
  obtain ⟨hcount, rfl⟩ := fields?_obj.1 h
  refine ⟨_, fields?_obj.2 ⟨fun key hkey => ?_, rfl⟩, fun slot => lookup_filled hkeys members⟩
  have hfst : (fillMembers layout (Slot.shapes slots) members).map (·.1) = members.map (·.1) := by
    simp [fillMembers_eq_map, Function.comp_def]
  rw [List.map_append, List.count_append, hfst]
  by_cases hmem : key ∈ members.map (·.1)
  · -- what the object has is not put in again
    have habsent : key ∉ (absent slots members).map (·.1) := by
      intro habsent
      obtain ⟨m, hm, rfl⟩ := List.mem_map.1 habsent
      obtain ⟨slot, -, hnone, -, hslot⟩ := mem_absent.1 hm
      obtain ⟨m', hm', heq⟩ := List.mem_map.1 hmem
      have := List.lookup_eq_none_iff.1 hnone m' hm'
      simp [hslot, heq] at this
    rw [List.count_eq_zero.2 habsent]
    exact hcount key hkey
  · rw [List.count_eq_zero.2 hmem, Nat.zero_add]
    exact List.nodup_iff_count_le_one.1 (nodup_absent members hkeys) key

theorem length_defaults_le : ∀ slots : List (Slot κ), (defaults slots).length ≤ slots.length
  | [] => Nat.le_refl _
  | slot :: slots => by
    rw [defaults]
    split
    · exact Nat.succ_le_succ (length_defaults_le slots)
    · exact Nat.zero_le _

theorem length_fillFields_le : ∀ {slots : List (Slot κ)} {items : List Json},
    items.length ≤ slots.length → (fillFields layout slots items).length ≤ slots.length
  | slots, [], _ => by rw [fillFields]; exact length_defaults_le slots
  | slot :: slots, j :: items, h => by
    rw [fillFields]
    exact Nat.succ_le_succ (length_fillFields_le (Nat.le_of_succ_le_succ h))

/-- A filled array has its fields in order, as they were or by default, if no required one is
missing. -/
theorem lookup_fillFields : ∀ {slots : List (Slot κ)} {items : List Json},
    (slots.map Slot.key).Nodup →
    (∀ slot ∈ slots, slot.default = none →
      ((slots.map Slot.key).zip items).lookup slot.key ≠ none) →
    ∀ slot ∈ slots, ((slots.map Slot.key).zip (fillFields layout slots items)).lookup slot.key =
      slot.fill layout (((slots.map Slot.key).zip items).lookup slot.key)
  | first :: slots, items, hkeys, hrequired, slot, hslot => by
    rw [List.map_cons, List.nodup_cons] at hkeys
    have hne : ∀ s ∈ slots, s.key ≠ first.key := fun s hs heq =>
      hkeys.1 (List.mem_map.2 ⟨s, hs, heq⟩)
    -- keys are distinct, so the first field hides no later one
    have hskip : ∀ s ∈ slots, ∀ (j : Json) (l : List (String × Json)),
        ((first.key, j) :: l).lookup s.key = l.lookup s.key := fun s hs j l => by
      rw [List.lookup_cons, beq_eq_false_iff_ne.2 (hne s hs)]
    cases items with
    | nil =>
      obtain ⟨d, hd⟩ := Option.ne_none_iff_exists'.1 fun hnone =>
        hrequired first List.mem_cons_self hnone (by simp)
      simp only [fillFields, defaults, hd, List.map_cons, List.zip_cons_cons, List.zip_nil_right,
        List.lookup_nil]
      rcases List.mem_cons.1 hslot with rfl | hslot
      · simp [Slot.fill, hd]
      · rw [hskip slot hslot]
        have ih : ((slots.map Slot.key).zip (fillFields layout slots [])).lookup slot.key =
            slot.fill layout (((slots.map Slot.key).zip []).lookup slot.key) :=
          lookup_fillFields hkeys.2 (fun s hs hnone => by
            simpa using hrequired s (List.mem_cons_of_mem _ hs) hnone) slot hslot
        simpa [fillFields] using ih
    | cons j items =>
      simp only [fillFields, List.map_cons, List.zip_cons_cons]
      rcases List.mem_cons.1 hslot with rfl | hslot
      · simp [Slot.fill]
      · rw [hskip slot hslot, hskip slot hslot]
        refine lookup_fillFields hkeys.2 (fun s hs hnone => ?_) slot hslot
        have := hrequired s (List.mem_cons_of_mem _ hs) hnone
        rwa [List.map_cons, List.zip_cons_cons, hskip s hs] at this

/-- What the fields of a filled record are. -/
theorem fields?_fill {kind : κ} {distinct : (slots.map Slot.key).Nodup}
    (hkind : layout kind = .record slots distinct) {j : Json} {v : String → Option Json}
    (h : j.fields? (slots.map Slot.key) = some v)
    (hrequired : ∀ slot ∈ slots, slot.default = none → v slot.key ≠ none) :
    ∃ v', (fill layout (.node kind) j).fields? (slots.map Slot.key) = some v' ∧
      ∀ slot ∈ slots, v' slot.key = slot.fill layout (v slot.key) := by
  cases j with
  | obj members =>
    simp only [fill, hkind]
    exact fields?_fill_obj distinct h
  | arr items =>
    simp only [fields?, List.length_map] at h
    split at h
    · rename_i hlength
      cases h
      simp only [fill, hkind, fields?, List.length_map, if_pos (length_fillFields_le hlength)]
      exact ⟨_, rfl, lookup_fillFields distinct hrequired⟩
    · cases h
  | _ => cases h

end

/-! ## Nothing is missing -/

section

variable {κ : Type} (layout : κ → Layout κ)

/-- Somewhere in the value an optional field is missing. -/
inductive Lacks : Shape κ → Json → Prop
  /-- An object does not have it. -/
  | key {kind : κ} {slots : List (Slot κ)} {distinct : (slots.map Slot.key).Nodup}
      {members : List (String × Json)} {slot : Slot κ}
      (hkind : layout kind = .record slots distinct) (hslot : slot ∈ slots)
      (hdefault : slot.default ≠ none) (hnone : members.lookup slot.key = none) :
      Lacks (.node kind) (.obj members)
  /-- An array ends before it. -/
  | position {kind : κ} {slots rest : List (Slot κ)} {distinct : (slots.map Slot.key).Nodup}
      {items : List Json} {slot : Slot κ} (hkind : layout kind = .record slots distinct)
      (hslot : slots.drop items.length = slot :: rest) (hdefault : slot.default ≠ none) :
      Lacks (.node kind) (.arr items)
  | member {kind : κ} {slots : List (Slot κ)} {distinct : (slots.map Slot.key).Nodup}
      {members : List (String × Json)} {m : String × Json}
      (hkind : layout kind = .record slots distinct) (hm : m ∈ members)
      (h : Lacks (shapeAt (Slot.shapes slots) m.1) m.2) : Lacks (.node kind) (.obj members)
  | field {kind : κ} {slots : List (Slot κ)} {distinct : (slots.map Slot.key).Nodup}
      {items : List Json} {slot : Slot κ} {j : Json} (hkind : layout kind = .record slots distinct)
      (hj : (slot, j) ∈ slots.zip items) (h : Lacks slot.shape j) : Lacks (.node kind) (.arr items)
  | payload {kind : κ} {payloads : List (String × Shape κ)} {members : List (String × Json)}
      {m : String × Json} (hkind : layout kind = .choice payloads) (hm : m ∈ members)
      (h : Lacks (shapeAt payloads m.1) m.2) : Lacks (.node kind) (.obj members)
  | item {kind : κ} {items : List Json} {j : Json} (hj : j ∈ items) (h : Lacks (.node kind) j) :
      Lacks (.nodes kind) (.arr items)

variable {layout}

theorem Slot.not_lacks_default {slot : Slot κ} {d : Json} (h : slot.default = some d) :
    ¬ Lacks layout slot.shape d := by
  intro hlacks
  cases slot with
  | required => cases h
  | optional => cases h; cases hlacks
  | many =>
    cases h
    cases hlacks with
    | item hj => cases hj
  | value => cases hlacks

theorem Slot.fill_ne_none {slot : Slot κ} (h : slot.default ≠ none) (field : Option Json) :
    slot.fill layout field ≠ none := by
  cases field with
  | some j => exact Option.some_ne_none _
  | none => exact h

/-- A filled array ends at its last field, or before a required one. -/
theorem drop_defaults : ∀ {slots rest : List (Slot κ)} {slot : Slot κ},
    slots.drop (defaults slots).length = slot :: rest → slot.default = none
  | first :: slots, rest, slot, h => by
    rw [defaults] at h
    split at h
    · exact drop_defaults h
    · rename_i hnone
      cases h
      exact hnone

theorem drop_fillFields : ∀ {slots rest : List (Slot κ)} {items : List Json} {slot : Slot κ},
    slots.drop (fillFields layout slots items).length = slot :: rest → slot.default = none
  | slots, rest, [], slot, h => by rw [fillFields] at h; exact drop_defaults h
  | first :: slots, rest, j :: items, slot, h => by
    rw [fillFields] at h
    exact drop_fillFields h
  | [], rest, j :: items, slot, h => by simp at h

theorem mem_zip_defaults : ∀ {slots : List (Slot κ)} {slot : Slot κ} {j : Json},
    (slot, j) ∈ slots.zip (defaults slots) → slot.default = some j
  | first :: slots, slot, j, h => by
    rw [defaults] at h
    split at h
    · rename_i d hd
      rw [List.zip_cons_cons, List.mem_cons] at h
      rcases h with h | h
      · cases h
        exact hd
      · exact mem_zip_defaults h
    · cases h

theorem mem_zip_fillFields :
    ∀ {slots : List (Slot κ)} {items : List Json} {slot : Slot κ} {j : Json},
      (slot, j) ∈ slots.zip (fillFields layout slots items) →
        slot.default = some j ∨ ∃ i ∈ items, j = fill layout slot.shape i
  | slots, [], slot, j, h => by rw [fillFields] at h; exact .inl (mem_zip_defaults h)
  | first :: slots, i :: items, slot, j, h => by
    rw [fillFields, List.zip_cons_cons, List.mem_cons] at h
    rcases h with h | h
    · cases h
      exact .inr ⟨i, List.mem_cons_self, rfl⟩
    · rcases mem_zip_fillFields h with hd | ⟨i', hi', hj⟩
      · exact .inl hd
      · exact .inr ⟨i', List.mem_cons_of_mem _ hi', hj⟩

/-- What an object lacks. -/
theorem lacks_record {kind : κ} {slots : List (Slot κ)} {distinct : (slots.map Slot.key).Nodup}
    {members : List (String × Json)} (hkind : layout kind = .record slots distinct)
    (h : Lacks layout (.node kind) (.obj members)) :
    (∃ slot ∈ slots, slot.default ≠ none ∧ members.lookup slot.key = none) ∨
      ∃ m ∈ members, Lacks layout (shapeAt (Slot.shapes slots) m.1) m.2 := by
  cases h with
  | key hkind' hslot hdefault hnone =>
    cases hkind.symm.trans hkind'
    exact .inl ⟨_, hslot, hdefault, hnone⟩
  | member hkind' hm h =>
    cases hkind.symm.trans hkind'
    exact .inr ⟨_, hm, h⟩
  | payload hkind' => cases hkind.symm.trans hkind'

/-- What an array lacks. -/
theorem lacks_fields {kind : κ} {slots : List (Slot κ)} {distinct : (slots.map Slot.key).Nodup}
    {items : List Json} (hkind : layout kind = .record slots distinct)
    (h : Lacks layout (.node kind) (.arr items)) :
    (∃ slot rest, slots.drop items.length = slot :: rest ∧ slot.default ≠ none) ∨
      ∃ slot j, (slot, j) ∈ slots.zip items ∧ Lacks layout slot.shape j := by
  cases h with
  | position hkind' hslot hdefault =>
    cases hkind.symm.trans hkind'
    exact .inl ⟨_, _, hslot, hdefault⟩
  | field hkind' hj h =>
    cases hkind.symm.trans hkind'
    exact .inr ⟨_, _, hj, h⟩

/-- What a tagged value lacks. -/
theorem lacks_choice {kind : κ} {payloads : List (String × Shape κ)} {j : Json}
    (hkind : layout kind = .choice payloads) (h : Lacks layout (.node kind) j) :
    ∃ members, j = .obj members ∧ ∃ m ∈ members, Lacks layout (shapeAt payloads m.1) m.2 := by
  cases h with
  | payload hkind' hm h =>
    cases hkind.symm.trans hkind'
    exact ⟨_, rfl, _, hm, h⟩
  | key hkind' | member hkind' | position hkind' | field hkind' => cases hkind.symm.trans hkind'

/-- **After filling, no optional field is missing.** -/
theorem not_lacks_fill (s : Shape κ) (j : Json) : ¬ Lacks layout s (fill layout s j) := by
  suffices key : ∀ n, ∀ j : Json, j.depth ≤ n →
      ∀ s : Shape κ, ¬ Lacks layout s (fill layout s j) from
    key _ j (Nat.le_refl _) s
  intro n
  induction n with
  | zero => intro j hj; have := depth_pos j; omega
  | succ n ih =>
    intro j hj s hlacks
    have hitem : ∀ {items : List Json} {i : Json}, j = .arr items → i ∈ items → i.depth ≤ n := by
      rintro items i rfl hi
      exact Nat.le_trans (depth_le_depthItems hi) (Nat.le_of_succ_le_succ hj)
    -- filled members lack nothing, whatever their shapes
    have hmembers : ∀ {members : List (String × Json)} {shapes : List (String × Shape κ)} {m},
        j = .obj members → m ∈ fillMembers layout shapes members →
        ¬ Lacks layout (shapeAt shapes m.1) m.2 := by
      rintro members shapes m rfl hm
      rw [fillMembers_eq_map] at hm
      obtain ⟨m, hmem, rfl⟩ := List.mem_map.1 hm
      exact ih m.2 (Nat.le_trans (depth_le_depthMembers hmem) (Nat.le_of_succ_le_succ hj)) _
    cases s with
    | plain => cases hlacks
    | nodes kind =>
      cases j with
      | arr items =>
        simp only [fill, fillItems_eq_map] at hlacks
        cases hlacks with
        | item hi h =>
          obtain ⟨i, hmem, rfl⟩ := List.mem_map.1 hi
          exact ih i (hitem rfl hmem) _ h
      | _ => cases hlacks
    | node kind =>
      cases hkind : layout kind with
      | record slots distinct =>
        cases j with
        | obj members =>
          simp only [fill, hkind] at hlacks
          rcases lacks_record hkind hlacks with ⟨slot, hslot, hdefault, hnone⟩ | ⟨m, hm, h⟩
          · rw [lookup_filled distinct members hslot] at hnone
            exact Slot.fill_ne_none hdefault _ hnone
          · rcases List.mem_append.1 hm with hm | hm
            · exact hmembers rfl hm h
            · obtain ⟨slot, hslot, -, hdefault, hkey⟩ := mem_absent.1 hm
              rw [← hkey, shapeAt_key distinct hslot] at h
              exact Slot.not_lacks_default hdefault h
        | arr items =>
          simp only [fill, hkind] at hlacks
          rcases lacks_fields hkind hlacks with ⟨slot, rest, hslot, hdefault⟩ | ⟨slot, i, hi, h⟩
          · exact hdefault (drop_fillFields hslot)
          · rcases mem_zip_fillFields hi with hdefault | ⟨i, hmem, rfl⟩
            · exact Slot.not_lacks_default hdefault h
            · exact ih i (hitem rfl hmem) _ h
        | _ => cases hlacks
      | choice payloads =>
        obtain ⟨members', heq, m, hm, h⟩ := lacks_choice hkind hlacks
        cases j with
        | obj members =>
          simp only [fill, hkind, Json.obj.injEq] at heq
          exact hmembers rfl (heq ▸ hm) h
        | arr items => simp only [fill, hkind, reduceCtorEq] at heq
        | _ => cases heq

end

end UnionChecker.Json
