import UnionChecker.Proofs.Json.Defaults
/-!
# Readers of filled values

Readers of nodes that can nest take a bound on the depth, and a filled value may be deeper than the
value was. So that filling changes nothing is stated of two readers, one for the value and one for
the filled value (`Keeps`). It passes from the readers of the parts to those of lists, fields,
records and tagged values.
-/

namespace UnionChecker.Json

variable {κ α β : Type} {layout : κ → Layout κ} {n : Nat}

/-! ## Values -/

/-- What `read` reads, `read'` reads after filling, if this is at most `n` deep. -/
def Keeps (layout : κ → Layout κ) (s : Shape κ) (n : Nat) (read read' : Json → Option α) : Prop :=
  ∀ j a, read j = some a → (fill layout s j).depth ≤ n → read' (fill layout s j) = some a

namespace Keeps

variable {s : Shape κ} {read read' : Json → Option α}

theorem plain (n : Nat) (read : Json → Option α) : Keeps layout .plain n read read := by
  intro j a h _
  rwa [fill_plain]

/-- No value has depth zero. -/
theorem zero : Keeps layout s 0 read read' := by
  intro j a _ hdepth
  have := depth_pos (fill layout s j)
  omega

/-- A reader that reads nothing. -/
theorem none : Keeps layout s n (fun _ => Option.none) read' := by
  intro j a h
  cases h

/-- A reader with a bound on the depth has to be looked at for positive bounds only. -/
theorem of_succ {read' : Nat → Json → Option α}
    (h : ∀ n, Keeps layout s (n + 1) read (read' (n + 1))) : ∀ n, Keeps layout s n read (read' n)
  | 0 => zero
  | n + 1 => h n

theorem mono {m : Nat} (h : Keeps layout s n read read') (hmn : m ≤ n) :
    Keeps layout s m read read' := fun j a hj hdepth => h j a hj (Nat.le_trans hdepth hmn)

theorem map (h : Keeps layout s n read read') (f : α → β) :
    Keeps layout s n (fun j => (read j).map f) fun j => (read' j).map f := by
  intro j b hj hdepth
  obtain ⟨a, ha, rfl⟩ := Option.map_eq_some_iff.1 hj
  simp only [h j a ha hdepth, Option.map_some]

theorem listOf {kind : κ} (h : Keeps layout (.node kind) n read read') :
    Keeps layout (.nodes kind) n (listOf read) (listOf read') := by
  intro j as hj hdepth
  cases j with
  | arr items =>
    simp only [fill, fillItems_eq_map] at hdepth ⊢
    replace hj : items.mapM read = some as := hj
    show (items.map (fill layout (.node kind))).mapM read' = some as
    have hitem : ∀ i ∈ items, (fill layout (.node kind) i).depth ≤ n := fun i hi =>
      Nat.le_trans (Nat.le_succ_of_le (depth_le_depthItems (List.mem_map_of_mem hi))) hdepth
    clear hdepth
    induction items generalizing as with
    | nil => exact hj
    | cons i items ih =>
      rw [List.mapM_cons] at hj
      obtain ⟨a, ha, hj⟩ := Option.bind_eq_some_iff.1 hj
      obtain ⟨as', has, hj⟩ := Option.bind_eq_some_iff.1 hj
      cases hj
      rw [List.map_cons, List.mapM_cons, h i a ha (hitem i List.mem_cons_self),
        ih as' has fun i hi => hitem i (List.mem_cons_of_mem _ hi)]
      rfl
  | _ => cases hj

end Keeps

/-! ## Fields -/

theorem optionalField_of_ne_null (read : Json → Option α) {j : Json} (hj : j ≠ .null) :
    optionalField read (some j) = (read j).map some := by
  cases j with
  | null => exact absurd rfl hj
  | _ => rfl

/-- What `read` reads from a field, `read'` reads after filling. A required field is not read if it
is missing. -/
structure Slot.Keeps (layout : κ → Layout κ) (slot : Slot κ) (n : Nat)
    (read read' : Option Json → Option α) : Prop where
  fill : ∀ field a, read field = some a →
    (∀ j, slot.fill layout field = some j → j.depth ≤ n) → read' (slot.fill layout field) = some a
  missing : slot.default = none → read none = none

namespace Slot.Keeps

variable {s : Shape κ} {read read' : Json → Option α} {key : String}

theorem required (h : Json.Keeps layout s n read read') :
    (Slot.required key s).Keeps layout n (Json.required read) (Json.required read') where
  fill field a hread hdepth := by
    cases field with
    | none => cases hread
    | some j => exact h j a hread (hdepth _ rfl)
  missing _ := rfl

theorem optional (h : Json.Keeps layout s n read read') :
    (Slot.optional key s).Keeps layout n (optionalField read) (optionalField read') where
  fill field a hread hdepth := by
    cases field with
    | none => exact hread
    | some j =>
      show optionalField read' (some (Json.fill layout s j)) = some a
      by_cases hnull : j = .null
      · subst hnull
        rw [fill_null]
        exact hread
      · rw [optionalField_of_ne_null read hnull] at hread
        obtain ⟨b, hb, rfl⟩ := Option.map_eq_some_iff.1 hread
        rw [optionalField_of_ne_null read' (mt (fill_eq_null layout) hnull),
          h j b hb (hdepth _ rfl)]
        rfl
  missing h := by cases h

theorem many {kind : κ} (h : Json.Keeps layout (.node kind) n read read') :
    (Slot.many key kind).Keeps layout n (listField read) (listField read') where
  fill field as hread hdepth := by
    cases field with
    | none => exact hread
    | some j => exact h.listOf j as hread (hdepth _ rfl)
  missing h := by cases h

theorem value {d : Json} {a : α} (n : Nat) (h : read d = some a) :
    (Slot.value key d : Slot κ).Keeps layout n (fieldOr a read) (fieldOr a read) where
  fill field b hread _ := by
    cases field with
    | none => exact h.trans hread
    | some j => simpa [Slot.fill, Slot.shape] using hread
  missing h := by cases h

end Slot.Keeps

/-! ## Records -/

/-- What is made of fields is made of the filled fields. -/
structure Fields.Keeps (layout : κ → Layout κ) (slots : List (Slot κ)) (n : Nat)
    (f f' : Fields α) : Prop where
  keys : f.keys = slots.map Slot.key
  keys' : f'.keys = slots.map Slot.key
  fill : ∀ v v' a, (∀ slot ∈ slots, v' slot.key = slot.fill layout (v slot.key)) →
    (∀ key j, v' key = some j → j.depth ≤ n) → f.read v = some a → f'.read v' = some a
  missing : ∀ v a, f.read v = some a → ∀ slot ∈ slots, slot.default = none → v slot.key ≠ none

namespace Fields.Keeps

theorem of (n : Nat) (a : α) : Fields.Keeps layout [] n (.of a) (.of a) where
  keys := rfl
  keys' := rfl
  fill _ _ _ _ _ h := h
  missing _ _ _ _ h := by cases h

theorem field {slots : List (Slot κ)} {slot : Slot κ} {f f' : Fields (β → α)}
    {read read' : Option Json → Option β} (h : Fields.Keeps layout slots n f f')
    (hslot : slot.Keeps layout n read read') :
    Fields.Keeps layout (slots ++ [slot]) n (f.field slot.key read) (f'.field slot.key read') where
  keys := by rw [Fields.field, h.keys, List.map_append]; rfl
  keys' := by rw [Fields.field, h.keys', List.map_append]; rfl
  fill v v' a hv hdepth hread := by
    obtain ⟨g, hg, hread⟩ := Option.bind_eq_some_iff.1 hread
    obtain ⟨b, hb, hread⟩ := Option.bind_eq_some_iff.1 hread
    cases hread
    have hlast := hv slot (List.mem_append_right _ (List.mem_singleton_self slot))
    have hg' := h.fill v v' g (fun s hs => hv s (List.mem_append_left _ hs)) hdepth hg
    have hb' := hslot.fill (v slot.key) b hb fun j hj => hdepth slot.key j (hlast.trans hj)
    simp only [Fields.field, hg', hlast, hb']
    rfl
  missing v a hread s hs hdefault hnone := by
    obtain ⟨g, hg, hread⟩ := Option.bind_eq_some_iff.1 hread
    obtain ⟨b, hb, -⟩ := Option.bind_eq_some_iff.1 hread
    rcases List.mem_append.1 hs with hs | hs
    · exact h.missing v g hg s hs hdefault hnone
    · rw [List.mem_singleton.1 hs] at hdefault hnone
      rw [hnone, hslot.missing hdefault] at hb
      cases hb

end Fields.Keeps

theorem Keeps.record {kind : κ} {slots : List (Slot κ)} {distinct : (slots.map Slot.key).Nodup}
    {f f' : Fields α} (hkind : layout kind = .record slots distinct)
    (h : f.Keeps layout slots n f') : Keeps layout (.node kind) (n + 1) f.ofJson? f'.ofJson? := by
  intro j a hread hdepth
  rw [Fields.ofJson?, h.keys] at hread
  obtain ⟨v, hv, hread⟩ := Option.bind_eq_some_iff.1 hread
  obtain ⟨v', hv', hfill⟩ := fields?_fill hkind hv (h.missing v a hread)
  rw [Fields.ofJson?, h.keys', hv', Option.bind_some]
  refine h.fill v v' a hfill (fun key field hfield => ?_) hread
  have := depth_lt_of_fields? hv' hfield
  omega

/-- The same with one bound for a record and its parts. -/
theorem Keeps.record_flat {kind : κ} {slots : List (Slot κ)}
    {distinct : (slots.map Slot.key).Nodup} {f f' : Fields α}
    (hkind : layout kind = .record slots distinct) (h : f.Keeps layout slots n f') :
    Keeps layout (.node kind) n f.ofJson? f'.ofJson? :=
  (Keeps.record hkind h).mono (Nat.le_succ n)

/-! ## Tagged values -/

/-- What `read` reads from a payload, `read'` reads after filling. -/
def PayloadKeeps (layout : κ → Layout κ) (s : Shape κ) (n : Nat)
    (read read' : Option Json → Option α) : Prop :=
  ∀ payload a, read payload = some a → (∀ j, payload = some j → (fill layout s j).depth ≤ n) →
    read' (payload.map (fill layout s)) = some a

theorem Keeps.payload {s : Shape κ} {read read' : Json → Option α}
    (h : Keeps layout s n read read') :
    PayloadKeeps layout s n (required read) (required read') := by
  intro payload a hread hdepth
  cases payload with
  | none => cases hread
  | some j => exact h j a hread (hdepth j rfl)

/-- The readers of the tags, one by one. -/
inductive ChoiceKeeps (layout : κ → Layout κ) (n : Nat) : List (String × Shape κ) →
    List (String × (Option Json → Option α)) → List (String × (Option Json → Option α)) → Prop
  | nil : ChoiceKeeps layout n [] [] []
  | cons {tag : String} {s : Shape κ} {read read' : Option Json → Option α}
      {payloads : List (String × Shape κ)}
      {readers readers' : List (String × (Option Json → Option α))}
      (h : PayloadKeeps layout s n read read')
      (rest : ChoiceKeeps layout n payloads readers readers') :
      ChoiceKeeps layout n ((tag, s) :: payloads) ((tag, read) :: readers)
        ((tag, read') :: readers')

theorem ChoiceKeeps.lookup {payloads : List (String × Shape κ)}
    {readers readers' : List (String × (Option Json → Option α))}
    (h : ChoiceKeeps layout n payloads readers readers') {tag : String}
    {read : Option Json → Option α} (hread : readers.lookup tag = some read) :
    ∃ read', readers'.lookup tag = some read' ∧
      PayloadKeeps layout (shapeAt payloads tag) n read read' := by
  induction h with
  | nil => cases hread
  | @cons tag' s r r' payloads readers readers' hr rest ih =>
    rw [List.lookup_cons] at hread
    by_cases htag : tag = tag'
    · subst htag
      simp only [beq_self_eq_true, Option.some.injEq] at hread
      subst hread
      exact ⟨r', by simp, by simpa [shapeAt] using hr⟩
    · rw [beq_eq_false_iff_ne.2 htag] at hread
      obtain ⟨read', hread', hkeeps⟩ := ih hread
      refine ⟨read', ?_, ?_⟩
      · rwa [List.lookup_cons, beq_eq_false_iff_ne.2 htag]
      · rwa [shapeAt, List.lookup_cons, beq_eq_false_iff_ne.2 htag]

theorem Keeps.choice {kind : κ} {payloads : List (String × Shape κ)}
    {readers readers' : List (String × (Option Json → Option α))}
    (hkind : layout kind = .choice payloads) (h : ChoiceKeeps layout n payloads readers readers') :
    Keeps layout (.node kind) (n + 1) (variant? readers) (variant? readers') := by
  intro j a hread hdepth
  obtain ⟨⟨tag, payload⟩, htagged, hread⟩ := Option.bind_eq_some_iff.1 hread
  obtain ⟨read, hlookup, hread⟩ := Option.bind_eq_some_iff.1 hread
  obtain ⟨read', hlookup', hkeeps⟩ := h.lookup hlookup
  have hfill : (fill layout (.node kind) j).tagged? =
        some (tag, payload.map (fill layout (shapeAt payloads tag))) ∧
      ∀ i, payload = some i → (fill layout (shapeAt payloads tag) i).depth ≤ n := by
    unfold tagged? at htagged
    split at htagged
    · cases htagged
      exact ⟨rfl, fun i hi => by cases hi⟩
    · cases htagged
      simp only [fill, hkind, fillMembers, depth, depthMembers] at hdepth ⊢
      refine ⟨rfl, fun i hi => ?_⟩
      cases hi
      omega
    · cases htagged
  simp only [variant?, hfill.1, Option.bind_eq_bind, Option.bind_some, hlookup']
  exact hkeeps payload a hread hfill.2

/-! ## Written values -/

/-- The value is read as `a`, if it is at most `n` deep. -/
def Reads (n : Nat) (read : Json → Option α) (j : Json) (a : α) : Prop :=
  j.depth ≤ n → read j = some a

/-- The same for the value of a field. -/
def FieldReads (n : Nat) (read : Option Json → Option α) (j : Json) (a : α) : Prop :=
  j.depth ≤ n → read (some j) = some a

/-- What fields of values that are at most `n` deep make up. -/
def Fields.Reads (n : Nat) (f : Fields α) (v : String → Option Json) (a : α) : Prop :=
  (∀ key j, v key = some j → j.depth ≤ n) → f.read v = some a

namespace Reads

variable {read : Json → Option α} {j : Json} {a : α}

theorem zero : Reads 0 read j a := by
  intro hdepth
  have := depth_pos j
  omega

theorem required (h : Reads n read j a) : FieldReads n (required read) j a := h

theorem fieldOr (h : Reads n read j a) (d : α) : FieldReads n (fieldOr d read) j a := h

theorem map (h : Reads n read j a) (f : α → β) : Reads n (fun j => (read j).map f) j (f a) := by
  intro hdepth
  simp only [h hdepth, Option.map_some]

theorem listOf {write : α → Json} {as : List α} (h : ∀ a ∈ as, Reads n read (write a) a) :
    Reads n (listOf read) (.arr (as.map write)) as := by
  intro hdepth
  have hread : ∀ a ∈ as, read (write a) = some a := fun a ha =>
    h a ha (Nat.le_trans (Nat.le_succ_of_le (depth_le_depthItems (List.mem_map_of_mem ha))) hdepth)
  show (as.map write).mapM read = some as
  clear h hdepth
  induction as with
  | nil => rfl
  | cons a as ih =>
    rw [List.map_cons, List.mapM_cons, hread a List.mem_cons_self,
      ih fun a ha => hread a (List.mem_cons_of_mem _ ha)]
    rfl

end Reads

namespace FieldReads

variable {read : Json → Option α} {write : α → Json}

theorem optional {a? : Option α} (hnull : read .null = none)
    (h : ∀ a ∈ a?, Reads n read (write a) a) :
    FieldReads n (optionalField read) ((a?.map write).getD .null) a? := by
  intro hdepth
  cases a? with
  | none => rfl
  | some a =>
    have hread := h a rfl hdepth
    have hne : write a ≠ .null := by
      intro heq
      rw [heq, hnull] at hread
      cases hread
    rw [Option.map_some, Option.getD_some, optionalField_of_ne_null read hne, hread]
    rfl

theorem many {as : List α} (h : ∀ a ∈ as, Reads n read (write a) a) :
    FieldReads n (listField read) (.arr (as.map write)) as := Reads.listOf h

end FieldReads

namespace Fields.Reads

variable {v : String → Option Json}

theorem of (n : Nat) (a : α) : Fields.Reads n (.of a) v a := fun _ => rfl

theorem field {f : Fields (β → α)} {read : Option Json → Option β} {g : β → α} {b : β}
    {key : String} {j : Json} (h : Fields.Reads n f v g) (hv : v key = some j)
    (hfield : FieldReads n read j b) : Fields.Reads n (f.field key read) v (g b) := by
  intro hdepth
  simp only [Fields.field, h hdepth, hv, hfield (hdepth key j hv)]
  rfl

end Fields.Reads

theorem Reads.record {f : Fields α} {members : List (String × Json)} {a : α}
    (hkeys : (members.map (·.1)).Nodup) (h : f.Reads n (members.lookup ·) a) :
    Reads (n + 1) f.ofJson? (.obj members) a := by
  intro hdepth
  have hfields : fields? f.keys (.obj members) = some (members.lookup ·) :=
    fields?_obj.2 ⟨fun key _ => List.nodup_iff_count_le_one.1 hkeys key, rfl⟩
  rw [Fields.ofJson?, hfields, Option.bind_some]
  refine h fun key j hj => ?_
  have := depth_lt_of_fields? hfields hj
  omega

theorem Reads.record_flat {f : Fields α} {members : List (String × Json)} {a : α}
    (hkeys : (members.map (·.1)).Nodup) (h : f.Reads n (members.lookup ·) a) :
    Reads n f.ofJson? (.obj members) a := fun hdepth =>
  Reads.record hkeys h (Nat.le_succ_of_le hdepth)

theorem Reads.tagged {readers : List (String × (Option Json → Option α))} {tag : String}
    {read : Option Json → Option α} {payload : Json} {a : α}
    (hread : readers.lookup tag = some read) (h : FieldReads n read payload a) :
    Reads (n + 1) (variant? readers) (.obj [(tag, payload)]) a := by
  intro hdepth
  simp only [variant?, tagged?, Option.bind_eq_bind, Option.bind_some, hread]
  simp only [depth, depthMembers] at hdepth
  exact h (by omega)

end UnionChecker.Json
