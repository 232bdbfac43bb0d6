import UnionChecker.Json.Value
/-!
# Reading records and tagged values

A record is read field by field: each field has a key and a reader, which is told when the field is
missing and then fails or takes a default. A tagged value is read by the reader of its tag.
-/

namespace UnionChecker.Json

/-! ## Fields -/

/-- The fields of a record with the given keys.

A record is written as an object, where other keys are ignored and none of the given keys may be
repeated, or as an array of its fields in order, where the last ones may be missing. -/
def fields? (keys : List String) : Json → Option (String → Option Json)
  | .obj members =>
    if keys.any (fun key => 1 < (members.filter (fun m => m.1 == key)).length) then none
    else some (members.lookup ·)
  | .arr items =>
    if items.length ≤ keys.length then some ((keys.zip items).lookup ·) else none
  | _ => none

/-- A field that may not be missing. -/
def required {α : Type} (read : Json → Option α) (field : Option Json) : Option α :=
  field.bind read

/-- A field that may be missing, with its default. -/
def fieldOr {α : Type} (default : α) (read : Json → Option α) : Option Json → Option α
  | none => some default
  | some j => read j

/-- A field that may be missing or null. -/
def optionalField {α : Type} (read : Json → Option α) : Option Json → Option (Option α)
  | none => some none
  | some .null => some none
  | some j => (read j).map some

/-- A list, each item read in the same way. -/
def listOf {α : Type} (read : Json → Option α) (j : Json) : Option (List α) :=
  j.arr?.bind (·.mapM read)

/-- A list that may be missing. -/
def listField {α : Type} (read : Json → Option α) : Option Json → Option (List α) :=
  fieldOr [] (listOf read)

/-! ## Records -/

/-- The fields of a record by their keys, and how a value is made of them. -/
structure Fields (α : Type) where
  keys : List String
  read : (String → Option Json) → Option α

namespace Fields

variable {α β : Type}

/-- A value that needs no fields. -/
def of (a : α) : Fields α := ⟨[], fun _ => some a⟩

/-- One field more. -/
def field (f : Fields (β → α)) (key : String) (read : Option Json → Option β) : Fields α :=
  ⟨f.keys ++ [key], fun v => do return (← f.read v) (← read (v key))⟩

/-- Read a record. -/
def ofJson? (f : Fields α) (j : Json) : Option α := (j.fields? f.keys).bind f.read

end Fields

/-! ## Tagged values -/

/-- A tagged value: the tag and its payload. A tag without payload is a bare text. -/
def tagged? : Json → Option (String × Option Json)
  | .str tag => some (tag, none)
  | .obj [(tag, payload)] => some (tag, some payload)
  | _ => none

/-- Read a tagged value, each payload by the reader of its tag. -/
def variant? {α : Type} (readers : List (String × (Option Json → Option α))) (j : Json) :
    Option α := do
  let (tag, payload) ← j.tagged?
  (← readers.lookup tag) payload

/-- A tag without payload, which may also be written with null. -/
def bare {α : Type} (a : α) : Option Json → Option α
  | none | some .null => some a
  | _ => none

end UnionChecker.Json
