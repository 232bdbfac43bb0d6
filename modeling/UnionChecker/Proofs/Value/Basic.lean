import UnionChecker.Check.Expr
import UnionChecker.Proofs.Ty.Structure
/-!
# Values, their types, and the tests of `when`

What there is at run time: literals, lists, functions that cannot be looked into, and records, which
carry the name of their type and their fields but not the generics they were built with.

A value has a type or not by its shape alone (`HasType`), and passes a test or not (`accepts`). A
generic that is in scope stands for any set of values.
-/

namespace UnionChecker

open Syntax (Literal)

/-- A value at run time. -/
inductive Value where
  | literal (value : Literal)
  | list (items : List Value)
  | function
  /-- A record of a struct or an interface, with the name of its type. -/
  | record (tag : Ref) (fields : List (String × Value))

/-- The name of the built-in type of a literal. -/
def literalRef : Literal → Ref
  | .float _ => ⟨"", "Float"⟩
  | .int _ => ⟨"", "Int"⟩
  | .string _ => ⟨"", "String"⟩
  | .bool _ => ⟨"", "Boolean"⟩
  | .null => ⟨"", "Void"⟩

namespace Value

/-- The name of its type that a value carries. -/
def tag? : Value → Option Ref
  | .literal l => some (literalRef l)
  | .record tag _ => some tag
  | _ => none

/-- A field of a record. -/
def field? : Value → String → Option Value
  | .record _ fields, name => fields.lookup name
  | _, _ => none

end Value

/-! ## Tests -/

namespace Discriminator

mutual

/-- Whether a value passes a test. -/
def accepts : Discriminator → Value → Bool
  | .void, v =>
    match v with
    | .literal .null => true
    | _ => false
  | .tag ref witnesses, v => v.tag? == some ref && acceptsWitnesses witnesses v
  | .list element, v =>
    match v with
    | .list items => items.all (accepts element)
    | _ => false
  | .anyOf alternatives, v => acceptsSome alternatives v

/-- Whether the witness fields of a value pass their tests. -/
def acceptsWitnesses : List (String × Discriminator) → Value → Bool
  | [], _ => true
  | (field, test) :: witnesses, v =>
    (match v.field? field with
      | some value => accepts test value
      | none => false) && acceptsWitnesses witnesses v

/-- Whether a value passes one of the tests. -/
def acceptsSome : List Discriminator → Value → Bool
  | [], _ => false
  | test :: tests, v => accepts test v || acceptsSome tests v

end

end Discriminator

/-! ## Types of values -/

/-- The constructor of a struct or an interface: its generics, and its fields as parameters. Those of
the package come before those of the standard library. -/
def Table.constructor? (table : Table) (ref : Ref) : Option Signature :=
  (table.constructors.lookup ref).or
    (match Library.lookup ref with
    | some (.record record) => some record.constructor
    | _ => none)

/-- Whether a value has a type, where `ρ` says which values a generic in scope stands for. -/
inductive HasType (table : Table) (ρ : String → Value → Prop) : Value → Ty → Prop
  | var {x : String} {v : Value} (h : ρ x v) : HasType table ρ v (.var x)
  | literal {decl : Nominal} {l : Literal} (h : decl.ref = literalRef l) :
      HasType table ρ (.literal l) (.named decl [])
  | list {decl : Nominal} {element : Ty} {items : List Value} (hdecl : decl.ref = ⟨"", "List"⟩)
      (h : ∀ v ∈ items, HasType table ρ v element) :
      HasType table ρ (.list items) (.named decl [element])
  | function {generics : List String} {params : List (String × Ty)} {result : Ty} :
      HasType table ρ .function (.fn generics params result)
  /-- Every declared field is there and has the declared type at the generics. -/
  | record {decl : Nominal} {args : List Ty} {tag : Ref} {fields : List (String × Value)}
      {generic inst : Signature} (htag : decl.ref = tag)
      (hgeneric : table.constructor? tag = some generic) (hinst : generic.instantiate args = .ok inst)
      (hpresent : ∀ p ∈ inst.params, (fields.lookup p.1).isSome)
      (h : ∀ p ∈ inst.params, ∀ v, fields.lookup p.1 = some v → HasType table ρ v p.2) :
      HasType table ρ (.record tag fields) (.named decl args)
  | union {ms : List Ty} {m : Ty} {v : Value} (hm : m ∈ ms) (h : HasType table ρ v m) :
      HasType table ρ v (.union ms)

end UnionChecker
