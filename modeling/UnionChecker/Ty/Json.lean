import UnionChecker.Json.Fields
import UnionChecker.Ty.Substitution
/-!
# Types as JSON

The form in which types stand in a typed program. Reading one puts nothing in order: the unions of
the type are the unions of the text.
-/

namespace UnionChecker.Ty

mutual

/-- A type as JSON. -/
def toJson : Ty → Json
  | .var x => .obj [("TypeArgument", .obj [("name", .str x)])]
  | .named decl args => .obj [("Known", .obj [
      ("package", .str decl.ref.package),
      ("name", .str decl.ref.name),
      ("declared_generics", Json.strings decl.formals),
      ("generics", .arr (toJsonAll args)),
      ("valid_struct_field", .bool decl.storable)])]
  | .fn generics params result => .obj [("Function", .obj [
      ("generics", Json.strings generics),
      ("arguments", .arr (toJsonParams params)),
      ("return_type", toJson result)])]
  | .union ms => .obj [("Or", .obj [("elements", .arr (toJsonAll ms))])]

/-- The types of a list as JSON. -/
def toJsonAll : List Ty → List Json
  | [] => []
  | t :: ts => toJson t :: toJsonAll ts

/-- The parameters of a function as JSON. -/
def toJsonParams : List (String × Ty) → List Json
  | [] => []
  | (x, t) :: ps => .obj [("name", .str x), ("variable_type", toJson t)] :: toJsonParams ps

end

open Json (Fields required listOf)

/-- Read a text list. -/
def texts? : Json → Option (List String) := listOf Json.str?

/-- Read a type that is at most `depth` deep as JSON. -/
def ofJsonWithin : (depth : Nat) → Json → Option Ty
  | 0, _ => none
  | depth + 1, j =>
    j.variant? [
      ("TypeArgument", required (
        Fields.of Ty.var
          |>.field "name" (required Json.str?)
          |>.ofJson?)),
      ("Known", required (
        Fields.of (fun package name formals args storable =>
            .named ⟨⟨package, name⟩, formals, storable⟩ args)
          |>.field "package" (required Json.str?)
          |>.field "name" (required Json.str?)
          |>.field "declared_generics" (required texts?)
          |>.field "generics" (required (listOf (ofJsonWithin depth)))
          |>.field "valid_struct_field" (required Json.bool?)
          |>.ofJson?)),
      ("Function", required (
        Fields.of Ty.fn
          |>.field "generics" (required texts?)
          |>.field "arguments" (required (listOf (
            Fields.of Prod.mk
              |>.field "name" (required Json.str?)
              |>.field "variable_type" (required (ofJsonWithin depth))
              |>.ofJson?)))
          |>.field "return_type" (required (ofJsonWithin depth))
          |>.ofJson?)),
      ("Or", required (
        Fields.of Ty.union
          |>.field "elements" (required (listOf (ofJsonWithin depth)))
          |>.ofJson?))]

/-- Read a type. -/
def ofJson? (j : Json) : Option Ty := ofJsonWithin j.depth j

end UnionChecker.Ty

namespace UnionChecker

/-- A signature as JSON. -/
def Signature.toJson (s : Signature) : Json :=
  .obj [
    ("generics", Json.strings s.generics),
    ("arguments", .arr (Ty.toJsonParams s.params)),
    ("return_type", s.result.toJson)]

/-- Fields with their types as JSON. -/
def fieldsToJson (fields : List (String × Ty)) : Json :=
  .arr (fields.map fun field => .arr [.str field.1, field.2.toJson])

end UnionChecker
