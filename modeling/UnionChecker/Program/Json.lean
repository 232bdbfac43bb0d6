import UnionChecker.Discovery
import UnionChecker.Syntax.Json
import UnionChecker.Ty.Json
/-!
# JSON form of typed programs

The form that code generators read. Maps are objects whose keys are full names.
-/

namespace UnionChecker

mutual

/-- The JSON form of a runtime test. -/
def Discriminator.toJson : Discriminator → Json
  | .void => .str "Void"
  | .tag ref witnesses =>
    .obj [("Tag", .obj [("package", .str ref.package), ("name", .str ref.name),
      ("witnesses", .arr (Discriminator.witnessesToJson witnesses))])]
  | .list element => .obj [("List", Discriminator.toJson element)]
  | .anyOf alternatives => .obj [("AnyOf", .arr (Discriminator.listToJson alternatives))]

/-- The JSON forms of witness tests. -/
def Discriminator.witnessesToJson : List (String × Discriminator) → List Json
  | [] => []
  | (field, test) :: rest =>
    .arr [.str field, Discriminator.toJson test] :: Discriminator.witnessesToJson rest

/-- The JSON forms of tests. -/
def Discriminator.listToJson : List Discriminator → List Json
  | [] => []
  | test :: tests => Discriminator.toJson test :: Discriminator.listToJson tests

end

/-- A text, or null. -/
def optionalText (text : Option String) : Json := (text.map Json.str).getD .null

mutual

/-- The JSON form of a typed expression. -/
def TypedExpr.toJson : TypedExpr → Json
  | .literal value type =>
    .obj [("Literal", .obj [("literal", value.toJson), ("variable_type", type.toJson)])]
  | .reference type package name =>
    .obj [("Reference", .obj [("variable_type", type.toJson), ("package", optionalText package),
      ("name", .str name)])]
  | .access type subject field =>
    .obj [("Access", .obj [("variable_type", type.toJson), ("over", TypedExpr.toJson subject),
      ("field", .str field)])]
  | .invocation type subject generics args =>
    .obj [("Invocation", .obj [("variable_type", type.toJson), ("over", TypedExpr.toJson subject),
      ("generics", .arr (generics.map Ty.toJson)),
      ("arguments", .arr (TypedExpr.listToJson args))])]
  | .function f => .obj [("Function", TypedFunction.toJson f)]
  | .declaration name value =>
    .obj [("Declaration", .obj [("name", .str name), ("expression", TypedExpr.toJson value)])]
  | .conditional type condition thenBlock elseBlock =>
    .obj [("If", .obj [("variable_type", type.toJson), ("condition", TypedExpr.toJson condition),
      ("then_block", .arr (TypedExpr.listToJson thenBlock)),
      ("else_block", .arr (TypedExpr.listToJson elseBlock))])]
  | .list element items =>
    .obj [("List", .obj [("contained", element.toJson),
      ("arguments", .arr (TypedExpr.listToJson items))])]
  | .choice type subject cases other otherName =>
    .obj [("When", .obj [("variable_type", type.toJson), ("over", TypedExpr.toJson subject),
      ("cases", .arr (TypedExpr.casesToJson cases)),
      ("other_case",
        match other with
        | none => .null
        | some block => .arr (TypedExpr.listToJson block)),
      ("other_case_name", optionalText otherName)])]

/-- The JSON form of a typed function. -/
def TypedFunction.toJson : TypedFunction → Json
  | ⟨signature, params, block⟩ =>
    .obj [("variable_type", signature.toJson), ("parameters", Json.strings params),
      ("block", .arr (TypedExpr.listToJson block))]

/-- The JSON forms of typed expressions. -/
def TypedExpr.listToJson : List TypedExpr → List Json
  | [] => []
  | e :: es => TypedExpr.toJson e :: TypedExpr.listToJson es

/-- The JSON forms of the cases of a `when`. -/
def TypedExpr.casesToJson : List TypedCase → List Json
  | [] => []
  | ⟨name, type, test, block⟩ :: cases =>
    .obj [("name", optionalText name), ("variable_type", type.toJson),
      ("discriminator", test.toJson), ("block", .arr (TypedExpr.listToJson block))] ::
      TypedExpr.casesToJson cases

end

/-- The JSON form of a declaration. -/
def TypedDeclaration.toJson (d : TypedDeclaration) : Json :=
  .obj [("name", .str d.name), ("expression", d.value.toJson)]

/-- An object with a member for every entry of a map by full name, in order. -/
def byRef {α : Type} (toJson : α → Json) (entries : List (Ref × α)) : Json :=
  .obj ((sortOrdered (fun a b => Ref.le a.1 b.1) entries).map fun entry =>
    (entry.1.display, toJson entry.2))

namespace Table

/-- The fields of all types. -/
def fieldsJson (t : Table) : Json := byRef fieldsToJson t.fields

/-- The witness fields of all generic structs. -/
def matchFieldsJson (t : Table) : Json := byRef (fun ws => .arr (ws.map optionalText)) t.matchFields

/-- The packages behind imports, by file and local name. -/
def nativePackagesJson (t : Table) : Json :=
  let files := (sortOrdered textLe (t.nativePackages.map (·.1.1))).eraseDups
  .obj (files.map fun file =>
    let imports := t.nativePackages.filter fun entry => entry.1.1 == file
    (file, .obj ((sortOrdered (fun a b => textLe a.1.2 b.1.2) imports).map fun entry =>
      (entry.1.2, .str entry.2))))

end Table

namespace Program

/-- The JSON form of a program. -/
def toJson (p : Program) : Json :=
  .obj [
    ("package", .str p.table.package),
    ("declarations", .arr (p.declarations.map TypedDeclaration.toJson)),
    ("type_aliases", byRef (fun (generics, ty) =>
      .obj [("generics", Json.strings generics), ("variable_type", ty.toJson)])
      p.table.typeAliases),
    ("struct_functions", byRef Signature.toJson p.table.constructors),
    ("native_functions", byRef Signature.toJson p.table.natives),
    ("native_function_packages", p.table.nativePackagesJson),
    ("fields_by_type", p.table.fieldsJson),
    ("struct_type_argument_match_fields", p.table.matchFieldsJson)]

end Program

/-- Full names, as texts. -/
def refsToJson (refs : List Ref) : Json := Json.strings (refs.map Ref.display)

/-- The JSON form of the tests of a program. -/
def FoundTests.toJson (t : FoundTests) : Json :=
  .obj [
    ("unit_tests", refsToJson t.unitTests),
    ("unit_test_suites", refsToJson t.unitTestSuites),
    ("go_integration_tests", refsToJson t.goIntegrationTests)]

/-- The JSON form of what can be run. -/
def Runnables.toJson (r : Runnables) : Json :=
  .obj [("go_main", refsToJson r.goMain), ("web_web_app", refsToJson r.webApps)]

end UnionChecker
