import UnionChecker.Ty.Basic
/-!
# Built-in types and the standard library

Default types are visible everywhere. Everything else belongs to a package of the standard library
and is imported by its full name.
-/

namespace UnionChecker

/-- A struct or interface with its fields in order. -/
structure RecordType where
  decl : Nominal
  fields : List (String × Ty)
deriving Repr

/-- The function that builds a record from its fields. -/
def RecordType.constructor (r : RecordType) : Signature :=
  ⟨r.decl.formals, r.fields, r.decl.declared⟩

/-- Something that can be imported. -/
inductive LibraryItem where
  | record (record : RecordType)
  | function (signature : Signature)
deriving Repr

namespace Library

/-- The types visible without an import, by name. -/
def defaultTypes : List (Nominal × List Ty) :=
  [(⟨⟨"", "Boolean"⟩, [], true⟩, []),
    (⟨⟨"", "Float"⟩, [], true⟩, []),
    (⟨⟨"", "Int"⟩, [], true⟩, []),
    (⟨⟨"", "List"⟩, ["T"], true⟩, [.var "T"]),
    (⟨⟨"", "String"⟩, [], true⟩, []),
    (⟨⟨"", "Void"⟩, [], true⟩, [])]

/-- Whether `name` is a default type. -/
def isDefaultType (name : String) : Bool := defaultTypes.any (fun t => t.1.ref.name == name)

/-- A function of a package. -/
def function (package name : String) (generics : List String) (params : List (String × Ty))
    (result : Ty) : Ref × LibraryItem :=
  (⟨package, name⟩, .function ⟨generics, params, result⟩)

/-- A function type without generics. -/
def fnType (params : List (String × Ty)) (result : Ty) : Ty := .fn [] params result

/-- A record of a package. Interfaces cannot be stored in struct fields. -/
def record (package name : String) (generics : List String) (storable : Bool)
    (fields : List (String × Ty)) : Ref × LibraryItem :=
  (⟨package, name⟩, .record ⟨⟨⟨package, name⟩, generics, storable⟩, fields⟩)

/-- An interface without generics, as a type. -/
def interface (package name : String) : Ty := .named ⟨⟨package, name⟩, [], false⟩ []

/-- The functions of the standard library. -/
def functions : List (Ref × LibraryItem) :=
  [function "tenecs.string" "join" [] [("left", .string), ("right", .string)] .string,
    function "tenecs.string" "startsWith" [] [("str", .string), ("prefix", .string)] .boolean,
    function "tenecs.string" "length" [] [("str", .string)] .int,
    function "tenecs.int" "plus" [] [("a", .int), ("b", .int)] .int,
    function "tenecs.int" "minus" [] [("a", .int), ("b", .int)] .int,
    function "tenecs.int" "times" [] [("a", .int), ("b", .int)] .int,
    function "tenecs.int" "lessThan" [] [("a", .int), ("b", .int)] .boolean,
    function "tenecs.boolean" "and" [] [("a", .boolean), ("b", .boolean)] .boolean,
    function "tenecs.boolean" "or" [] [("a", .boolean), ("b", .boolean)] .boolean,
    function "tenecs.boolean" "not" [] [("b", .boolean)] .boolean,
    function "tenecs.compare" "eq" ["T"] [("first", .var "T"), ("second", .var "T")] .boolean,
    function "tenecs.list" "map" ["A", "B"]
      [("list", .list (.var "A")), ("f", fnType [("a", .var "A")] (.var "B"))] (.list (.var "B")),
    function "tenecs.list" "filter" ["A"]
      [("list", .list (.var "A")), ("keep", fnType [("a", .var "A")] .boolean)] (.list (.var "A")),
    function "tenecs.list" "length" ["A"] [("list", .list (.var "A"))] .int,
    function "tenecs.list" "append" ["A"] [("list", .list (.var "A")), ("a", .var "A")]
      (.list (.var "A"))]

/-- The structs and interfaces of the standard library. -/
def records : List (Ref × LibraryItem) :=
  [record "tenecs.error" "Error" [] true [("message", .string)],
    record "tenecs.test" "Assert" [] false
      [("equal", .fn ["T"] [("value", .var "T"), ("expected", .var "T")] .void),
        ("fail", fnType [("message", .string)] .void)],
    record "tenecs.test" "UnitTestKit" [] false [("assert", interface "tenecs.test" "Assert")],
    record "tenecs.test" "UnitTest" [] false
      [("name", .string),
        ("theTest", fnType [("testkit", interface "tenecs.test" "UnitTestKit")] .void)],
    record "tenecs.test" "UnitTestRegistry" [] false
      [("test", fnType [("test", interface "tenecs.test" "UnitTest")] .void)],
    record "tenecs.test" "UnitTestSuite" [] false
      [("name", .string),
        ("tests", fnType [("registry", interface "tenecs.test" "UnitTestRegistry")] .void)],
    record "tenecs.go" "Console" [] false [("log", fnType [("message", .string)] .void)],
    record "tenecs.go" "Runtime" [] false [("console", interface "tenecs.go" "Console")],
    record "tenecs.go" "Main" [] false
      [("main", fnType [("runtime", interface "tenecs.go" "Runtime")] .void)],
    record "tenecs.test" "GoIntegrationTest" [] false
      [("name", .string),
        ("theTest", fnType [("runtime", interface "tenecs.go" "Runtime")] .void)],
    record "tenecs.web" "WebApp" ["Model", "Event"] false
      [("init", fnType [] (.var "Model")),
        ("update", fnType [("model", .var "Model"), ("event", .var "Event")] (.var "Model")),
        ("view", fnType [("model", .var "Model")] .string)]]

/-- Everything that can be imported. -/
def items : List (Ref × LibraryItem) := records ++ functions

/-- The item with a full name. -/
def lookup (ref : Ref) : Option LibraryItem := items.lookup ref

/-- Whether the standard library has a package. -/
def hasPackage (package : String) : Bool := items.any (fun item => item.1.package == package)

end Library

end UnionChecker
