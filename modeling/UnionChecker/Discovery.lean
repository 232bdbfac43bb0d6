import UnionChecker.Program.Tree
/-!
# Tests and entry points

What a declaration is for shows in its type alone, so tests and entry points are found without a
look at the code.
-/

namespace UnionChecker

/-- The tests of a program, each list in order. -/
structure FoundTests where
  unitTests : List Ref
  unitTestSuites : List Ref
  goIntegrationTests : List Ref
deriving DecidableEq, Repr

namespace FoundTests

def count (t : FoundTests) : Nat :=
  t.unitTests.length + t.unitTestSuites.length + t.goIntegrationTests.length

def isEmpty (t : FoundTests) : Bool :=
  t.unitTests.isEmpty && t.unitTestSuites.isEmpty && t.goIntegrationTests.isEmpty

end FoundTests

/-- The declarations of a program that can be run, each list in order. -/
structure Runnables where
  goMain : List Ref
  webApps : List Ref
deriving DecidableEq, Repr

namespace Program

/-- Whether a type is declared under a full name. -/
def isNamed (ref : Ref) : Ty → Bool
  | .named decl _ => decl.ref == ref
  | _ => false

/-- The declarations of a type with a given full name, in order. -/
def declarationsOf (p : Program) (ref : Ref) : List Ref :=
  sortOrdered Ref.le
    ((p.declarations.filter fun d => isNamed ref d.ty).map fun d => ⟨p.table.package, d.name⟩)

/-- The tests of a program. -/
def tests (p : Program) : FoundTests where
  unitTests := p.declarationsOf ⟨"tenecs.test", "UnitTest"⟩
  unitTestSuites := p.declarationsOf ⟨"tenecs.test", "UnitTestSuite"⟩
  goIntegrationTests := p.declarationsOf ⟨"tenecs.test", "GoIntegrationTest"⟩

/-- What of a program can be run. -/
def runnables (p : Program) : Runnables where
  goMain := p.declarationsOf ⟨"tenecs.go", "Main"⟩
  webApps := p.declarationsOf ⟨"tenecs.web", "WebApp"⟩

end Program

end UnionChecker
