import UnionChecker.Failure
import UnionChecker.Scope.Table
/-!
# Scopes

Inside a declaration, local names live in a stack of frames over the symbol table. A name is looked
up in the frames, the innermost first, then among the imports of the file, then in the package, and
a type at last among the default types. Package-level names whose type is not known yet are
*pending*.
-/

namespace UnionChecker

/-- The names that one construct introduces. -/
structure Frame where
  values : List (String × Ty) := []
  generics : List String := []
deriving Repr

/-- The frames in scope, the innermost first. -/
abbrev Frames := List Frame

namespace Frames

/-- The scope of a declaration before anything is defined in it. -/
def initial : Frames := [{}]

def push (frames : Frames) : Frames := {} :: frames

/-- Leave the innermost frame. The last one stays. -/
def pop : Frames → Frames
  | _ :: frame :: frames => frame :: frames
  | frames => frames

/-- Change the innermost frame. -/
def modifyInnermost (f : Frame → Frame) : Frames → Frames
  | [] => [f {}]
  | frame :: frames => f frame :: frames

/-- The innermost frame. -/
def innermost (frames : Frames) : Frame := frames.head?.getD {}

/-- Bind a local in the innermost frame; fails when the frame has one of that name. The name `_`
binds nothing. -/
def defineValue (frames : Frames) (name : String) (ty : Ty) : Option Frames :=
  if name == "_" then some frames
  else if hasKey name frames.innermost.values then none
  else some (frames.modifyInnermost fun frame => { frame with values := put name ty frame.values })

/-- Bring a generic into the innermost frame; fails when the frame has it. -/
def defineGeneric (frames : Frames) (name : String) : Option Frames :=
  if frames.innermost.generics.contains name then none
  else some (frames.modifyInnermost fun frame =>
    { frame with generics := name :: frame.generics })

/-- The type of a local. -/
def value? (frames : Frames) (name : String) : Option Ty :=
  frames.findSome? fun frame => frame.values.lookup name

/-- Whether a generic is in scope. -/
def hasGeneric (frames : Frames) (name : String) : Bool :=
  frames.any fun frame => frame.generics.contains name

end Frames

/-- What surrounds the frames: the table, the file, and the names still pending. -/
structure Context where
  table : Table
  file : String
  pending : List String := []
deriving Repr

/-- A value that a name refers to. -/
structure Resolved where
  type : Ty
  /-- The package of a package-level value, none for a local. -/
  package : Option String
  /-- Its name in that package. -/
  name : String
deriving Repr

/-- Why a name has no value. -/
inductive LookupError where
  | notFound
  /-- The type is still being inferred. -/
  | pending
deriving DecidableEq, Repr

namespace Context

/-- The value that a name refers to. -/
def resolveValue (Γ : Context) (frames : Frames) (name : String) : Except LookupError Resolved :=
  match frames.value? name with
  | some ty => .ok ⟨ty, none, name⟩
  | none =>
    match Γ.table.fileValues.lookup (Γ.file, name) with
    | some imported => .ok ⟨imported.type, some imported.origin.package, imported.origin.name⟩
    | none =>
      if Γ.pending.contains name then .error .pending
      else
        match Γ.table.values.lookup name with
        | some ty => .ok ⟨ty, some Γ.table.package, name⟩
        | none => .error .notFound

/-- The default type of a name. -/
def defaultType? (name : String) : Option TypeSymbol :=
  (Library.defaultTypes.find? fun t => t.1.ref.name == name).map fun t => .named t.1 t.2

/-- What the name of a type refers to. -/
def lookupType (Γ : Context) (frames : Frames) (name : String) : Option TypeSymbol :=
  if frames.hasGeneric name then some .generic
  else
    (Γ.table.fileTypes.lookup (Γ.file, name)).or
      ((Γ.table.types.lookup name).or (defaultType? name))

/-- A failure in the file of the context. -/
def failure (Γ : Context) (cause : Cause) (span : Syntax.Span) : Failure :=
  .of cause Γ.file span

end Context

end UnionChecker
