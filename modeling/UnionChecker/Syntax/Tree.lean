import UnionChecker.Json.Binary64
import UnionChecker.Syntax.Span
/-!
# Syntax trees

The tree of a parsed file. An expression is a *term*: a head followed by a chain of field accesses
and calls, such as `f(x).y(z)`. Two forms are sugar that the checker never sees: a declaration with
a short circuit, `x: T ? R = value`, which leaves its block when the value is an `R`, and an arrow
call, `a->f(b)`.
-/

namespace UnionChecker.Syntax

/-- A name in the text. -/
structure Name where
  text : String
  span : Span
deriving DecidableEq, Repr

/-! ## Written types -/

mutual

/-- A type as it is written: one or several alternatives. -/
structure TypeExpr where
  alternatives : List Alternative
  span : Span

/-- One alternative of a written type. -/
inductive Alternative where
  /-- `_`, a type to be inferred. -/
  | hole (span : Span)
  /-- A named type at its generics. -/
  | named (name : Name) (args : List TypeExpr)
  /-- A function type. -/
  | fn (generics : List Name) (params : List (Option Name × TypeExpr)) (result : TypeExpr)
      (span : Span)

end

/-- Where an alternative stands. -/
def Alternative.span : Alternative → Span
  | .hole span => span
  | .named name _ => name.span
  | .fn _ _ _ span => span

/-! ## Expressions -/

/-- A literal value. -/
inductive Literal where
  | float (value : Binary64)
  | int (value : Int)
  | string (value : String)
  | bool (value : Bool)
  | null
deriving DecidableEq, Repr

/-- Whether an arm of a `when` was written or stands for the early exit of a short circuit. -/
inductive Origin where
  | source
  | shortCircuitResidual
deriving DecidableEq, Repr

/-- `.name`, or `->name` when it is an arrow. -/
structure Member where
  name : Name
  arrow : Bool
deriving DecidableEq, Repr

/-- A parameter of a lambda. -/
structure Parameter where
  name : Name
  type : Option TypeExpr

/-- The early exit of a declaration, with the type that leaves the block if it is given. -/
structure ShortCircuit where
  residual : Option TypeExpr
  span : Span

mutual

/-- A head with the accesses and calls that follow it. -/
structure Term where
  head : Expr
  chain : List Link
  span : Span

/-- One step of a chain: an access, a call, or an access and a call. -/
structure Link where
  access : Option Member
  args : Option Arguments
  span : Span

/-- The generics and arguments of a call. -/
structure Arguments where
  generics : List TypeExpr
  items : List Argument
  span : Span

/-- An argument, perhaps with the name of its parameter. -/
structure Argument where
  label : Option Name
  value : Term
  span : Span

/-- What can stand at the head of a term. -/
inductive Expr where
  | literal (value : Literal) (span : Span)
  /-- A variable, or a call of it. -/
  | reference (name : Name) (args : Option Arguments) (span : Span)
  | lambda (function : Lambda)
  | declaration (declaration : Declaration)
  | conditional (branches : Conditional)
  | list (generics : List TypeExpr) (items : List Term) (span : Span)
  | when (choice : When)

/-- A function literal. -/
structure Lambda where
  generics : List Name
  params : List Parameter
  result : Option TypeExpr
  body : List Term
  span : Span

/-- A variable and its value. -/
structure Declaration where
  name : Name
  type : Option TypeExpr
  shortCircuit : Option ShortCircuit
  value : Term
  span : Span

/-- `if`, with any number of `else if` branches. An absent `else` is an empty block. -/
structure Conditional where
  condition : Term
  thenBlock : List Term
  elseIfs : List ElseIf
  elseBlock : List Term
  span : Span

/-- An `else if` branch. -/
structure ElseIf where
  condition : Term
  thenBlock : List Term
  span : Span

/-- A choice by the type of a value. -/
structure When where
  subject : Term
  arms : List Arm
  other : Option Otherwise
  span : Span

/-- The arm of a `when` for one type. -/
structure Arm where
  name : Option Name
  type : TypeExpr
  body : List Term
  span : Span
  origin : Origin

/-- The arm of a `when` for everything that is left. -/
structure Otherwise where
  name : Option Name
  body : List Term
  span : Span
  origin : Origin

end

/-- Where a head stands. -/
def Expr.span : Expr → Span
  | .literal _ span => span
  | .reference _ _ span => span
  | .lambda l => l.span
  | .declaration d => d.span
  | .conditional c => c.span
  | .list _ _ span => span
  | .when w => w.span

/-- A head without a chain. -/
def Term.ofExpr (head : Expr) : Term := ⟨head, [], head.span⟩

/-! ## Files -/

/-- The package clause of a file. -/
structure Package where
  path : List Name
  span : Span

/-- The package name as it is written. -/
def Package.dotted (p : Package) : String := ".".intercalate (p.path.map (·.text))

/-- An import, perhaps under another name. -/
structure Import where
  path : List Name
  renamed : Option Name
  span : Span

/-- A struct or an interface. -/
structure Record where
  name : Name
  generics : List Name
  fields : List (Name × TypeExpr)
  span : Span

/-- A name for a type. -/
structure TypeAlias where
  name : Name
  generics : List Name
  type : TypeExpr
  span : Span

/-- A declaration of a file. -/
inductive TopLevel where
  | declaration (declaration : Declaration)
  | struct (record : Record)
  | interface (record : Record)
  | typeAlias (typeAlias : TypeAlias)

/-- The declared name. -/
def TopLevel.name : TopLevel → Name
  | .declaration d => d.name
  | .struct r => r.name
  | .interface r => r.name
  | .typeAlias a => a.name

/-- Where the declaration stands. -/
def TopLevel.span : TopLevel → Span
  | .declaration d => d.span
  | .struct r => r.span
  | .interface r => r.span
  | .typeAlias a => a.span

/-- The tree of a file. -/
structure File where
  package : Package
  imports : List Import
  declarations : List TopLevel

/-- A file under the name that errors refer to it by. -/
structure SourceFile where
  name : String
  tree : File

end UnionChecker.Syntax
