import UnionChecker.Syntax.Tree
/-!
# Building trees

Short constructors for trees that come from a program and not from a file. All spans are zero
unless `Term.placedAt` sets one.
-/

namespace UnionChecker.Syntax

/-- A name without a place. -/
def Name.plain (text : String) : Name := ⟨text, .zero⟩

/-- The parts of a dotted path. -/
def dottedPath (path : String) : List Name := (path.splitOn ".").map .plain

/-! ## Written types -/

namespace TypeExpr

/-- A named type at its generics. -/
def named (name : String) (args : List TypeExpr) : TypeExpr :=
  ⟨[.named (.plain name) args], .zero⟩

/-- All the alternatives of the types. -/
def oneOf (types : List TypeExpr) : TypeExpr :=
  ⟨types.flatMap (·.alternatives), .zero⟩

/-- A function type with unnamed parameters. -/
def fn (generics : List String) (params : List TypeExpr) (result : TypeExpr) : TypeExpr :=
  ⟨[.fn (generics.map .plain) (params.map (Option.none, ·)) result .zero], .zero⟩

/-- `_`. -/
def hole : TypeExpr := ⟨[.hole .zero], .zero⟩

end TypeExpr

/-! ## Terms -/

namespace Term

def literal (value : Literal) : Term := .ofExpr (.literal value .zero)

def var (name : String) : Term := .ofExpr (.reference (.plain name) none .zero)

/-- Unnamed arguments. -/
def arguments (generics : List TypeExpr) (values : List Term) : Arguments :=
  ⟨generics, values.map (⟨none, ·, .zero⟩), .zero⟩

/-- A call of a variable. -/
def call (function : String) (generics : List TypeExpr) (values : List Term) : Term :=
  .ofExpr (.reference (.plain function) (some (arguments generics values)) .zero)

/-- A call of a variable with named arguments. -/
def callNamed (function : String) (values : List (String × Term)) : Term :=
  .ofExpr (.reference (.plain function)
    (some ⟨[], values.map (fun v => ⟨some (.plain v.1), v.2, .zero⟩), .zero⟩) .zero)

/-- A term with one more link. -/
def withLink (subject : Term) (link : Link) : Term :=
  { subject with chain := subject.chain ++ [link] }

/-- `subject.field`. -/
def access (subject : Term) (field : String) : Term :=
  subject.withLink ⟨some ⟨.plain field, false⟩, none, .zero⟩

/-- `subject(values)`. -/
def invoke (subject : Term) (values : List Term) : Term :=
  subject.withLink ⟨none, some (arguments [] values), .zero⟩

/-- `subject->function(values)`. -/
def arrow (subject : Term) (function : String) (values : List Term) : Term :=
  subject.withLink ⟨some ⟨.plain function, true⟩, some (arguments [] values), .zero⟩

def lambda (generics : List String) (params : List (String × Option TypeExpr))
    (result : Option TypeExpr) (body : List Term) : Term :=
  .ofExpr (.lambda ⟨generics.map .plain, params.map (fun p => ⟨.plain p.1, p.2⟩), result, body,
    .zero⟩)

def declare (name : String) (type : Option TypeExpr)
    (shortCircuit : Option ShortCircuit) (value : Term) : Term :=
  .ofExpr (.declaration ⟨.plain name, type, shortCircuit, value, .zero⟩)

/-- A declaration that may leave its block, `name: success ? residual = value`. -/
def shortCircuit (name : String) (success residual : Option TypeExpr) (value : Term) : Term :=
  declare name success (some ⟨residual, .zero⟩) value

def conditional (condition : Term) (thenBlock : List Term) (elseIfs : List (Term × List Term))
    (elseBlock : List Term) : Term :=
  .ofExpr (.conditional ⟨condition, thenBlock, elseIfs.map (fun e => ⟨e.1, e.2, .zero⟩), elseBlock,
    .zero⟩)

def list (generic : Option TypeExpr) (items : List Term) : Term :=
  .ofExpr (.list generic.toList items .zero)

def choose (subject : Term) (arms : List Arm) (other : Option Otherwise) : Term :=
  .ofExpr (.when ⟨subject, arms, other, .zero⟩)

/-- The term at a line and column. The head moves along, and so does the name that it refers to or
declares. -/
def placedAt (t : Term) (line column : Nat) : Term :=
  let span : Span := ⟨0, 0, line, column⟩
  let head : Expr :=
    match t.head with
    | .literal value _ => .literal value span
    | .reference name args _ => .reference { name with span } args span
    | .lambda l => .lambda { l with span }
    | .declaration d => .declaration { d with span, name := { d.name with span } }
    | .conditional c => .conditional { c with span }
    | .list generics items _ => .list generics items span
    | .when w => .when { w with span }
  { t with head, span }

end Term

def Arm.plain (name : Option String) (type : TypeExpr) (body : List Term) : Arm :=
  ⟨name.map .plain, type, body, .zero, .source⟩

def Otherwise.plain (name : Option String) (body : List Term) : Otherwise :=
  ⟨name.map .plain, body, .zero, .source⟩

/-! ## Files -/

def Import.plain (path : String) (renamed : Option String) : Import :=
  ⟨dottedPath path, renamed.map .plain, .zero⟩

def Record.plain (name : String) (generics : List String) (fields : List (String × TypeExpr)) :
    Record :=
  ⟨.plain name, generics.map .plain, fields.map (fun f => (.plain f.1, f.2)), .zero⟩

def TypeAlias.plain (name : String) (generics : List String) (type : TypeExpr) :
    TypeAlias :=
  ⟨.plain name, generics.map .plain, type, .zero⟩

def Declaration.plain (name : String) (type : Option TypeExpr) (value : Term) :
    Declaration :=
  ⟨.plain name, type, none, value, .zero⟩

def File.plain (package : String) (imports : List Import) (declarations : List TopLevel) : File :=
  ⟨⟨dottedPath package, .zero⟩, imports, declarations⟩

end UnionChecker.Syntax
