import UnionChecker.Discriminator
import UnionChecker.Scope.Table
import UnionChecker.Syntax.Tree
/-!
# Typed programs

The result of a check. Every node of a typed expression knows its type, every call the generics it
was made with, and every arm of a `when` the test it makes at run time.
-/

namespace UnionChecker

mutual

/-- A typed expression. -/
inductive TypedExpr where
  | literal (value : Syntax.Literal) (type : Ty)
  /-- A variable. The package is that of a package-level value, none for a local. -/
  | reference (type : Ty) (package : Option String) (name : String)
  | access (type : Ty) (subject : TypedExpr) (field : String)
  /-- A call, with the generics that the callee is used at. -/
  | invocation (type : Ty) (subject : TypedExpr) (generics : List Ty) (args : List TypedExpr)
  | function (function : TypedFunction)
  /-- A local variable. The declaration itself yields nothing. -/
  | declaration (name : String) (value : TypedExpr)
  | conditional (type : Ty) (condition : TypedExpr) (thenBlock elseBlock : List TypedExpr)
  | list (element : Ty) (items : List TypedExpr)
  /-- A choice by type. The cases are in the order of the names of their types. -/
  | choice (type : Ty) (subject : TypedExpr) (cases : List TypedCase)
      (other : Option (List TypedExpr)) (otherName : Option String)

/-- A typed function. -/
structure TypedFunction where
  signature : Signature
  params : List String
  block : List TypedExpr

/-- A typed arm of a `when`. -/
structure TypedCase where
  name : Option String
  type : Ty
  test : Discriminator
  block : List TypedExpr

end

/-- The type of an expression. -/
def TypedExpr.ty : TypedExpr → Ty
  | .literal _ type => type
  | .reference type _ _ => type
  | .access type _ _ => type
  | .invocation type _ _ _ => type
  | .function f => f.signature.toTy
  | .declaration _ _ => .void
  | .conditional type _ _ _ => type
  | .list element _ => .list element
  | .choice type _ _ _ _ => type

/-- The type that a block yields, that of its last expression. -/
def blockType (block : List TypedExpr) : Ty := (block.getLast?.map TypedExpr.ty).getD .void

/-- A checked declaration. -/
structure TypedDeclaration where
  name : String
  value : TypedExpr

/-- The type of a declaration. -/
def TypedDeclaration.ty (d : TypedDeclaration) : Ty := d.value.ty

/-- A checked package. -/
structure Program where
  /-- The symbols that the declarations refer to. -/
  table : Table
  /-- The declarations in source order. -/
  declarations : List TypedDeclaration

namespace Program

/-- The declaration with a name. -/
def declaration? (p : Program) (name : String) : Option TypedDeclaration :=
  p.declarations.find? fun d => d.name == name

/-- The package behind what a file imports under a local name. -/
def nativePackage? (p : Program) (file localName : String) : Option String :=
  p.table.nativePackages.lookup (file, localName)

/-- The test at run time for values of a type. -/
def discriminator (p : Program) (t : Ty) : Except TyError Discriminator :=
  Discriminator.ofTy p.table.matchFields t

end Program

end UnionChecker
