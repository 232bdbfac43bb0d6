import UnionChecker.Ref
/-!
# Types

A type is a generic parameter, an instance of a declared type, a function type with generics of
its own, or a union. Unions are represented as they come: that their members are flat, distinct
and sorted is the work of `Ty.join` and not part of the representation, so that a tree read from
outside can be a type too.
-/

namespace UnionChecker

/-- What the declaration of a struct, an interface or a built-in type fixes. -/
structure Nominal where
  ref : Ref
  /-- Names of the generic parameters, as declared. -/
  formals : List String
  /-- Whether values may be stored in a struct field. Interfaces may not. -/
  storable : Bool
deriving DecidableEq, Repr

/-- Types of expressions. -/
inductive Ty where
  /-- A generic parameter. -/
  | var (name : String)
  /-- A declared type at its generic arguments. -/
  | named (decl : Nominal) (args : List Ty)
  /-- A function type. Parameter names are kept, but do not tell types apart. -/
  | fn (generics : List String) (params : List (String × Ty)) (result : Ty)
  /-- A value of any member. The empty union has no values. -/
  | union (members : List Ty)
deriving Repr, Inhabited

/-- The signature of a function: its generics, its named parameters and its result. -/
structure Signature where
  generics : List String
  params : List (String × Ty)
  result : Ty
deriving Repr

/-- The function type with this signature. -/
def Signature.toTy (s : Signature) : Ty := .fn s.generics s.params s.result

namespace Ty

/-! ## Built-in types -/

/-- A built-in type without generics. -/
def builtin (name : String) : Ty := .named ⟨⟨"", name⟩, [], true⟩ []

def string : Ty := builtin "String"
def int : Ty := builtin "Int"
def float : Ty := builtin "Float"
def boolean : Ty := builtin "Boolean"
def void : Ty := builtin "Void"

/-- Lists with elements of type `of`. -/
def list (of : Ty) : Ty := .named ⟨⟨"", "List"⟩, ["T"], true⟩ [of]

/-- The empty union. -/
def nothing : Ty := .union []

/-! ## Size -/

mutual

/-- Number of constructors in a type. -/
def size : Ty → Nat
  | .var _ => 1
  | .named _ args => 1 + sizeAll args
  | .fn _ params result => 1 + sizeParams params + size result
  | .union members => 1 + sizeAll members

/-- Total size of a list of types. -/
def sizeAll : List Ty → Nat
  | [] => 0
  | t :: ts => size t + sizeAll ts

/-- Total size of the types of a parameter list. -/
def sizeParams : List (String × Ty) → Nat
  | [] => 0
  | (_, t) :: ps => size t + sizeParams ps

end

/-! ## Names -/

/-- Names between angle brackets, or nothing when there are none. -/
def bracketed : List String → String
  | [] => ""
  | names => "<" ++ ", ".intercalate names ++ ">"

mutual

/-- The name of a type as it is shown to users. Types are ordered by it. -/
def name : Ty → String
  | .var x => "<" ++ x ++ ">"
  | .named decl args => decl.ref.display ++ bracketed (nameAll args)
  | .fn generics params result =>
    bracketed generics ++ "(" ++ ", ".intercalate (nameParams params) ++ ") ~> " ++ name result
  | .union members => " | ".intercalate (nameAll members)

/-- The names of a list of types. -/
def nameAll : List Ty → List String
  | [] => []
  | t :: ts => name t :: nameAll ts

/-- The names of the types of a parameter list. -/
def nameParams : List (String × Ty) → List String
  | [] => []
  | (_, t) :: ps => name t :: nameParams ps

end

/-- Types are ordered by their names. -/
def le (a b : Ty) : Bool := textLe a.name b.name

/-! ## Views -/

/-- The members of a union, or the type itself. -/
def members : Ty → List Ty
  | .union ms => ms
  | t => [t]

mutual

/-- The members of a union with nested unions opened, or the type itself. -/
def flatten : Ty → List Ty
  | .union ms => flattenAll ms
  | t => [t]

/-- The opened members of all the types, in order. -/
def flattenAll : List Ty → List Ty
  | [] => []
  | t :: ts => flatten t ++ flattenAll ts

end

/-- Whether this is the built-in type `name`. -/
def isBuiltin (t : Ty) (name : String) : Bool :=
  match t with
  | .named decl _ => decl.ref == ⟨"", name⟩
  | _ => false

/-- Whether this is the type of `null`. -/
def isVoid (t : Ty) : Bool := t.isBuiltin "Void"

/-- The element type of a list type. -/
def listElement? : Ty → Option Ty
  | .named decl args => if decl.ref == ⟨"", "List"⟩ then args.head? else none
  | _ => none

/-- The signature of a function type. -/
def signature? : Ty → Option Signature
  | .fn generics params result => some ⟨generics, params, result⟩
  | _ => none

mutual

/-- Whether a value of this type may be stored in a struct field. -/
def storable : Ty → Bool
  | .var _ => true
  | .named decl _ => decl.storable
  | .fn _ _ _ => false
  | .union ms => storableAll ms

/-- Whether values of all these types may be stored in a struct field. -/
def storableAll : List Ty → Bool
  | [] => true
  | t :: ts => storable t && storableAll ts

end

end Ty

/-- The name of the function type with this signature. -/
def Signature.name (s : Signature) : String := s.toTy.name

/-- A declared type applied to its own generic parameters. -/
def Nominal.declared (decl : Nominal) : Ty := .named decl (decl.formals.map .var)

end UnionChecker
