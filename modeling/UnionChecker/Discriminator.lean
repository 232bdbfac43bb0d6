import UnionChecker.Ty.Error
/-!
# Runtime tests

At run time a record carries the name of its type and not the generics it was built with. To tell
`Box<String>` from `Box<Int>`, the arm of a `when` looks at a *witness field*: for each generic of
a struct, the first field whose declared type is exactly that generic. A generic without one
cannot be told apart, and matching on it is refused.
-/

namespace UnionChecker

/-- For each generic struct, the witness field of each of its generics. -/
abbrev MatchFields := List (Ref × List (Option String))

/-- The witness field of each generic: the first field of exactly that type. -/
def witnessFields (generics : List String) (fields : List (String × Ty)) : List (Option String) :=
  generics.map fun generic =>
    (fields.find? fun field =>
      match field.2 with
      | .var x => x == generic
      | _ => false).map (·.1)

/-- The test that the arm of a `when` makes at run time. -/
inductive Discriminator where
  /-- The value is null. -/
  | void
  /-- The value has this tag, and its witness fields pass their tests. -/
  | tag (ref : Ref) (witnesses : List (String × Discriminator))
  /-- The value is a list whose elements all pass the test. -/
  | list (element : Discriminator)
  /-- The value passes one of the tests. -/
  | anyOf (alternatives : List Discriminator)
deriving Repr, Inhabited

namespace Discriminator

/-- Where a type stands: a union can be tested as an arm or as the elements of a list, but not as
the generic of a struct. -/
inductive Position where
  | arm
  | generic
deriving DecidableEq, Repr

mutual

/-- The test for values of a type. -/
def synthesize (matchFields : MatchFields) : Position → Ty → Except TyError Discriminator
  | .arm, .union ms => (synthesizeAll matchFields ms).map .anyOf
  | .generic, .union ms => .error (.notMatchable (.union ms) .unionInGeneric)
  | _, .var x => .error (.notMatchable (.var x) .generic)
  | _, .fn generics params result =>
    .error (.notMatchable (.fn generics params result) .function)
  | _, .named decl args =>
    if decl.ref == ⟨"", "Void"⟩ then .ok .void
    else if decl.ref == ⟨"", "List"⟩ then
      match args with
      | [] => .error (.wrongGenericCount 1 0)
      | element :: _ => (synthesize matchFields .arm element).map .list
    else
      (synthesizeWitnesses matchFields decl ((matchFields.lookup decl.ref).getD []) decl.formals
        args).map (.tag decl.ref)

/-- The tests of the members of a union. -/
def synthesizeAll (matchFields : MatchFields) : List Ty → Except TyError (List Discriminator)
  | [] => .ok []
  | t :: ts => do
    let first ← synthesize matchFields .arm t
    let rest ← synthesizeAll matchFields ts
    .ok (first :: rest)

/-- The tests of the witness fields for the generics of a struct, given the witness fields and the
names of the generics still to go. -/
def synthesizeWitnesses (matchFields : MatchFields) (decl : Nominal) :
    List (Option String) → List String → List Ty → Except TyError (List (String × Discriminator))
  | _, _, [] => .ok []
  | fields, formals, t :: ts =>
    match fields.head?.join with
    | none => .error (.unnarrowableGeneric decl.ref (formals.head?.getD ""))
    | some field => do
      let first ← synthesize matchFields .generic t
      let rest ← synthesizeWitnesses matchFields decl fields.tail formals.tail ts
      .ok ((field, first) :: rest)

end

/-- The test of a `when` arm of type `t`. -/
def ofTy (matchFields : MatchFields) (t : Ty) : Except TyError Discriminator :=
  synthesize matchFields .arm t

end Discriminator

end UnionChecker
