import UnionChecker.Ty.Equality
/-!
# Coverage of a `when`

A `when` starts with the members of the type it is over. Each arm takes the members of its own
type, and an `other` arm takes what is left. Taking a member twice, or one that was never there, is
an error; what is left at the end is missing.
-/

namespace UnionChecker

/-- Why an arm cannot take its members. -/
inductive CoverageError where
  /-- An earlier arm took the member. -/
  | duplicate (member : Ty)
  /-- The type has no such member. -/
  | noMatching (member subject : Ty)
deriving Repr

/-- The wording of the error. -/
def CoverageError.message : CoverageError → String
  | .duplicate member => "duplicate case " ++ member.name
  | .noMatching member subject => "no matching for " ++ member.name ++ " in " ++ subject.name

/-- How far the arms of a `when` have come. -/
structure Coverage where
  /-- The type of the value. -/
  subject : Ty
  /-- Members that no arm has taken. -/
  remaining : List Ty
  /-- Members that an arm has taken. -/
  consumed : List Ty
deriving Repr

namespace Coverage

/-- Nothing is taken yet. -/
def ofTy (subject : Ty) : Coverage := ⟨subject, subject.members, []⟩

/-- Whether a member of an arm can be taken. -/
def check (c : Coverage) (member : Ty) : Except CoverageError Unit :=
  if c.consumed.any (fun t => t.equal member) then .error (.duplicate member)
  else if c.remaining.any (fun t => t.equal member) then .ok ()
  else .error (.noMatching member c.subject)

/-- Take one member. -/
def take (c : Coverage) (member : Ty) : Coverage :=
  { c with
    remaining := c.remaining.filter (fun t => !t.equal member)
    consumed := c.consumed ++ [member] }

/-- Take the members of an arm. Every member is checked before the first one is taken. -/
def takeArm (arm : Ty) : ExceptT CoverageError (StateM Coverage) Unit := do
  arm.members.forM fun member => do (← get).check member
  arm.members.forM fun member => modify fun c => c.take member

/-- The state after an arm that can be taken, or why it cannot. -/
def consume (c : Coverage) (arm : Ty) : Except CoverageError Coverage :=
  match (takeArm arm).run c with
  | (.ok (), c') => .ok c'
  | (.error e, _) => .error e

/-- Take everything that is left. -/
def takeRemaining (c : Coverage) : Ty × Coverage :=
  (.join c.remaining, { c with remaining := [], consumed := c.consumed ++ c.remaining })

/-- The names of the members that no arm has taken, in order. There is none exactly when the arms
are exhaustive. -/
def missing (c : Coverage) : List String := sortOrdered textLe (c.remaining.map Ty.name)

end Coverage

/-- The wording of an incomplete `when`. -/
def missingCasesMessage (missing : List String) : String :=
  "missing cases for " ++ ", ".intercalate missing

end UnionChecker
