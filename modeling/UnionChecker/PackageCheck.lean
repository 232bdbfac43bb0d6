import UnionChecker.Binding.Declarations
import UnionChecker.Config.Basic
import UnionChecker.Schedule
/-!
# Checking a package

The files are bound, and then every declaration that has a type is checked against it. Declarations
are checked independently of each other; references to one without a type fail. The answer is the
typed program, or the failures in source order. Workers bear the names of their declarations, and a
name that no worker can bear leaves a check on workers without an answer.
-/

namespace UnionChecker

open Syntax

namespace PackageCheck

/-- The names of the declarations without a type. -/
def unboundNames (bound : Bound) : List String :=
  bound.declarations.filterMap fun d =>
    match d.result with
    | .ok _ => none
    | .error _ => some d.name.text

/-- A declaration to be checked. -/
structure Job where
  file : String
  name : String
  span : Span
  declaration : Declaration
  ty : Ty

/-- The job of a declaration that has a type. -/
def Job.of? (d : Binding.BoundDeclaration) : Option Job :=
  match d.result with
  | .ok (declaration, ty) => some ⟨d.file, d.name.text, d.span, declaration, ty⟩
  | .error _ => none

/-- Check a declaration. -/
def Job.run (table : Table) (pending : List String) (job : Job) : Except Failure TypedDeclaration :=
  Check.atTopLevel (Check.checkDeclaration ⟨table, job.file, pending⟩ job.declaration job.ty)

/-- Whether a check failed. -/
def hasFailed (result : Except Failure TypedDeclaration) : Bool :=
  match result with
  | .ok _ => false
  | .error _ => true

/-- The result of a job, none when it was skipped. -/
def Job.result (timeoutMs : Nat) (job : Job) :
    Outcome (Except Failure TypedDeclaration) → Option (Except Failure TypedDeclaration)
  | .done result => some result
  | .timedOut => some (.error (.of (.timeout job.name timeoutMs) job.file job.span))
  | .skipped => none

/-- The results of all declarations in source order, given those of the jobs. Declarations without
a type have failed already. -/
def results : List Binding.BoundDeclaration → List (Option (Except Failure TypedDeclaration)) →
    List (Except Failure TypedDeclaration)
  | [], _ => []
  | d :: ds, jobs =>
    match d.result with
    | .error failure => .error failure :: results ds jobs
    | .ok _ => (jobs.head?.join).toList ++ results ds jobs.tail

/-- The limits that settings put on a run, on a machine with the given number of processors. -/
def limits (config : Config) (processors : Nat) : Schedule.Limits :=
  ⟨config.parallel, config.workers processors, config.failFast⟩

/-- The failures among results. -/
def failures (results : List (Except Failure TypedDeclaration)) : List Failure :=
  results.filterMap fun
    | .ok _ => none
    | .error failure => some failure

/-- The declarations among results. -/
def declarations (results : List (Except Failure TypedDeclaration)) : List TypedDeclaration :=
  results.filterMap fun
    | .ok d => some d
    | .error _ => none

/-- The declarations of a bound package that are to be checked. -/
def jobs (bound : Bound) : List Job := bound.declarations.filterMap Job.of?

/-- Check a bound package, with the processors there are and what its workers meet with. -/
def checkBound (config : Config) (processors : Nat) (course : Schedule.Course) (bound : Bound) :
    Except (List Failure) Program :=
  let jobs := jobs bound
  let outcomes := Schedule.runBounded (Job.run bound.table (unboundNames bound)) hasFailed
    (limits config processors) course jobs
  let all := results bound.declarations (jobs.zipWith (Job.result config.timeoutMs) outcomes)
  let found := if config.failFast then (failures all).take 1 else failures all
  if found.isEmpty then .ok ⟨bound.table, declarations all⟩ else .error found

/-- Check the files of a package, on the course for its number of declarations. -/
def checkUnder (config : Config) (processors : Nat) (course : Nat → Schedule.Course)
    (files : List SourceFile) : Except (List Failure) Program :=
  match Bound.ofFiles files with
  | .error failure => .error [failure]
  | .ok bound => checkBound config processors (course bound.declarations.length) bound

/-- Whether a worker can bear the name of a declaration. No name of a worker holds a NUL. -/
def Job.nameable (job : Job) : Bool := !job.name.toList.contains '\x00'

/-- Whether a check on workers breaks down, because a worker is to have a name it cannot bear. -/
def breaksDown (config : Config) (processors : Nat) (course : Schedule.Course) (bound : Bound) :
    Bool :=
  config.parallel &&
    (Schedule.begunOnWorkers (Job.run bound.table (unboundNames bound)) hasFailed
      (limits config processors) course (jobs bound)).any fun job => !job.nameable

/-- The answer of a check, none when it breaks down. -/
def answerUnder (config : Config) (processors : Nat) (course : Nat → Schedule.Course)
    (files : List SourceFile) : Option (Except (List Failure) Program) :=
  match Bound.ofFiles files with
  | .error failure => some (.error [failure])
  | .ok bound =>
    let course := course bound.declarations.length
    if breaksDown config processors course bound then none
    else some (checkBound config processors course bound)

end PackageCheck

/-- Check the files of a package, on one processor. This is the answer unless the check breaks
down. -/
def checkFiles (config : Config) (files : List SourceFile) : Except (List Failure) Program :=
  PackageCheck.checkUnder config 1 Schedule.inOrder files

/-- The answer of a check of the files of a package, none when it breaks down. -/
def answer (config : Config) (files : List SourceFile) : Option (Except (List Failure) Program) :=
  PackageCheck.answerUnder config 1 Schedule.inOrder files

end UnionChecker
