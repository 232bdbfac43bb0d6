import UnionChecker.Proofs.PackageCheck
import UnionChecker.Syntax.Construct
/-!
# The answer does not depend on the course of a run

What a check answers is put together from what checking each declaration gives (`outcomes`). A run
that goes on to its end has all of it, whatever the order in which workers report and however many
there are, so the answer is that of checking one declaration after the other. A run that stops at a
failure stops at the first one when it has one worker, and the answer is the first of all failures
(`answerUnder_any_course`). A name that no worker can bear is the one thing that makes a difference
(`unnameableFile_breaks_down`).
-/

namespace UnionChecker

open Syntax

namespace PackageCheck

variable {config : Config} {processors : Nat} {course : Schedule.Course} {bound : Bound}

/-! ## Answers -/

/-- Stopping at a failure leaves the first of all failures. -/
theorem verdict_failFast (table : Table) (all : List (Except Failure TypedDeclaration)) :
    match verdict false table all with
    | .ok program => verdict true table all = .ok program
    | .error found => ∃ first rest, found = first :: rest ∧
        verdict true table all = .error [first] := by
  unfold verdict
  cases hall : failures all with
  | nil => simp
  | cons first rest => exact ⟨first, rest, rfl, by simp⟩

/-! ## Courses -/

/-- In every run of the check no deadline passes, and the run goes on to its end. -/
def Delivers (config : Config) (processors : Nat) (course : Nat → Schedule.Course)
    (files : List SourceFile) : Prop :=
  config.parallel = true → ∀ bound, Bound.ofFiles files = .ok bound →
    (course bound.declarations.length).Delivers (Job.run bound.table (unboundNames bound)) hasFailed
      (limits config processors) (jobs bound)

/-- Whether workers can bear the names of the declarations that are to be checked. -/
def nameable (files : List SourceFile) : Bool :=
  match Bound.ofFiles files with
  | .error _ => true
  | .ok bound => (jobs bound).all Job.nameable

theorem breaksDown_of_nameable (hnames : (jobs bound).all Job.nameable = true) :
    breaksDown config processors course bound = false := by
  rw [breaksDown, Bool.and_eq_false_iff]
  refine Or.inr (List.any_eq_false.2 fun job hjob => ?_)
  simpa using List.all_eq_true.1 hnames job (List.mem_of_mem_take hjob)

theorem breaksDown_eq (hfast : config.failFast = false)
    (hdelivers : config.parallel = true → course.Delivers
      (Job.run bound.table (unboundNames bound)) hasFailed (limits config processors) (jobs bound)) :
    breaksDown config processors course bound = (config.parallel && !(jobs bound).all Job.nameable) := by
  rw [breaksDown]
  cases hparallel : config.parallel with
  | false => rfl
  | true =>
    rw [Schedule.begunOnWorkers_eq hfast (hdelivers hparallel), List.not_all_eq_any_not]

/-- A run to its end is as good as running the jobs in turn, if it does not stop at failures or has
one worker. -/
theorem runBounded_eq_runInTurn
    (hdelivers : config.parallel = true → course.Delivers
      (Job.run bound.table (unboundNames bound)) hasFailed (limits config processors) (jobs bound))
    (hworkers : config.failFast = true → config.parallel = true → config.workers processors ≤ 1) :
    Schedule.runBounded (Job.run bound.table (unboundNames bound)) hasFailed
      (limits config processors) course (jobs bound) =
        Schedule.runInTurn (Job.run bound.table (unboundNames bound)) hasFailed config.failFast
          (jobs bound) := by
  cases hfast : config.failFast with
  | false =>
    rw [Schedule.runInTurn_eq_map fun _ _ => rfl]
    exact Schedule.runBounded_eq_map hfast hdelivers
  | true =>
    rw [Schedule.runBounded]
    split
    · rename_i hparallel
      rw [Schedule.runOnWorkers_eq_runInTurn (hworkers hfast hparallel) (hdelivers hparallel), limits,
        hfast]
    · rw [limits, hfast]

/-- **The answer does not depend on the course of a run**, on any number of processors. Without a stop
at failures it is that of checking one declaration after the other, unless a name is unfit for a
worker. With a stop at failures, and one worker at most, it is the program, or the first of all
failures. Each result is that of its own job, and at every moment each job has one place and is never
begun again. -/
theorem answerUnder_any_course (config : Config) (processors : Nat) (course : Nat → Schedule.Course)
    (files : List SourceFile) (hdelivers : Delivers config processors course files) :
    (config.failFast = false →
      answerUnder config processors course files =
        if config.parallel && !nameable files then none
        else some (checkFiles { config with parallel := false } files)) ∧
    (config.failFast = true →
      (config.parallel = true → config.workers processors ≤ 1 ∧ nameable files = true) →
      match checkFiles { config with parallel := false, failFast := false } files with
      | .ok program => answerUnder config processors course files = some (.ok program)
      | .error found => ∃ first rest, found = first :: rest ∧
          answerUnder config processors course files = some (.error [first])) ∧
    ∀ bound, Bound.ofFiles files = .ok bound →
      let run := Job.run bound.table (unboundNames bound)
      let course := course bound.declarations.length
      let pool := fun moment => Schedule.Pool.after run hasFailed (limits config processors)
        (course.upTo moment) (jobs bound)
      (config.failFast = false →
        Schedule.runBounded run hasFailed (limits config processors) course (jobs bound) =
          (jobs bound).map fun job => .done (run job)) ∧
      ∀ moment, (pool moment).Accounts run (jobs bound) ∧
        ∀ later, moment ≤ later → (pool later).queue <:+ (pool moment).queue := by
  refine ⟨fun hfast => ?_, fun hfast hone => ?_, fun bound hbound => ⟨fun hfast => ?_, ?_⟩⟩
  · rw [answerUnder, checkFiles, checkUnder, nameable]
    cases hbound : Bound.ofFiles files with
    | error failure => simp
    | ok bound =>
      have hend := fun hparallel => hdelivers hparallel bound hbound
      have hturn := checkBound_eq_verdict
        (runBounded_eq_runInTurn hend fun hstops => by rw [hfast] at hstops; cases hstops)
      simp only [breaksDown_eq hfast hend, hturn, checkBound_inOrder]
  · simp only [answerUnder, checkFiles, checkUnder]
    cases hbound : Bound.ofFiles files with
    | error failure => exact ⟨failure, [], rfl, rfl⟩
    | ok bound =>
      have hend := fun hparallel => hdelivers hparallel bound hbound
      have hgoes : breaksDown config processors (course bound.declarations.length) bound = false := by
        cases hparallel : config.parallel with
        | false => simp [breaksDown, hparallel]
        | true =>
          have hnames := (hone hparallel).2
          rw [nameable, hbound] at hnames
          exact breaksDown_of_nameable hnames
      have hturn := checkBound_eq_verdict
        (runBounded_eq_runInTurn hend fun _ hparallel => (hone hparallel).1)
      have hverdict := verdict_failFast bound.table (outcomes bound)
      simp only [hgoes, hturn, hfast, checkBound_inOrder]
      cases hall : verdict false bound.table (outcomes bound) with
      | ok program =>
        rw [hall] at hverdict
        simp [hverdict]
      | error found =>
        rw [hall] at hverdict
        obtain ⟨first, rest, rfl, hstop⟩ := hverdict
        exact ⟨first, rest, rfl, by simp [hstop]⟩
  · exact Schedule.runBounded_eq_map hfast fun hparallel => hdelivers hparallel bound hbound
  · exact fun moment => ⟨Schedule.Pool.accounts_after _ _ _ _ _,
      fun later hlater => Schedule.Pool.queue_after_upTo hlater⟩

/-! ## A run out of order -/

/-- Three declarations, the second of which has a value that is no `String`. -/
def threeFile : SourceFile :=
  ⟨"three", ⟨⟨[.plain "main"], .zero⟩, [],
    [.declaration (.plain "one" none (.literal (.int 1))),
      .declaration (.plain "two" (some (.named "String" [])) (.literal (.int 2))),
      .declaration (.plain "three" none (.literal (.int 3)))]⟩⟩

def threeBound : Bound :=
  ⟨{ package := "main", values := [("three", .int), ("two", .string), ("one", .int)] },
    [⟨"three", .plain "one", .zero,
        .ok (.plain "one" none (.literal (.int 1)), .int)⟩,
      ⟨"three", .plain "two", .zero,
        .ok (.plain "two" (some (.named "String" [])) (.literal (.int 2)), .string)⟩,
      ⟨"three", .plain "three", .zero,
        .ok (.plain "three" none (.literal (.int 3)), .int)⟩]⟩

def twoWorkers : Config := { maxWorkers := some 2 }

/-- There is no worker for the second job, and the first one reports last. -/
def lastFirst : Schedule.Course := ⟨[.report 2, .report 0], fun place => place != 1⟩

theorem ofFiles_threeFile : Bound.ofFiles [threeFile] = .ok threeBound := by
  with_unfolding_all rfl

theorem delivers_lastFirst : Delivers twoWorkers 8 (fun _ => lastFirst) [threeFile] := by
  intro _ bound hbound
  cases hbound.symm.trans ofFiles_threeFile
  exact ⟨by simp [lastFirst], Or.inr (by with_unfolding_all rfl)⟩

theorem answerUnder_any_course_last_first :
    Delivers twoWorkers 8 (fun _ => lastFirst) [threeFile] ∧ nameable [threeFile] = true ∧
      answerUnder twoWorkers 8 (fun _ => lastFirst) [threeFile] =
        some (checkFiles { twoWorkers with parallel := false } [threeFile]) := by
  have hnames : nameable [threeFile] = true := by with_unfolding_all rfl
  have hanswer := (answerUnder_any_course twoWorkers 8 (fun _ => lastFirst) [threeFile]
    delivers_lastFirst).1 rfl
  rw [hnames] at hanswer
  exact ⟨delivers_lastFirst, hnames, hanswer⟩

/-! ## A name that no worker can bear -/

/-- A declaration whose name holds a NUL. -/
def unnameableFile : SourceFile :=
  ⟨"unnameable", ⟨⟨[.plain "main"], .zero⟩, [],
    [.declaration (.plain "a\x00b" none (.literal (.int 1)))]⟩⟩

def unnameableProgram : Program :=
  ⟨{ package := "main", values := [("a\x00b", .int)] }, [⟨"a\x00b", .literal (.int 1) .int⟩]⟩

/-- The package is accepted when its declaration is checked without a worker. On a worker, which
would have to bear the name of the declaration, the check has no answer. -/
theorem unnameableFile_breaks_down :
    answer { twoWorkers with parallel := false } [unnameableFile] =
        some (.ok unnameableProgram) ∧
      answer twoWorkers [unnameableFile] = none := by
  constructor <;> with_unfolding_all rfl

end PackageCheck

end UnionChecker
