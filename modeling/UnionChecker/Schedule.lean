/-!
# Running jobs

Jobs are independent of each other and have a place in a list. They run one after the other, or on
a bounded number of workers whose results arrive in any order. The outcome of a job is kept under
its place, so the order of arrival does not show. When there is no worker to be had for a job, the
job is run at once. After a failure a run may stop early; what has not reported by then is skipped.
-/

namespace UnionChecker

/-- What became of a job. -/
inductive Outcome (α : Type) where
  | done (result : α)
  /-- There was no result before the deadline. -/
  | timedOut
  /-- The run stopped before. -/
  | skipped
deriving DecidableEq, Repr

namespace Schedule

/-- How jobs are run. -/
structure Limits where
  parallel : Bool
  /-- The number of workers, taken as at least one. -/
  workers : Nat
  /-- Stop at the first failure. -/
  failFast : Bool

/-- What a run on workers waits for. -/
inductive Event where
  /-- The worker of the job at a place reports. -/
  | report (place : Nat)
  /-- The deadlines of jobs pass. -/
  | expire (places : List Nat)
deriving DecidableEq, Repr

/-- What a run on workers meets with. -/
structure Course where
  /-- What happens, one after the other. -/
  events : List Event
  /-- Whether there is a worker to be had for the job at a place. -/
  hasWorker : Nat → Bool := fun _ => true

section

variable {ι α : Type}

/-- Run jobs one after the other. -/
def runInTurn (run : ι → α) (failed : α → Bool) (failFast : Bool) : List ι → List (Outcome α)
  | [] => []
  | job :: jobs =>
    let result := run job
    .done result ::
      (if failFast && failed result then jobs.map (fun _ => .skipped)
      else runInTurn run failed failFast jobs)

/-- The state of a run on workers. Jobs are kept with their places. -/
structure Pool (ι α : Type) where
  /-- Jobs that no worker has yet. -/
  queue : List (Nat × ι)
  /-- Jobs that a worker has. -/
  running : List (Nat × ι)
  settled : List (Nat × Outcome α)
  stopped : Bool

/-- All jobs wait. -/
def Pool.initial (jobs : List ι) : Pool ι α :=
  ⟨(jobs.zipIdx).map fun (job, place) => (place, job), [], [], false⟩

/-- Give the jobs of a queue to free workers. A job without a worker is run at once. -/
def Pool.assign (run : ι → α) (failed : α → Bool) (limits : Limits) (hasWorker : Nat → Bool) :
    List (Nat × ι) → Pool ι α → Pool ι α
  | [], pool => { pool with queue := [] }
  | (place, job) :: queue, pool =>
    if pool.stopped || decide (max 1 limits.workers ≤ pool.running.length) then
      { pool with queue := (place, job) :: queue }
    else if hasWorker place then
      Pool.assign run failed limits hasWorker queue
        { pool with running := pool.running ++ [(place, job)] }
    else
      let result := run job
      Pool.assign run failed limits hasWorker queue
        { pool with
          settled := (place, .done result) :: pool.settled
          stopped := limits.failFast && failed result }

/-- Give jobs to free workers. -/
def Pool.fill (run : ι → α) (failed : α → Bool) (limits : Limits) (hasWorker : Nat → Bool)
    (pool : Pool ι α) : Pool ι α :=
  Pool.assign run failed limits hasWorker pool.queue pool

/-- One event. A report of a job that is not running, because its deadline has passed, is
dropped. -/
def Pool.step (run : ι → α) (failed : α → Bool) (limits : Limits) (hasWorker : Nat → Bool)
    (pool : Pool ι α) : Event → Pool ι α
  | .report place =>
    if pool.stopped then pool
    else
      match pool.running.lookup place with
      | none => pool
      | some job =>
        let result := run job
        Pool.fill run failed limits hasWorker { pool with
          running := pool.running.filter fun entry => entry.1 != place
          settled := (place, .done result) :: pool.settled
          stopped := limits.failFast && failed result }
  | .expire places =>
    if pool.stopped then pool
    else
      let expired := pool.running.filter fun entry => places.contains entry.1
      if expired.isEmpty then pool
      else Pool.fill run failed limits hasWorker { pool with
        running := pool.running.filter fun entry => !places.contains entry.1
        settled := expired.map (fun entry => (entry.1, .timedOut)) ++ pool.settled
        stopped := limits.failFast }

/-- The pool after a course of events. -/
def Pool.after (run : ι → α) (failed : α → Bool) (limits : Limits) (course : Course)
    (jobs : List ι) : Pool ι α :=
  course.events.foldl (Pool.step run failed limits course.hasWorker)
    (Pool.fill run failed limits course.hasWorker (.initial jobs))

/-- The outcomes of the first `count` places. -/
def Pool.outcomes (pool : Pool ι α) (count : Nat) : List (Outcome α) :=
  (List.range count).map fun place => (pool.settled.lookup place).getD .skipped

/-- Run jobs on workers. -/
def runOnWorkers (run : ι → α) (failed : α → Bool) (limits : Limits) (course : Course)
    (jobs : List ι) : List (Outcome α) :=
  (Pool.after run failed limits course jobs).outcomes jobs.length

/-- The jobs that a run on workers has begun. -/
def begunOnWorkers (run : ι → α) (failed : α → Bool) (limits : Limits) (course : Course)
    (jobs : List ι) : List ι :=
  jobs.take (jobs.length - (Pool.after run failed limits course jobs).queue.length)

/-- The course in which every job has a worker, and the jobs report in the order of their places. -/
def inOrder (count : Nat) : Course := { events := (List.range count).map .report }

/-- Run jobs within limits. -/
def runBounded (run : ι → α) (failed : α → Bool) (limits : Limits) (course : Course)
    (jobs : List ι) : List (Outcome α) :=
  if limits.parallel then runOnWorkers run failed limits course jobs
  else runInTurn run failed limits.failFast jobs

end

end Schedule

end UnionChecker
