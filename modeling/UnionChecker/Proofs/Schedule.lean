import Mathlib.Data.List.Nodup
import UnionChecker.Proofs.Lists
import UnionChecker.Proofs.Steps
import UnionChecker.Schedule
/-!
# Runs on workers

A pool changes by four kinds of moves (`Pool.Move`): a job is given to a worker, a job without a
worker is run at once, a worker reports, and deadlines pass. What every move keeps holds at every
moment of a run (`Pool.after_invariant`). So at every moment each job has one place, and what is
settled for it is its own result or that it was late (`accounts_after`).

When no deadline passes and the run goes on to its end, every job is done, unless it stops at
failures (`runBounded_eq_map`). With one worker the run gives what running the jobs in turn gives
(`runOnWorkers_eq_runInTurn`), and so it does with many when they report in order
(`runBounded_inOrder`).
-/

namespace UnionChecker.Schedule

variable {ι α : Type} {run : ι → α} {failed : α → Bool} {limits : Limits} {hasWorker : Nat → Bool}
  {course : Course} {jobs : List ι} {pool pool' : Pool ι α} {expires : Prop}

/-! ## Moves -/

/-- One change of a pool that has not stopped. Deadlines pass only if they may. -/
inductive Pool.Move (run : ι → α) (failed : α → Bool) (limits : Limits) (expires : Prop) :
    Pool ι α → Pool ι α → Prop
  | begin {queue running : List (Nat × ι)} {settled : List (Nat × Outcome α)} {place : Nat}
      {job : ι} (hfree : running.length < max 1 limits.workers) :
      Move run failed limits expires ⟨(place, job) :: queue, running, settled, false⟩
        ⟨queue, running ++ [(place, job)], settled, false⟩
  | inline {queue running : List (Nat × ι)} {settled : List (Nat × Outcome α)} {place : Nat}
      {job : ι} (hfree : running.length < max 1 limits.workers) :
      Move run failed limits expires ⟨(place, job) :: queue, running, settled, false⟩
        ⟨queue, running, (place, .done (run job)) :: settled, limits.failFast && failed (run job)⟩
  | report {queue running : List (Nat × ι)} {settled : List (Nat × Outcome α)} {place : Nat}
      {job : ι} (hjob : running.lookup place = some job) :
      Move run failed limits expires ⟨queue, running, settled, false⟩
        ⟨queue, running.filter fun entry => entry.1 != place,
          (place, .done (run job)) :: settled, limits.failFast && failed (run job)⟩
  | expire {queue running : List (Nat × ι)} {settled : List (Nat × Outcome α)} {places : List Nat}
      (hexpires : expires)
      (hlate : running.filter (fun entry => places.contains entry.1) ≠ []) :
      Move run failed limits expires ⟨queue, running, settled, false⟩
        ⟨queue, running.filter fun entry => !places.contains entry.1,
          (running.filter fun entry => places.contains entry.1).map (fun entry =>
            (entry.1, .timedOut)) ++ settled, limits.failFast⟩

section

variable {I : Pool ι α → Prop}

theorem Pool.assign_invariant
    (hmove : ∀ pool pool', I pool → Pool.Move run failed limits expires pool pool' → I pool') :
    ∀ (queue : List (Nat × ι)) (pool : Pool ι α), I { pool with queue } →
      I (pool.assign run failed limits hasWorker queue)
  | [], _, h => h
  | (place, job) :: queue, ⟨_, running, settled, stopped⟩, h => by
    rw [Pool.assign]
    split
    · exact h
    · rename_i hbusy
      simp only [Bool.or_eq_true, decide_eq_true_eq, not_or, Bool.not_eq_true, Nat.not_le] at hbusy
      obtain ⟨rfl, hfree⟩ := hbusy
      split
      · exact Pool.assign_invariant hmove queue _ (hmove _ _ h (.begin hfree))
      · exact Pool.assign_invariant hmove queue _ (hmove _ _ h (.inline hfree))

theorem Pool.step_invariant
    (hmove : ∀ pool pool', I pool → Pool.Move run failed limits expires pool pool' → I pool')
    {event : Event} (hevent : ∀ places, event = .expire places → expires) (h : I pool) :
    I (pool.step run failed limits hasWorker event) := by
  obtain ⟨queue, running, settled, stopped⟩ := pool
  cases stopped with
  | true => cases event <;> exact h
  | false =>
    cases event with
    | report place =>
      simp only [Pool.step, Bool.false_eq_true, if_false]
      split
      · exact h
      · rename_i job hjob
        exact Pool.assign_invariant hmove queue _ (hmove _ _ h (.report hjob))
    | expire places =>
      simp only [Pool.step, Bool.false_eq_true, if_false]
      split
      · exact h
      · rename_i hlate
        refine Pool.assign_invariant hmove queue _ (hmove _ _ h (.expire (hevent places rfl) ?_))
        simpa using hlate

/-- **What every move keeps holds at every moment of a run.** -/
theorem Pool.after_invariant
    (hmove : ∀ pool pool', I pool → Pool.Move run failed limits expires pool pool' → I pool')
    (hevents : ∀ places, .expire places ∈ course.events → expires) (h : I (.initial jobs)) :
    I (Pool.after run failed limits course jobs) := by
  refine foldl_invariant (fun pool event hevent hpool => ?_)
    (Pool.assign_invariant hmove _ _ h)
  exact Pool.step_invariant hmove (fun places heq => hevents places (heq ▸ hevent)) hpool

end

/-! ## Places -/

/-- The jobs with their places. -/
def placed (jobs : List ι) : List (Nat × ι) := jobs.zipIdx.map fun (job, place) => (place, job)

theorem getElem?_placed (place : Nat) : (placed jobs)[place]? = jobs[place]?.map (place, ·) := by
  simp [placed, List.getElem?_zipIdx, Function.comp_def]

theorem getElem?_of_mem_placed {entry : Nat × ι} (h : entry ∈ placed jobs) :
    jobs[entry.1]? = some entry.2 := by
  obtain ⟨place, hplace⟩ := List.mem_iff_getElem?.1 h
  rw [getElem?_placed, Option.map_eq_some_iff] at hplace
  obtain ⟨job, hjob, rfl⟩ := hplace
  exact hjob

theorem map_fst_placed (jobs : List ι) : (placed jobs).map (·.1) = List.range jobs.length := by
  refine List.ext_getElem? fun place => ?_
  rw [List.getElem?_map, getElem?_placed]
  by_cases hplace : place < jobs.length
  · simp [hplace]
  · simp [Nat.le_of_not_lt hplace]

theorem length_placed (jobs : List ι) : (placed jobs).length = jobs.length := by simp [placed]

theorem drop_placed {count : Nat} {job : ι} (h : jobs[count]? = some job) :
    (placed jobs).drop count = (count, job) :: (placed jobs).drop (count + 1) := by
  refine List.drop_eq_getElem?_toList_append.trans ?_
  simp [getElem?_placed, h]

/-- The first entry from a place on is the job at this place. -/
theorem of_drop_placed {count place : Nat} {job : ι} {rest : List (Nat × ι)}
    (h : (placed jobs).drop count = (place, job) :: rest) :
    place = count ∧ jobs[count]? = some job ∧ rest = (placed jobs).drop (count + 1) := by
  have hplace : (placed jobs)[count]? = some (place, job) := by
    rw [← List.head?_drop, h]
    rfl
  rw [getElem?_placed, Option.map_eq_some_iff] at hplace
  obtain ⟨job', hjob, heq⟩ := hplace
  cases heq
  rw [drop_placed hjob, List.cons.injEq] at h
  exact ⟨rfl, hjob, h.2.symm⟩

theorem take_placed {count : Nat} {job : ι} (h : jobs[count]? = some job) :
    (placed jobs).take (count + 1) = (placed jobs).take count ++ [(count, job)] := by
  rw [List.take_add_one, getElem?_placed, h]
  rfl

/-- The entries whose places are kept, by their places. -/
theorem count_filter_fst {β : Type} (keep : Nat → Bool) (entries : List (Nat × β)) (place : Nat) :
    ((entries.filter fun entry => keep entry.1).map (·.1)).count place =
      if keep place then (entries.map (·.1)).count place else 0 := by
  have hmap : (entries.filter fun entry => keep entry.1).map (·.1) =
      (entries.map (·.1)).filter keep := by rw [List.filter_map]; rfl
  rw [hmap]
  split
  · rename_i hkeep
    exact List.count_filter hkeep
  · rename_i hkeep
    exact List.count_eq_zero.2 fun hmem => hkeep (List.mem_filter.1 hmem).2

/-! ## Each job has one place -/

/-- Where the jobs are at a moment of a run. -/
structure Pool.Accounts (run : ι → α) (jobs : List ι) (pool : Pool ι α) : Prop where
  /-- Each job waits, is running or is settled, and only one of these. -/
  places : (pool.queue.map (·.1) ++ pool.running.map (·.1) ++ pool.settled.map (·.1)).Perm
    (List.range jobs.length)
  /-- What waits are the last jobs in their order. -/
  queue : pool.queue <:+ placed jobs
  running : ∀ entry ∈ pool.running, jobs[entry.1]? = some entry.2
  /-- What is settled for a job is its own result, or that it was late. -/
  settled : ∀ entry ∈ pool.settled, entry.2 = .timedOut ∨
    ∃ job, jobs[entry.1]? = some job ∧ entry.2 = .done (run job)

theorem Pool.Accounts.count (h : pool.Accounts run jobs) (place : Nat) :
    (pool.queue.map (·.1)).count place + (pool.running.map (·.1)).count place +
      (pool.settled.map (·.1)).count place = (List.range jobs.length).count place := by
  rw [← h.places.count_eq, List.count_append, List.count_append]

theorem count_range_le_one (count place : Nat) : (List.range count).count place ≤ 1 :=
  List.nodup_iff_count_le_one.1 List.nodup_range place

theorem Pool.accounts_initial (run : ι → α) (jobs : List ι) :
    (Pool.initial jobs).Accounts run jobs where
  places := by
    have hplaces := map_fst_placed jobs
    rw [placed] at hplaces
    simp [Pool.initial, hplaces]
  queue := List.suffix_refl _
  running := by simp [Pool.initial]
  settled := by simp [Pool.initial]

theorem Pool.Accounts.move (h : pool.Accounts run jobs)
    (hmove : Pool.Move run failed limits expires pool pool') : pool'.Accounts run jobs := by
  have hcount := h.count
  obtain ⟨-, hqueue, hrunning, hsettled⟩ := h
  cases hmove with
  | @begin queue running settled place job hfree =>
    refine ⟨List.perm_iff_count.2 fun p => ?_, (List.suffix_cons _ _).trans hqueue, ?_, hsettled⟩
    · rw [← hcount p]
      simp only [List.map_append, List.map_cons, List.map_nil, List.count_append, List.count_cons,
        List.count_nil]
      omega
    · refine List.forall_mem_append.2 ⟨hrunning, List.forall_mem_singleton.2 ?_⟩
      exact getElem?_of_mem_placed (hqueue.subset List.mem_cons_self)
  | @inline queue running settled place job hfree =>
    refine ⟨List.perm_iff_count.2 fun p => ?_, (List.suffix_cons _ _).trans hqueue, hrunning, ?_⟩
    · rw [← hcount p]
      simp only [List.map_cons, List.count_append, List.count_cons]
      omega
    · refine List.forall_mem_cons.2 ⟨Or.inr ⟨job, ?_, rfl⟩, hsettled⟩
      exact getElem?_of_mem_placed (hqueue.subset List.mem_cons_self)
  | @report queue running settled place job hjob =>
    have hmem := mem_of_lookup_eq_some hjob
    refine ⟨List.perm_iff_count.2 fun p => ?_, hqueue, ?_, ?_⟩
    · -- the place stands once in all, so leaving out all its entries leaves out one
      have hfilter := count_filter_fst (fun q => q != place) running p
      have honce := count_range_le_one jobs.length p
      have hpositive : 0 < (running.map (·.1)).count place :=
        List.count_pos_iff.2 (List.mem_map_of_mem hmem)
      rw [← hcount p] at honce ⊢
      simp only [List.map_cons, List.count_append, List.count_cons] at honce ⊢
      rw [hfilter]
      by_cases hp : p = place
      · subst hp
        simp only [bne_self_eq_false, Bool.false_eq_true, if_false, beq_self_eq_true, if_true]
        omega
      · simp [hp, Ne.symm hp]
    · exact fun entry hentry => hrunning entry (List.mem_filter.1 hentry).1
    · exact List.forall_mem_cons.2 ⟨Or.inr ⟨job, hrunning _ hmem, rfl⟩, hsettled⟩
  | @expire queue running settled places hexpires hlate =>
    refine ⟨List.perm_iff_count.2 fun p => ?_, hqueue, ?_, ?_⟩
    · have hkept := count_filter_fst (fun q => !places.contains q) running p
      have hdropped := count_filter_fst (fun q => places.contains q) running p
      rw [← hcount p]
      simp only [List.map_append, List.map_map, List.count_append, Function.comp_def]
      rw [hkept, hdropped]
      cases places.contains p
      · simp
      · simp
        omega
    · exact fun entry hentry => hrunning entry (List.mem_filter.1 hentry).1
    · refine List.forall_mem_append.2 ⟨?_, hsettled⟩
      exact List.forall_mem_map.2 fun _ _ => Or.inl rfl

/-- **At every moment each job has one place**, and no other job's result is settled for it. -/
theorem Pool.accounts_after (run : ι → α) (failed : α → Bool) (limits : Limits) (course : Course)
    (jobs : List ι) : (Pool.after run failed limits course jobs).Accounts run jobs :=
  Pool.after_invariant (fun _ _ h hmove => h.move hmove) (fun _ _ => trivial)
    (Pool.accounts_initial run jobs)

theorem Pool.Accounts.nodup (h : pool.Accounts run jobs) : (pool.settled.map (·.1)).Nodup := by
  have hnodup := (h.places.nodup_iff).2 List.nodup_range
  exact (List.nodup_append.1 hnodup).2.1

theorem getElem?_outcomes {count place : Nat} (hplace : place < count) :
    (pool.outcomes count)[place]? = some ((pool.settled.lookup place).getD .skipped) := by
  rw [Pool.outcomes, List.getElem?_map, List.getElem?_range hplace]
  rfl

theorem length_outcomes (pool : Pool ι α) (count : Nat) : (pool.outcomes count).length = count := by
  simp [Pool.outcomes]

/-! ## Nothing is left out -/

/-- No more reports are waited for. -/
def Pool.AtRest (pool : Pool ι α) : Prop := pool.stopped = true ∨ pool.running = []

/-- A course in which no deadline passes and the run goes on to its end. -/
structure Course.Delivers (run : ι → α) (failed : α → Bool) (limits : Limits) (jobs : List ι)
    (course : Course) : Prop where
  timely : ∀ places, .expire places ∉ course.events
  rest : (Pool.after run failed limits course jobs).AtRest

/-- Running jobs in turn, none of which stops the run. -/
theorem runInTurn_eq_map {failFast : Bool} : ∀ {jobs : List ι},
    (∀ job ∈ jobs, (failFast && failed (run job)) = false) →
    runInTurn run failed failFast jobs = jobs.map fun job => .done (run job)
  | [], _ => rfl
  | job :: jobs, h => by
    obtain ⟨hjob, hjobs⟩ := List.forall_mem_cons.1 h
    simp [runInTurn, hjob, runInTurn_eq_map hjobs]

/-- As long as a job waits, some worker has one. -/
def Pool.Busy (pool : Pool ι α) : Prop :=
  pool.stopped = false → pool.running = [] → pool.queue = []

theorem Pool.busy_assign : ∀ (queue : List (Nat × ι)) (pool : Pool ι α),
    (pool.assign run failed limits hasWorker queue).Busy
  | [], _ => fun _ _ => rfl
  | (place, job) :: queue, pool => by
    rw [Pool.assign]
    split
    · rename_i hfull
      intro hgoing hnil
      simp only at hgoing hnil
      rw [hgoing, hnil] at hfull
      simp at hfull
    · split
      · exact Pool.busy_assign queue _
      · exact Pool.busy_assign queue _

theorem Pool.busy_after (run : ι → α) (failed : α → Bool) (limits : Limits) (course : Course)
    (jobs : List ι) : (Pool.after run failed limits course jobs).Busy := by
  refine foldl_invariant (fun pool event _ hbusy => ?_) (Pool.busy_assign _ _)
  cases event <;> simp only [Pool.step]
  · split
    · exact hbusy
    · split
      · exact hbusy
      · exact Pool.busy_assign _ _
  · split
    · exact hbusy
    · split
      · exact hbusy
      · exact Pool.busy_assign _ _

/-- What is settled is done, and a run that has stopped has done so at a failure. -/
structure Pool.Timely (run : ι → α) (failed : α → Bool) (limits : Limits) (jobs : List ι)
    (pool : Pool ι α) : Prop extends pool.Accounts run jobs where
  done : ∀ entry ∈ pool.settled, entry.2 ≠ .timedOut
  stopped : pool.stopped = true → limits.failFast = true ∧
    ∃ place job, jobs[place]? = some job ∧ failed (run job) = true ∧
      (place, .done (run job)) ∈ pool.settled

theorem Pool.Timely.move (h : pool.Timely run failed limits jobs)
    (hmove : Pool.Move run failed limits False pool pool') :
    pool'.Timely run failed limits jobs := by
  have haccounts := h.toAccounts.move hmove
  cases hmove with
  | begin hfree => exact ⟨haccounts, h.done, fun hstopped => nomatch hstopped⟩
  | @inline queue running settled place job hfree =>
    refine ⟨haccounts, List.forall_mem_cons.2 ⟨nofun, h.done⟩, fun hstopped => ?_⟩
    obtain ⟨hfast, hfailed⟩ := Bool.and_eq_true_iff.1 hstopped
    have hjob := getElem?_of_mem_placed (h.queue.subset List.mem_cons_self)
    exact ⟨hfast, place, job, hjob, hfailed, List.mem_cons_self⟩
  | @report queue running settled place job hjob =>
    refine ⟨haccounts, List.forall_mem_cons.2 ⟨nofun, h.done⟩, fun hstopped => ?_⟩
    obtain ⟨hfast, hfailed⟩ := Bool.and_eq_true_iff.1 hstopped
    have hplace := h.running _ (mem_of_lookup_eq_some hjob)
    exact ⟨hfast, place, job, hplace, hfailed, List.mem_cons_self⟩
  | expire hexpires => exact hexpires.elim

theorem Course.Delivers.timely_after (h : course.Delivers run failed limits jobs) :
    (Pool.after run failed limits course jobs).Timely run failed limits jobs :=
  Pool.after_invariant (fun _ _ hpool hmove => hpool.move hmove) h.timely
    ⟨Pool.accounts_initial run jobs, by simp [Pool.initial], fun hstopped => nomatch hstopped⟩

/-- When nothing waits and nothing is running, every job is done. -/
theorem Pool.Timely.outcomes_eq (h : pool.Timely run failed limits jobs) (hqueue : pool.queue = [])
    (hrunning : pool.running = []) :
    pool.outcomes jobs.length = jobs.map fun job => .done (run job) := by
  have hplaces := h.places
  rw [hqueue, hrunning] at hplaces
  refine List.ext_getElem? fun place => ?_
  rw [List.getElem?_map]
  by_cases hplace : place < jobs.length
  · have hmem : place ∈ pool.settled.map (·.1) := hplaces.mem_iff.2 (List.mem_range.2 hplace)
    obtain ⟨entry, hentry, rfl⟩ := List.mem_map.1 hmem
    obtain ⟨job, hjob, hdone⟩ := (h.settled entry hentry).resolve_left (h.done entry hentry)
    rw [getElem?_outcomes hplace, lookup_eq_some_of_mem h.nodup hentry, hdone, hjob]
    rfl
  · have hlength := length_outcomes pool jobs.length
    rw [List.getElem?_eq_none (by omega), List.getElem?_eq_none (Nat.le_of_not_lt hplace)]
    rfl

/-- A run that does not stop at failures ends when nothing waits and nothing is running. -/
theorem Course.Delivers.exhausted (h : course.Delivers run failed limits jobs)
    (hfast : limits.failFast = false) :
    (Pool.after run failed limits course jobs).queue = [] ∧
      (Pool.after run failed limits course jobs).running = [] := by
  have hgoing : (Pool.after run failed limits course jobs).stopped = false := by
    by_contra hstopped
    have hstops := (h.timely_after.stopped (by simpa using hstopped)).1
    rw [hfast] at hstops
    cases hstops
  have hrunning := h.rest.resolve_left (by simp [hgoing])
  exact ⟨Pool.busy_after _ _ _ _ _ hgoing hrunning, hrunning⟩

/-- A run that does not stop at failures leaves nothing out. -/
theorem runBounded_eq_map (hfast : limits.failFast = false)
    (h : limits.parallel = true → course.Delivers run failed limits jobs) :
    runBounded run failed limits course jobs = jobs.map fun job => .done (run job) := by
  rw [runBounded]
  split
  · rename_i hparallel
    obtain ⟨hqueue, hrunning⟩ := (h hparallel).exhausted hfast
    exact (h hparallel).timely_after.outcomes_eq hqueue hrunning
  · exact runInTurn_eq_map fun _ _ => by rw [hfast]; rfl

theorem begunOnWorkers_eq (hfast : limits.failFast = false)
    (h : course.Delivers run failed limits jobs) :
    begunOnWorkers run failed limits course jobs = jobs := by
  rw [begunOnWorkers, (h.exhausted hfast).1]
  simp

/-! ## No job waits again -/

/-- A course as far as a moment. -/
def Course.upTo (course : Course) (moment : Nat) : Course :=
  { course with events := course.events.take moment }

theorem Pool.after_upTo {moment later : Nat} (h : moment ≤ later) :
    Pool.after run failed limits (course.upTo later) jobs =
      ((course.events.take later).drop moment).foldl
        (Pool.step run failed limits course.hasWorker)
        (Pool.after run failed limits (course.upTo moment) jobs) := by
  have hsplit : course.events.take later =
      course.events.take moment ++ (course.events.take later).drop moment := by
    conv => lhs; rw [← List.take_append_drop moment (course.events.take later), List.take_take,
      Nat.min_eq_left h]
  simp only [Pool.after, Course.upTo]
  conv => lhs; rw [hsplit, List.foldl_append]

/-- **A job that has been begun never waits again.** -/
theorem Pool.queue_after_upTo {moment later : Nat} (h : moment ≤ later) :
    (Pool.after run failed limits (course.upTo later) jobs).queue <:+
      (Pool.after run failed limits (course.upTo moment) jobs).queue := by
  let start := (Pool.after run failed limits (course.upTo moment) jobs).queue
  have hmove : ∀ pool pool' : Pool ι α, pool.queue <:+ start →
      Pool.Move run failed limits True pool pool' → pool'.queue <:+ start := by
    intro pool pool' hpool hmove
    cases hmove with
    | begin => exact (List.suffix_cons _ _).trans hpool
    | inline => exact (List.suffix_cons _ _).trans hpool
    | report => exact hpool
    | expire => exact hpool
  rw [Pool.after_upTo h]
  refine foldl_invariant (I := fun pool : Pool ι α => pool.queue <:+ start) (fun pool event _ hpool => ?_)
    (List.suffix_refl start)
  exact Pool.step_invariant hmove (fun _ _ => trivial) hpool

/-! ## Jobs in turn -/

/-- The pool when the jobs at the first `count` places are done: the others wait or are running, in
their order. -/
structure Pool.InTurn (run : ι → α) (failed : α → Bool) (limits : Limits) (jobs : List ι)
    (count : Nat) (pool : Pool ι α) : Prop where
  settled : pool.settled =
    (((placed jobs).take count).map fun entry => (entry.1, .done (run entry.2))).reverse
  waiting : pool.running ++ pool.queue = (placed jobs).drop count
  /-- What running the jobs in turn comes to, from here on. -/
  turn : runInTurn run failed limits.failFast jobs =
    (jobs.take count).map (fun job => .done (run job)) ++
      if pool.stopped then (jobs.drop count).map fun _ => .skipped
      else runInTurn run failed limits.failFast (jobs.drop count)

theorem Pool.inTurn_initial (run : ι → α) (failed : α → Bool) (limits : Limits) (jobs : List ι) :
    (Pool.initial jobs).InTurn run failed limits jobs 0 :=
  ⟨rfl, rfl, rfl⟩

/-- The next job is done. -/
theorem Pool.InTurn.next {count place : Nat} {job : ι} {queue running waiting : List (Nat × ι)}
    {settled : List (Nat × Outcome α)}
    (h : (Pool.mk queue running settled false).InTurn run failed limits jobs count)
    (hfirst : running ++ queue = (place, job) :: waiting) {queue' running' : List (Nat × ι)}
    (hrest : running' ++ queue' = waiting) :
    (Pool.mk queue' running' ((place, .done (run job)) :: settled)
      (limits.failFast && failed (run job))).InTurn run failed limits jobs (count + 1) := by
  obtain ⟨rfl, hjob, hwaiting⟩ := of_drop_placed (h.waiting.symm.trans hfirst)
  refine ⟨?_, hrest.trans hwaiting, ?_⟩
  · have hsettled : settled = _ := h.settled
    rw [take_placed hjob, hsettled]
    simp
  · rw [h.turn, List.drop_eq_getElem?_toList_append, hjob, List.take_add_one, hjob]
    simp [runInTurn]

theorem Pool.InTurn.outcomes_eq {count : Nat} (h : pool.InTurn run failed limits jobs count) :
    pool.outcomes jobs.length = (jobs.take count).map (fun job => .done (run job)) ++
      (jobs.drop count).map fun _ => .skipped := by
  -- with distinct places, `lookup` finds the outcome of each settled job
  have hnodup : (pool.settled.map (·.1)).Nodup := by
    rw [h.settled, List.map_reverse, List.nodup_reverse, List.map_map]
    refine List.Sublist.nodup ?_ (List.nodup_range (n := jobs.length))
    rw [← map_fst_placed]
    exact (List.take_sublist count _).map _
  refine List.ext_getElem? fun place => ?_
  by_cases hplace : place < jobs.length
  · have hjob : jobs[place]? = some jobs[place] := List.getElem?_eq_getElem hplace
    rw [getElem?_outcomes hplace]
    by_cases hdone : place < count
    · have hmem : (place, Outcome.done (run jobs[place])) ∈ pool.settled := by
        rw [h.settled, List.mem_reverse, List.mem_map]
        refine ⟨(place, jobs[place]), List.mem_iff_getElem?.2 ⟨place, ?_⟩, rfl⟩
        rw [List.getElem?_take_of_lt hdone, getElem?_placed, hjob]
        rfl
      rw [lookup_eq_some_of_mem hnodup hmem, List.getElem?_append_left (by simp; omega),
        List.getElem?_map, List.getElem?_take_of_lt hdone, hjob]
      rfl
    · have hlate : pool.settled.lookup place = none := by
        rw [List.lookup_eq_none_iff]
        intro entry hentry
        rw [h.settled, List.mem_reverse, List.mem_map] at hentry
        obtain ⟨settled, hsettled, rfl⟩ := hentry
        obtain ⟨i, hi⟩ := List.mem_iff_getElem?.1 hsettled
        rw [List.getElem?_take, getElem?_placed] at hi
        split at hi
        · obtain ⟨job, -, rfl⟩ := Option.map_eq_some_iff.1 hi
          simp
          omega
        · cases hi
      have hlength : ((jobs.take count).map fun job => Outcome.done (run job)).length = count := by
        simp
        omega
      rw [hlate, List.getElem?_append_right (by omega), hlength, List.getElem?_map,
        List.getElem?_drop, Nat.add_sub_cancel' (Nat.le_of_not_lt hdone), hjob]
      rfl
  · have hlength := length_outcomes pool jobs.length
    rw [List.getElem?_eq_none (by omega), List.getElem?_eq_none (by simp; omega)]

/-- A run that ends with its jobs done in turn gives what running them in turn gives. -/
theorem Pool.InTurn.outcomes_eq_runInTurn {count : Nat}
    (h : pool.InTurn run failed limits jobs count) (hbusy : pool.Busy) (hrest : pool.AtRest) :
    pool.outcomes jobs.length = runInTurn run failed limits.failFast jobs := by
  rw [h.outcomes_eq, h.turn]
  cases hstopped : pool.stopped with
  | true => rfl
  | false =>
    have hrunning := hrest.resolve_left (by simp [hstopped])
    have hwaiting := h.waiting
    rw [hrunning, hbusy hstopped hrunning] at hwaiting
    have hdrop : jobs.drop count = [] := by
      rw [List.drop_eq_nil_iff]
      have hlength := congrArg List.length hwaiting
      simp only [List.append_nil, List.length_nil, List.length_drop, length_placed] at hlength
      omega
    rw [hdrop]
    rfl

/-! ## One worker -/

theorem Pool.InTurn.move {count : Nat} (hworkers : limits.workers ≤ 1)
    (h : pool.InTurn run failed limits jobs count) (hsingle : pool.running.length ≤ 1)
    (hmove : Pool.Move run failed limits False pool pool') :
    ∃ count', pool'.InTurn run failed limits jobs count' ∧ pool'.running.length ≤ 1 := by
  have hmax : max 1 limits.workers = 1 := Nat.max_eq_left hworkers
  cases hmove with
  | @begin queue running settled place job hfree =>
    obtain rfl : running = [] := List.length_eq_zero_iff.1 (by omega)
    exact ⟨count, ⟨h.settled, h.waiting, h.turn⟩, Nat.le_refl 1⟩
  | @inline queue running settled place job hfree =>
    obtain rfl : running = [] := List.length_eq_zero_iff.1 (by omega)
    exact ⟨count + 1, h.next rfl rfl, Nat.zero_le 1⟩
  | @report queue running settled place job hjob =>
    -- the only worker has this job
    have hmem := mem_of_lookup_eq_some hjob
    obtain ⟨entry, rfl⟩ : ∃ entry, running = [entry] :=
      List.length_eq_one_iff.1 (Nat.le_antisymm hsingle (List.length_pos_of_mem hmem))
    obtain rfl := List.mem_singleton.1 hmem
    exact ⟨count + 1, h.next rfl (by simp), by simp⟩
  | expire hexpires => exact hexpires.elim

/-- **With one worker a run gives what running the jobs in turn gives.** -/
theorem runOnWorkers_eq_runInTurn (hworkers : limits.workers ≤ 1)
    (h : course.Delivers run failed limits jobs) :
    runOnWorkers run failed limits course jobs = runInTurn run failed limits.failFast jobs := by
  obtain ⟨count, hcount, -⟩ : ∃ count, (Pool.after run failed limits course jobs).InTurn run failed
      limits jobs count ∧ (Pool.after run failed limits course jobs).running.length ≤ 1 :=
    Pool.after_invariant
      (I := fun pool => ∃ count, pool.InTurn run failed limits jobs count ∧ pool.running.length ≤ 1)
      (fun _ _ ⟨_, hpool, hsingle⟩ hmove => hpool.move hworkers hsingle hmove) h.timely
      ⟨0, Pool.inTurn_initial run failed limits jobs, Nat.zero_le 1⟩
  exact hcount.outcomes_eq_runInTurn (Pool.busy_after run failed limits course jobs) h.rest

/-! ## Reports in order -/

/-- Workers take jobs in their order. -/
theorem Pool.InTurn.assign {count : Nat} : ∀ (queue : List (Nat × ι)) {pool : Pool ι α},
    Pool.InTurn run failed limits jobs count { pool with queue } →
    (pool.assign run failed limits (fun _ => true) queue).InTurn run failed limits jobs count
  | [], _, h => h
  | (place, job) :: queue, pool, h => by
    rw [Pool.assign]
    split
    · exact h
    · exact Pool.InTurn.assign queue ⟨h.settled, by simpa using h.waiting, h.turn⟩

theorem lt_of_mem_drop_placed {count : Nat} {entry : Nat × ι}
    (h : entry ∈ (placed jobs).drop (count + 1)) : count < entry.1 := by
  obtain ⟨i, hi⟩ := List.mem_iff_getElem?.1 h
  rw [List.getElem?_drop, getElem?_placed, Option.map_eq_some_iff] at hi
  obtain ⟨job, -, rfl⟩ := hi
  exact Nat.lt_of_lt_of_le (Nat.lt_succ_self count) (Nat.le_add_right _ _)

/-- The job at the next place reports. -/
theorem Pool.InTurn.report {count : Nat} (h : pool.InTurn run failed limits jobs count)
    (hgoing : pool.stopped = false) (hrunning : pool.running ≠ []) :
    (pool.step run failed limits (fun _ => true) (.report count)).InTurn run failed limits jobs
      (count + 1) := by
  obtain ⟨queue, running, settled, stopped⟩ := pool
  obtain rfl : stopped = false := hgoing
  obtain ⟨⟨place, job⟩, rest, rfl⟩ := List.exists_cons_of_ne_nil hrunning
  have hnext := h.next (List.cons_append ..) (Eq.refl (rest ++ queue))
  obtain ⟨rfl, -, -⟩ := of_drop_placed h.waiting.symm
  have hfilter : ((place, job) :: rest).filter (fun entry => entry.1 != place) = rest := by
    rw [List.filter_cons_of_neg (by simp), List.filter_eq_self]
    intro entry hentry
    have hlater := lt_of_mem_drop_placed (hnext.waiting ▸ List.mem_append_left queue hentry)
    simp
    omega
  simp only [Pool.step, Bool.false_eq_true, if_false, List.lookup_cons_self, Pool.fill, hfilter]
  exact Pool.InTurn.assign queue hnext

theorem Pool.inTurn_inOrder (run : ι → α) (failed : α → Bool) (limits : Limits) (jobs : List ι)
    (n : Nat) : ∃ count,
    (Pool.after run failed limits (inOrder n) jobs).InTurn run failed limits jobs count ∧
      ((Pool.after run failed limits (inOrder n) jobs).AtRest ∨ count = n) := by
  induction n with
  | zero => exact ⟨0, Pool.InTurn.assign _ (Pool.inTurn_initial run failed limits jobs), .inr rfl⟩
  | succ n ih =>
    have hlast : Pool.after run failed limits (inOrder (n + 1)) jobs =
        (Pool.after run failed limits (inOrder n) jobs).step run failed limits (fun _ => true)
          (.report n) := by
      simp [Pool.after, inOrder, List.range_succ]
    obtain ⟨count, hcount, hend⟩ := ih
    rw [hlast]
    by_cases hrest : (Pool.after run failed limits (inOrder n) jobs).AtRest
    · -- at rest a report changes nothing
      have hsame : (Pool.after run failed limits (inOrder n) jobs).step run failed limits
          (fun _ => true) (.report n) = Pool.after run failed limits (inOrder n) jobs := by
        rcases hrest with hstopped | hrunning
        · simp [Pool.step, hstopped]
        · simp [Pool.step, hrunning]
      rw [hsame]
      exact ⟨count, hcount, .inl hrest⟩
    · obtain rfl := hend.resolve_left hrest
      obtain ⟨hgoing, hrunning⟩ := not_or.1 hrest
      exact ⟨count + 1, hcount.report (by simpa using hgoing) hrunning, .inr rfl⟩

theorem atRest_inOrder {count : Nat} (hcount : jobs.length ≤ count) :
    (Pool.after run failed limits (inOrder count) jobs).AtRest := by
  obtain ⟨done, hdone, hrest | rfl⟩ := Pool.inTurn_inOrder run failed limits jobs count
  · exact hrest
  · have hnil : (placed jobs).drop done = [] := by
      rw [List.drop_eq_nil_iff, length_placed]
      exact hcount
    exact .inr (List.append_eq_nil_iff.1 (hdone.waiting.trans hnil)).1

/-- **When the jobs report in order, the number of workers does not matter.** -/
theorem runBounded_inOrder {count : Nat} (hcount : jobs.length ≤ count) :
    runBounded run failed limits (inOrder count) jobs =
      runInTurn run failed limits.failFast jobs := by
  rw [runBounded]
  split
  · obtain ⟨done, hdone, -⟩ := Pool.inTurn_inOrder run failed limits jobs count
    exact hdone.outcomes_eq_runInTurn (Pool.busy_after run failed limits _ jobs)
      (atRest_inOrder hcount)
  · rfl

end UnionChecker.Schedule
