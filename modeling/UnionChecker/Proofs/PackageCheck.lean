import UnionChecker.PackageCheck
import UnionChecker.Proofs.Binding.Records
import UnionChecker.Proofs.Check.Accepted
import UnionChecker.Proofs.Schedule
/-!
# What an accepted package is made of

The answer of a check is put together from what checking each declaration gives (`outcomes`,
`verdict`), if the run of the jobs comes to what running them in turn comes to
(`checkBound_eq_verdict`). When the jobs report in order this is so, whatever the number of workers
(`checkBound_inOrder`).

So an accepted package consists of what checking each of its declarations gives (`checkBound_all`),
and if every declaration passes, the package is accepted (`checkBound_ok_iff`). Its table is
consistent, and every choice by type in the program is as it should be (`checkFiles_accepted`).
-/

namespace UnionChecker

namespace PackageCheck

/-! ## Answers -/

/-- What checking a bound declaration gives. -/
def checked (table : Table) (pending : List String) (b : Binding.BoundDeclaration) :
    Except Failure TypedDeclaration :=
  match b.result with
  | .error failure => .error failure
  | .ok (declaration, ty) =>
    Check.atTopLevel (Check.checkDeclaration ⟨table, b.file, pending⟩ declaration ty)

theorem results_eq_map (table : Table) (pending : List String) :
    ∀ bound : List Binding.BoundDeclaration,
      results bound ((bound.filterMap Job.of?).map fun job => some (job.run table pending)) =
        bound.map (checked table pending)
  | [] => rfl
  | b :: bound => by
    have ih := results_eq_map table pending bound
    rw [results, List.map_cons, checked, List.filterMap_cons, Job.of?]
    split
    · rename_i failure hb
      simp [hb, ih]
    · rename_i r hb
      simpa [hb, Job.run] using ih

/-- What checking each declaration of a bound package gives. -/
def outcomes (bound : Bound) : List (Except Failure TypedDeclaration) :=
  bound.declarations.map (checked bound.table (unboundNames bound))

/-- The answer for the results of declarations. -/
def verdict (failFast : Bool) (table : Table) (all : List (Except Failure TypedDeclaration)) :
    Except (List Failure) Program :=
  let found := if failFast then (failures all).take 1 else failures all
  if found.isEmpty then .ok ⟨table, declarations all⟩ else .error found

theorem eq_map_ok_of_failures : ∀ {rs : List (Except Failure TypedDeclaration)}, failures rs = [] →
    rs = (declarations rs).map .ok
  | [], _ => rfl
  | .error _ :: _, h => by cases h
  | .ok d :: rs, h => by
    have ih : rs = (declarations rs).map .ok := eq_map_ok_of_failures h
    conv => lhs; rw [ih]
    rfl

/-- Stopping at failures does not change whether there are any. -/
theorem verdict_eq (failFast : Bool) (table : Table) (all : List (Except Failure TypedDeclaration)) :
    verdict failFast table all =
      if failures all = [] then .ok ⟨table, declarations all⟩
      else .error (if failFast then (failures all).take 1 else failures all) := by
  unfold verdict
  cases failFast <;> cases failures all <;> rfl

theorem verdict_eq_ok {failFast : Bool} {table : Table} {p : Program}
    {all : List (Except Failure TypedDeclaration)} (h : verdict failFast table all = .ok p) :
    p.table = table ∧ all = p.declarations.map .ok := by
  rw [verdict_eq] at h
  split at h <;> cases h
  exact ⟨rfl, eq_map_ok_of_failures ‹_›⟩

/-- Results with the same first failure, or the same results, have the same answer. -/
theorem verdict_congr {table : Table} {all all' : List (Except Failure TypedDeclaration)}
    (hfirst : (failures all).take 1 = (failures all').take 1)
    (hsame : failures all' = [] → all = all') : verdict true table all = verdict true table all' := by
  unfold verdict
  simp only [if_true, hfirst]
  cases hall : failures all' with
  | nil => rw [hsame hall]
  | cons first rest => rfl

/-- The job of a declaration does what checking the declaration gives. -/
theorem Job.run_of? {table : Table} {pending : List String} {b : Binding.BoundDeclaration} {job : Job}
    (h : Job.of? b = some job) : job.run table pending = checked table pending b := by
  rw [Job.of?] at h
  rw [checked]
  split at h
  · rename_i r hb
    cases h
    rw [hb]
    rfl
  · cases h

/-- The results of jobs that are all done are what checking the declarations gives. -/
theorem results_done (bound : Bound) (timeoutMs : Nat) :
    results bound.declarations ((jobs bound).zipWith (Job.result timeoutMs)
      ((jobs bound).map fun job => .done (job.run bound.table (unboundNames bound)))) =
      outcomes bound := by
  rw [outcomes, ← results_eq_map]
  simp [jobs, List.zipWith_map_right, List.zipWith_self, Job.result]

/-- Running jobs in turn up to a failure finds the first of all failures. -/
theorem take_failures_inTurn (table : Table) (pending : List String) (timeoutMs : Nat) :
    ∀ ds : List Binding.BoundDeclaration,
      (failures (results ds ((ds.filterMap Job.of?).zipWith (Job.result timeoutMs)
        (Schedule.runInTurn (Job.run table pending) hasFailed true (ds.filterMap Job.of?))))).take 1 =
        (failures (ds.map (checked table pending))).take 1
  | [] => rfl
  | d :: ds => by
    have ih := take_failures_inTurn table pending timeoutMs ds
    rw [results, List.map_cons, List.filterMap_cons, Job.of?]
    cases hd : d.result with
    | error failure =>
      rw [checked, hd]
      rfl
    | ok typed =>
      obtain ⟨declaration, ty⟩ := typed
      let job : Job := ⟨d.file, d.name.text, d.span, declaration, ty⟩
      have hjob : checked table pending d = job.run table pending := by
        rw [checked, hd]
        rfl
      rw [Schedule.runInTurn, hjob]
      simp only [List.zipWith_cons_cons, Job.result, List.head?_cons, Option.join_some,
        List.tail_cons, Option.toList_some, List.singleton_append]
      cases job.run table pending with
      | error failure => rfl
      | ok passed => exact ih

/-- A run that comes to what running the jobs in turn comes to. -/
theorem checkBound_eq_verdict {config : Config} {processors : Nat} {course : Schedule.Course}
    {bound : Bound}
    (hturn : Schedule.runBounded (Job.run bound.table (unboundNames bound)) hasFailed
      (limits config processors) course (jobs bound) =
        Schedule.runInTurn (Job.run bound.table (unboundNames bound)) hasFailed config.failFast
          (jobs bound)) :
    checkBound config processors course bound =
      verdict config.failFast bound.table (outcomes bound) := by
  rw [checkBound, hturn]
  cases hfast : config.failFast with
  | false =>
    rw [Schedule.runInTurn_eq_map fun _ _ => rfl, results_done]
    rfl
  | true =>
    refine verdict_congr (take_failures_inTurn _ _ _ bound.declarations) fun hnone => ?_
    -- a job that fails would be among the failures
    have hpassed : ∀ job ∈ jobs bound, (true &&
        hasFailed (job.run bound.table (unboundNames bound))) = false := by
      intro job hjob
      obtain ⟨d, hd, hof⟩ := List.mem_filterMap.1 hjob
      have hmem : job.run bound.table (unboundNames bound) ∈ outcomes bound := by
        rw [Job.run_of? hof]
        exact List.mem_map_of_mem hd
      rw [eq_map_ok_of_failures hnone, List.mem_map] at hmem
      obtain ⟨passed, -, heq⟩ := hmem
      rw [← heq]
      rfl
    rw [Schedule.runInTurn_eq_map hpassed, results_done]

/-- **When the jobs report in order, the number of workers does not matter.** -/
theorem checkBound_inOrder (config : Config) (processors : Nat) (bound : Bound) :
    checkBound config processors (Schedule.inOrder bound.declarations.length) bound =
      verdict config.failFast bound.table (outcomes bound) :=
  checkBound_eq_verdict (Schedule.runBounded_inOrder (List.length_filterMap_le _ _))

/-! ## Nothing is left out -/

/-- A declaration that passes its check is bound, and its value is checked at its type. -/
theorem checked_eq_ok {table : Table} {pending : List String} {b : Binding.BoundDeclaration}
    {typed : TypedDeclaration} (h : checked table pending b = .ok typed) :
    ∃ d ty frames, b.result = .ok (d, ty) ∧ typed.name = d.name.text ∧
      Check.Runs (Check.checkTerm ⟨table, b.file, pending⟩ d.value (some ty)) .initial typed.value
        frames := by
  rw [checked] at h
  split at h
  · cases h
  · rename_i d ty hresult
    have hrun : Check.Runs (Check.checkDeclaration ⟨table, b.file, pending⟩ d ty) .initial typed _ :=
      Prod.ext h rfl
    obtain ⟨e, frames, he, hpure⟩ := Check.runs_bind.1 hrun
    obtain ⟨rfl, -⟩ := Check.runs_pure.1 hpure
    exact ⟨d, ty, frames, hresult, rfl, he⟩

theorem unboundNames_of_checked {table : Table} {pending : List String} {bound : Bound}
    (h : ∀ b ∈ bound.declarations, ∃ d, checked table pending b = .ok d) :
    unboundNames bound = [] := by
  rw [unboundNames, List.filterMap_eq_nil_iff]
  intro b hb
  obtain ⟨d, hd⟩ := h b hb
  obtain ⟨e, ty, _, hresult, -⟩ := checked_eq_ok hd
  rw [hresult]

/-- An accepted package consists of what checking each of its declarations gives. -/
theorem checkBound_all {config : Config} {processors : Nat} {bound : Bound} {p : Program}
    (h : checkBound config processors (Schedule.inOrder bound.declarations.length) bound = .ok p) :
    p.table = bound.table ∧
      bound.declarations.map (checked bound.table []) = p.declarations.map .ok := by
  rw [checkBound_inOrder] at h
  obtain ⟨htable, hall⟩ := verdict_eq_ok h
  have hpassed : ∀ b ∈ bound.declarations,
      ∃ d, checked bound.table (unboundNames bound) b = .ok d := by
    intro b hb
    have hmem : checked bound.table (unboundNames bound) b ∈ outcomes bound := List.mem_map_of_mem hb
    rw [hall, List.mem_map] at hmem
    obtain ⟨d, -, hd⟩ := hmem
    exact ⟨d, hd.symm⟩
  rw [outcomes, unboundNames_of_checked hpassed] at hall
  exact ⟨htable, hall⟩

theorem failures_map_checked {table : Table} {bound : List Binding.BoundDeclaration}
    (h : ∀ b ∈ bound, ∃ d, checked table [] b = .ok d) :
    failures (bound.map (checked table [])) = [] := by
  rw [failures, List.filterMap_eq_nil_iff]
  intro r hr
  obtain ⟨b, hb, rfl⟩ := List.mem_map.1 hr
  obtain ⟨d, hd⟩ := h b hb
  rw [hd]

/-- **A bound package is accepted exactly if each of its declarations passes its check.** -/
theorem checkBound_ok_iff {config : Config} {processors : Nat} {bound : Bound} :
    (∃ p, checkBound config processors (Schedule.inOrder bound.declarations.length) bound = .ok p) ↔
      ∀ b ∈ bound.declarations, ∃ d, checked bound.table [] b = .ok d := by
  constructor
  · rintro ⟨p, h⟩ b hb
    obtain ⟨-, hall⟩ := checkBound_all h
    have hmem : checked bound.table [] b ∈ p.declarations.map .ok := hall ▸ List.mem_map_of_mem hb
    obtain ⟨d, -, hd⟩ := List.mem_map.1 hmem
    exact ⟨d, hd.symm⟩
  · intro h
    rw [checkBound_inOrder, verdict_eq, outcomes, unboundNames_of_checked h,
      if_pos (failures_map_checked h)]
    exact ⟨_, rfl⟩

end PackageCheck

/-- A package is accepted exactly if it is bound and each of its declarations passes its check. -/
theorem checkFiles_ok_iff {config : Config} {files : List Syntax.SourceFile} :
    (∃ p, checkFiles config files = .ok p) ↔ ∃ bound, Bound.ofFiles files = .ok bound ∧
      ∀ b ∈ bound.declarations, ∃ d, PackageCheck.checked bound.table [] b = .ok d := by
  rw [checkFiles, PackageCheck.checkUnder]
  cases Bound.ofFiles files with
  | error failure => simp
  | ok bound => simpa using PackageCheck.checkBound_ok_iff

/-- The declarations of an accepted package are what checking those that it binds gives. -/
theorem checkFiles_bound {config : Config} {files : List Syntax.SourceFile} {p : Program}
    (h : checkFiles config files = .ok p) : ∃ bound, Bound.ofFiles files = .ok bound ∧
      p.table = bound.table ∧ List.Forall₂ (fun b d => PackageCheck.checked p.table [] b = .ok d)
        bound.declarations p.declarations := by
  rw [checkFiles, PackageCheck.checkUnder] at h
  split at h
  · cases h
  · rename_i bound hbound
    obtain ⟨htable, hall⟩ := PackageCheck.checkBound_all h
    rw [← htable] at hall
    exact ⟨bound, hbound, htable, forall₂_of_map_eq_map hall fun _ _ _ _ h => h⟩

/-- Binding and checking one after the other. Evaluation stays small when the table and the types of
declarations, which everything after binding looks into, are given here. -/
theorem checkFiles_of_bound {config : Config} {files : List Syntax.SourceFile} {p : Program}
    {d : List Binding.BoundDeclaration} (hbound : Bound.ofFiles files = .ok ⟨p.table, d⟩)
    (h : PackageCheck.checkBound config 1 (Schedule.inOrder d.length) ⟨p.table, d⟩ = .ok p) :
    checkFiles config files = .ok p := by
  rw [checkFiles, PackageCheck.checkUnder, hbound]
  exact h

/-- An accepted package has a table whose witness fields agree with its constructors, and all
choices in it are tested and covered as they should be. -/
theorem checkFiles_accepted {config : Config} {files : List Syntax.SourceFile} {p : Program}
    (h : checkFiles config files = .ok p) :
    p.table.WitnessesAgree ∧ ∀ n ∈ p.nodes, n.ChoiceOk p.table.matchFields := by
  obtain ⟨bound, hbound, htable, hdeclarations⟩ := checkFiles_bound h
  refine ⟨htable ▸ Bound.witnessesAgree hbound, fun n hn => ?_⟩
  obtain ⟨d, hd, hn⟩ := List.mem_flatMap.1 hn
  obtain ⟨b, -, hchecked⟩ := forall₂_mem_right hdeclarations hd
  obtain ⟨e, ty, frames, -, -, hrun⟩ := PackageCheck.checked_eq_ok hchecked
  exact Check.everywhere_checkTerm (Check.builds_choiceOk _) e.value (some ty) _ _ _ hrun n hn

end UnionChecker
