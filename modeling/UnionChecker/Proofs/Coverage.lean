import Mathlib.Data.List.Induction
import UnionChecker.Coverage
import UnionChecker.Proofs.Lists
import UnionChecker.Proofs.Steps
import UnionChecker.Proofs.Ty.Equivalence
/-!
# Coverage as a state machine

The arms of a `when` are the steps of a machine whose state is a `Coverage`. One invariant carries
everything: what is left is the members of the subject, in their order, without those that equal
something already taken. From it follow when an arm can be taken, which of its members is refused and
why, and what is missing at the end.
-/

namespace UnionChecker

namespace Coverage

/-! ## One arm -/

/-- What is left can be taken: some remaining member equals `m`. -/
def Open (c : Coverage) (m : Ty) : Prop := ∃ t ∈ c.remaining, t.equal m = true

/-- Something equal to `m` was taken. -/
def Taken (c : Coverage) (m : Ty) : Prop := ∃ t ∈ c.consumed, t.equal m = true

instance (c : Coverage) (m : Ty) : Decidable (c.Taken m) :=
  inferInstanceAs (Decidable (∃ t ∈ c.consumed, t.equal m = true))

theorem open_iff {c : Coverage} {m : Ty} :
    c.remaining.any (fun t => t.equal m) = true ↔ c.Open m := List.any_eq_true

theorem taken_iff {c : Coverage} {m : Ty} :
    c.consumed.any (fun t => t.equal m) = true ↔ c.Taken m := List.any_eq_true

theorem check_eq_ok {c : Coverage} {m : Ty} : c.check m = .ok () ↔ ¬ c.Taken m ∧ c.Open m := by
  rw [check]
  split
  · next h => simpa using fun hn => absurd (taken_iff.1 h) hn
  · next h =>
    rw [taken_iff] at h
    split
    · next ho => simpa [h] using open_iff.1 ho
    · next ho => simpa [h] using fun hc => ho (open_iff.2 hc)

theorem check_eq_error {c : Coverage} {m : Ty} {e : CoverageError} (h : c.check m = .error e) :
    (c.Taken m ∧ e = .duplicate m) ∨
      (¬ c.Taken m ∧ ¬ c.Open m ∧ e = .noMatching m c.subject) := by
  rw [check] at h
  split at h
  · next ht => cases h; exact .inl ⟨taken_iff.1 ht, rfl⟩
  · next ht =>
    split at h
    · cases h
    · next ho => cases h; exact .inr ⟨mt taken_iff.2 ht, mt open_iff.2 ho, rfl⟩

theorem run_forM_check (c : Coverage) : ∀ ms : List Ty,
    (ms.forM fun m => do (← get).check m : ExceptT CoverageError (StateM Coverage) Unit).run c =
      (ms.forM c.check, c)
  | [] => rfl
  | m :: ms => by
    have ih := run_forM_check c ms
    show (ExceptT.bindCont (fun _ => ms.forM _) (c.check m) : StateM Coverage _) c =
      (c.check m >>= fun _ => ms.forM c.check, c)
    cases c.check m with
    | ok u => exact ih
    | error e => rfl

theorem run_forM_take : ∀ (ms : List Ty) (c : Coverage),
    (ms.forM fun m => modify fun c => c.take m : ExceptT CoverageError (StateM Coverage) Unit).run c =
      (.ok (), ms.foldl take c)
  | [], _ => rfl
  | m :: ms, c => run_forM_take ms (c.take m)

/-- The checks do not touch the state, so an arm that they refuse leaves it as it was. -/
theorem run_takeArm (c : Coverage) (arm : Ty) : (takeArm arm).run c =
    match arm.members.forM c.check with
    | .ok () => (.ok (), arm.members.foldl take c)
    | .error e => (.error e, c) := by
  show (match (arm.members.forM fun m => do (← get).check m :
      ExceptT CoverageError (StateM Coverage) Unit).run c with
    | (r, c') => (ExceptT.bindCont (fun _ => _) r : StateM Coverage _) c') = _
  rw [run_forM_check]
  cases arm.members.forM c.check with
  | ok u => exact run_forM_take arm.members c
  | error e => rfl

theorem consume_eq (c : Coverage) (arm : Ty) :
    c.consume arm = (do arm.members.forM c.check; return arm.members.foldl take c) := by
  rw [consume, run_takeArm]
  cases arm.members.forM c.check <;> rfl

/-- The state that an arm leaves, taken or refused. -/
theorem state_takeArm (c : Coverage) (arm : Ty) :
    ((takeArm arm).run c).2 = match c.consume arm with | .ok c' => c' | .error _ => c := by
  rw [consume_eq, run_takeArm]
  cases arm.members.forM c.check <;> rfl

theorem foldl_take_eq (c : Coverage) : ∀ ms : List Ty, ms.foldl take c =
    ⟨c.subject, c.remaining.filter fun t => !ms.any fun m => t.equal m, c.consumed ++ ms⟩ := by
  intro ms
  induction ms generalizing c with
  | nil => simp
  | cons m ms ih =>
    rw [List.foldl_cons, ih]
    simp [take, List.filter_filter, Bool.and_comm]

/-- An arm is taken exactly when each of its members can be, and then what it leaves equals none of
them. -/
theorem consume_eq_ok {c c' : Coverage} {arm : Ty} : c.consume arm = .ok c' ↔
    (∀ m ∈ arm.members, ¬ c.Taken m ∧ c.Open m) ∧
      c' = ⟨c.subject, c.remaining.filter fun t => !arm.members.any fun m => t.equal m,
        c.consumed ++ arm.members⟩ := by
  rw [consume_eq, bind_eq_ok, ← foldl_take_eq]
  constructor
  · rintro ⟨⟨⟩, hall, h⟩
    cases h
    exact ⟨fun m hm => check_eq_ok.1 (forM_eq_ok_iff.1 hall m hm), rfl⟩
  · rintro ⟨hall, rfl⟩
    exact ⟨(), forM_eq_ok_iff.2 fun m hm => check_eq_ok.2 (hall m hm), rfl⟩

/-- What an arm does not leave is equal to one of its members. -/
theorem mem_remaining_consume {c c' : Coverage} {arm m : Ty} (h : c.consume arm = .ok c')
    (hm : m ∈ c.remaining) : m ∈ c'.remaining ∨ ∃ n ∈ arm.members, m.equal n = true := by
  obtain ⟨-, rfl⟩ := consume_eq_ok.1 h
  by_cases he : ∃ n ∈ arm.members, m.equal n = true
  · exact .inr he
  · exact .inl (List.mem_filter.2 ⟨hm, by simpa using he⟩)

/-- An arm is refused at its first member that cannot be taken. -/
theorem consume_eq_error {c : Coverage} {arm : Ty} {e : CoverageError}
    (h : c.consume arm = .error e) : ∃ before m after, arm.members = before ++ m :: after ∧
      (∀ x ∈ before, ¬ c.Taken x ∧ c.Open x) ∧ ((c.Taken m ∧ e = .duplicate m) ∨
        (¬ c.Taken m ∧ ¬ c.Open m ∧ e = .noMatching m c.subject)) := by
  rw [consume_eq] at h
  cases hall : arm.members.forM c.check with
  | ok u => rw [hall] at h; cases h
  | error e' =>
    rw [hall] at h
    cases h
    obtain ⟨before, m, after, hms, hbefore, hm⟩ := forM_eq_error hall
    exact ⟨before, m, after, hms, fun x hx => check_eq_ok.1 (hbefore x hx), check_eq_error hm⟩

/-! ## The machine -/

/-- What may happen to the state: an arm tries to take its members, or an `other` arm takes what is
left. -/
inductive Step where
  | consume (arm : Ty)
  | takeRemaining

/-- The state after a step, whether or not it succeeds. -/
def step (c : Coverage) : Step → Coverage
  | .consume arm => ((takeArm arm).run c).2
  | .takeRemaining => c.takeRemaining.2

/-- The state after a run that starts with nothing taken. -/
def run (subject : Ty) (steps : List Step) : Coverage := steps.foldl step (ofTy subject)

/-- A step takes `m`. -/
def Takes (c : Coverage) (m : Ty) : Step → Prop
  | .consume arm => (∃ c', c.consume arm = .ok c') ∧ ∃ t ∈ arm.members, t.equal m = true
  | .takeRemaining => c.Open m

/-- The invariant of the machine. -/
structure Splits (subject : Ty) (c : Coverage) : Prop where
  subject_eq : c.subject = subject
  /-- A member is left unless something equal to it was taken. -/
  remaining_eq : c.remaining = subject.members.filter fun m => !c.consumed.any fun t => t.equal m
  /-- Nothing is taken that the subject does not have. -/
  consumed_mem : ∀ t ∈ c.consumed, ∃ m ∈ subject.members, t.equal m = true

theorem splits_ofTy (subject : Ty) : Splits subject (ofTy subject) where
  subject_eq := rfl
  remaining_eq := by simp [ofTy]
  consumed_mem := by simp [ofTy]

namespace Splits

variable {subject : Ty} {c : Coverage}

theorem mem_remaining (h : Splits subject c) {m : Ty} :
    m ∈ c.remaining ↔ m ∈ subject.members ∧ ¬ c.Taken m := by
  rw [h.remaining_eq, List.mem_filter, Bool.not_eq_true', ← Bool.not_eq_true, taken_iff]

theorem not_taken_of_open (h : Splits subject c) {m : Ty} (hm : c.Open m) : ¬ c.Taken m := by
  obtain ⟨t, ht, htm⟩ := hm
  rintro ⟨s, hs, hsm⟩
  exact (h.mem_remaining.1 ht).2 ⟨s, hs, Ty.equal_trans hsm (Ty.equal_symm htm)⟩

/-- A type that the subject has is left or taken. -/
theorem open_or_taken (h : Splits subject c) {m : Ty}
    (hm : ∃ t ∈ subject.members, t.equal m = true) : c.Open m ∨ c.Taken m := by
  obtain ⟨t, ht, htm⟩ := hm
  by_cases htaken : c.Taken t
  · obtain ⟨s, hs, hst⟩ := htaken
    exact .inr ⟨s, hs, Ty.equal_trans hst htm⟩
  · exact .inl ⟨t, h.mem_remaining.2 ⟨ht, htaken⟩, htm⟩

theorem mem_subject (h : Splits subject c) {t : Ty} (ht : t ∈ c.remaining ++ c.consumed) :
    ∃ m ∈ subject.members, t.equal m = true := by
  rcases List.mem_append.1 ht with hr | hc
  · exact ⟨t, (h.mem_remaining.1 hr).1, Ty.equal_refl t⟩
  · exact h.consumed_mem t hc

theorem consume_isOk_iff (h : Splits subject c) {arm : Ty} :
    (∃ c', c.consume arm = .ok c') ↔ ∀ m ∈ arm.members, c.Open m := by
  simp only [consume_eq_ok, exists_and_left, exists_eq, and_true]
  exact forall₂_congr fun m _ => and_iff_right_of_imp h.not_taken_of_open

theorem of_consume (h : Splits subject c) {c' : Coverage} {arm : Ty}
    (hc : c.consume arm = .ok c') : Splits subject c' := by
  obtain ⟨hall, rfl⟩ := consume_eq_ok.1 hc
  refine ⟨h.subject_eq, ?_, fun t ht => ?_⟩
  · simp only [h.remaining_eq, List.filter_filter, List.any_append, Bool.not_or, Ty.equal_comm]
    exact List.filter_congr fun m _ => Bool.and_comm _ _
  · rcases List.mem_append.1 ht with hold | hnew
    · exact h.consumed_mem t hold
    · obtain ⟨s, hs, hst⟩ := (hall t hnew).2
      exact ⟨s, (h.mem_remaining.1 hs).1, Ty.equal_symm hst⟩

theorem of_takeRemaining (h : Splits subject c) : Splits subject c.takeRemaining.2 := by
  refine ⟨h.subject_eq, ?_, fun t ht => ?_⟩
  · refine (List.filter_eq_nil_iff.2 fun m hm => ?_).symm
    rw [Bool.not_eq_true', ← Bool.not_eq_true, not_not, taken_iff]
    -- What was not taken before is in what is left, so it is taken now.
    rcases h.open_or_taken ⟨m, hm, Ty.equal_refl m⟩ with ⟨t, ht, htm⟩ | ⟨t, ht, htm⟩
    · exact ⟨t, List.mem_append_right _ ht, htm⟩
    · exact ⟨t, List.mem_append_left _ ht, htm⟩
  · exact h.mem_subject (List.mem_append.2 (List.mem_append.1 ht).symm)

theorem step (h : Splits subject c) (s : Step) : Splits subject (c.step s) := by
  cases s with
  | consume arm =>
    rw [Coverage.step, state_takeArm]
    split
    · next hc => exact h.of_consume hc
    · exact h
  | takeRemaining => exact h.of_takeRemaining

end Splits

theorem splits_run (subject : Ty) (steps : List Step) : Splits subject (run subject steps) :=
  foldl_invariant (fun _ s _ h => h.step s) (splits_ofTy subject)

theorem taken_step {c : Coverage} {m : Ty} {s : Step} :
    (c.step s).Taken m ↔ c.Taken m ∨ c.Takes m s := by
  cases s with
  | consume arm =>
    rw [step, state_takeArm, Takes]
    cases hc : c.consume arm with
    | ok c' =>
      obtain ⟨-, rfl⟩ := consume_eq_ok.1 hc
      simp [Taken, or_and_right, exists_or]
    | error e => simp
  | takeRemaining => simp [step, takeRemaining, Taken, Takes, Open, or_and_right, exists_or]

/-- Something is taken exactly when a step of the run took it. -/
theorem taken_run (subject m : Ty) (steps : List Step) : (run subject steps).Taken m ↔
    ∃ before s after, steps = before ++ s :: after ∧ (run subject before).Takes m s := by
  induction steps using List.reverseRecOn with
  | nil => simp [run, ofTy, Taken]
  | append_singleton steps s ih =>
    have hrun : run subject (steps ++ [s]) = (run subject steps).step s := by simp [run]
    rw [hrun, taken_step, ih]
    constructor
    · rintro (⟨before, s', after, rfl, h⟩ | h)
      · exact ⟨before, s', after ++ [s], by simp, h⟩
      · exact ⟨steps, s, [], rfl, h⟩
    · rintro ⟨before, s', after, heq, h⟩
      rcases List.eq_nil_or_concat after with rfl | ⟨after, s'', rfl⟩
      · obtain ⟨rfl, hs⟩ := List.append_inj' heq rfl
        cases hs
        exact .inr h
      · rw [List.concat_eq_append, ← List.cons_append, ← List.append_assoc] at heq
        exact .inl ⟨before, s', after, (List.append_inj' heq rfl).1, h⟩

/-! ## A sequence of arms -/

theorem open_consumed {c : Coverage} {arm m : Ty} :
    Coverage.Open ⟨c.subject, c.remaining.filter fun t => !arm.members.any fun n => t.equal n,
      c.consumed ++ arm.members⟩ m ↔ c.Open m ∧ ∀ n ∈ arm.members, m.equal n = false := by
  simp only [Open, List.mem_filter, Bool.not_eq_true', List.any_eq_false, Bool.not_eq_true]
  constructor
  · rintro ⟨t, ⟨ht, hnone⟩, htm⟩
    refine ⟨⟨t, ht, htm⟩, fun n hn => Bool.eq_false_iff.2 fun hmn => ?_⟩
    exact Bool.eq_false_iff.1 (hnone n hn) (Ty.equal_trans htm hmn)
  · rintro ⟨⟨t, ht, htm⟩, hnone⟩
    refine ⟨t, ⟨ht, fun n hn => Bool.eq_false_iff.2 fun htn => ?_⟩, htm⟩
    exact Bool.eq_false_iff.1 (hnone n hn) (Ty.equal_trans (Ty.equal_symm htm) htn)

/-- Two arms without a common member. -/
def Apart (a b : Ty) : Prop := ∀ m ∈ a.members, ∀ n ∈ b.members, n.equal m = false

theorem Apart.symm {a b : Ty} (h : Apart a b) : Apart b a :=
  fun m hm n hn => (Ty.equal_comm n m).trans (h n hn m hm)

/-- A sequence of arms is taken exactly when the members of all arms are left and no two arms have a
common member, in whatever order they come. -/
theorem foldlM_consume_eq_ok {subject : Ty} : ∀ {arms : List Ty} {c c' : Coverage},
    Splits subject c → (arms.foldlM consume c = .ok c' ↔
      (∀ arm ∈ arms, ∀ m ∈ arm.members, c.Open m) ∧ arms.Pairwise Apart ∧
        c' = ⟨c.subject, c.remaining.filter fun t => !arms.any fun arm => arm.members.any (t.equal ·),
          c.consumed ++ arms.flatMap Ty.members⟩)
  | [], c, c', _ => by simpa [List.foldlM, pure, Except.pure] using eq_comm
  | arm :: arms, c, c', hc => by
    rw [List.foldlM_cons, bind_eq_ok]
    constructor
    · rintro ⟨d, hd, h⟩
      have hd' := hc.of_consume hd
      obtain ⟨hopen, hapart, rfl⟩ := (foldlM_consume_eq_ok hd').1 h
      obtain ⟨hall, rfl⟩ := consume_eq_ok.1 hd
      refine ⟨List.forall_mem_cons.2 ⟨fun m hm => (hall m hm).2, fun a ha m hm =>
        (open_consumed.1 (hopen a ha m hm)).1⟩, List.pairwise_cons.2 ⟨fun a ha m hm n hn =>
          (open_consumed.1 (hopen a ha n hn)).2 m hm, hapart⟩, ?_⟩
      simp [List.filter_filter, Bool.and_comm]
    · rintro ⟨hopen, hapart, rfl⟩
      rw [List.forall_mem_cons] at hopen
      rw [List.pairwise_cons] at hapart
      obtain ⟨d, hd⟩ := hc.consume_isOk_iff.2 hopen.1
      refine ⟨d, hd, (foldlM_consume_eq_ok (hc.of_consume hd)).2 ?_⟩
      obtain ⟨-, rfl⟩ := consume_eq_ok.1 hd
      refine ⟨fun a ha m hm => open_consumed.2 ⟨hopen.2 a ha m hm, fun n hn =>
        hapart.1 a ha n hn m hm⟩, hapart.2, ?_⟩
      simp [List.filter_filter, Bool.and_comm]

/-- The same arms in another order are taken too, and leave the same members. -/
theorem foldlM_consume_perm {subject : Ty} {arms arms' : List Ty} {c c' : Coverage}
    (hc : Splits subject c) (hperm : arms'.Perm arms) (h : arms.foldlM consume c = .ok c') :
    ∃ c'', arms'.foldlM consume c = .ok c'' ∧ c''.remaining = c'.remaining := by
  obtain ⟨hopen, hapart, rfl⟩ := (foldlM_consume_eq_ok hc).1 h
  refine ⟨_, (foldlM_consume_eq_ok hc).2 ⟨fun arm harm => hopen arm (hperm.mem_iff.1 harm),
    (hperm.pairwise_iff Apart.symm).2 hapart, rfl⟩, ?_⟩
  exact List.filter_congr fun t _ => congrArg not hperm.any_eq

/-! ## What is missing -/

theorem pairwise_missing (c : Coverage) : c.missing.Pairwise (textLe · · = true) :=
  pairwise_sortOrdered textLe_total textLe_trans _

theorem remaining_of_missing {c : Coverage} (h : c.missing = []) : c.remaining = [] := by
  rw [List.eq_nil_iff_forall_not_mem] at h ⊢
  exact fun m hm => h m.name (mem_sortOrdered.2 (List.mem_map_of_mem hm))

theorem missing_eq_nil_iff {c : Coverage} : c.missing = [] ↔ c.remaining = [] := by
  constructor
  · exact remaining_of_missing
  · intro h
    rw [missing, h]
    rfl

namespace Splits

variable {subject : Ty} {c : Coverage}

theorem missing_perm (h : Splits subject c) :
    c.missing.Perm ((subject.members.filter fun m => ¬ c.Taken m).map Ty.name) := by
  have hr : c.remaining = subject.members.filter fun m => ¬ c.Taken m := by
    rw [h.remaining_eq]
    refine List.filter_congr fun m _ => ?_
    rw [Bool.eq_iff_iff, Bool.not_eq_true', ← Bool.not_eq_true, taken_iff, decide_eq_true_iff]
  rw [← hr]
  exact sortOrdered_perm _

theorem missing_eq_nil (h : Splits subject c) :
    c.missing = [] ↔ ∀ m ∈ subject.members, c.Taken m := by
  rw [missing_eq_nil_iff, List.eq_nil_iff_forall_not_mem]
  simp only [h.mem_remaining, not_and, not_not]

/-- The first member that cannot be taken decides the error. -/
theorem refused (h : Splits subject c) {arm : Ty} {e : CoverageError}
    (he : c.consume arm = .error e) : ∃ before m after, arm.members = before ++ m :: after ∧
      (∀ x ∈ before, c.Open x) ∧ ¬ c.Open m ∧
      (e = .duplicate m ↔ c.Taken m) ∧
      (e = .noMatching m subject ↔ ¬ ∃ t ∈ subject.members, t.equal m = true) := by
  obtain ⟨before, m, after, hms, hbefore, hm⟩ := consume_eq_error he
  refine ⟨before, m, after, hms, fun x hx => (hbefore x hx).2, ?_⟩
  rw [h.subject_eq] at hm
  rcases hm with ⟨htaken, rfl⟩ | ⟨htaken, hopen, rfl⟩
  · obtain ⟨t, ht, htm⟩ := id htaken
    obtain ⟨s, hs, hts⟩ := h.consumed_mem t ht
    have hm : ∃ t ∈ subject.members, t.equal m = true :=
      ⟨s, hs, Ty.equal_trans (Ty.equal_symm hts) htm⟩
    exact ⟨fun hopen => h.not_taken_of_open hopen htaken, by simp [htaken], by simpa using hm⟩
  · have hm : ¬ ∃ t ∈ subject.members, t.equal m = true :=
      fun hm => (h.open_or_taken hm).elim hopen htaken
    exact ⟨hopen, by simp [htaken], by simpa using hm⟩

end Splits

/-- At every point of every run: each member of the subject is left or taken and not both, and nothing
else is either; what is taken is what a step took; an arm succeeds exactly when all its members are
left; a refused arm changes nothing and its error names its first member that is not left, as a
duplicate when it was taken and as unknown when the subject has no such member; and what is missing
are the names of the members that were not taken, in order. -/
theorem run_accounts (subject : Ty) (steps : List Step) :
    let c := run subject steps
    (∀ m ∈ subject.members, Xor (c.Open m) (c.Taken m)) ∧
    (∀ t ∈ c.remaining ++ c.consumed, ∃ m ∈ subject.members, t.equal m = true) ∧
    (∀ m, c.Taken m ↔
      ∃ before s after, steps = before ++ s :: after ∧ (run subject before).Takes m s) ∧
    (∀ arm, (∃ c', c.consume arm = .ok c') ↔ ∀ m ∈ arm.members, c.Open m) ∧
    (∀ arm e, c.consume arm = .error e → run subject (steps ++ [.consume arm]) = c ∧
      ∃ before m after, arm.members = before ++ m :: after ∧ (∀ x ∈ before, c.Open x) ∧
        ¬ c.Open m ∧ (e = .duplicate m ↔ c.Taken m) ∧
        (e = .noMatching m subject ↔ ¬ ∃ t ∈ subject.members, t.equal m = true)) ∧
    (c.missing = [] ↔ ∀ m ∈ subject.members, c.Taken m) ∧
    c.missing.Pairwise (textLe · · = true) ∧
    c.missing.Perm ((subject.members.filter fun m => ¬ c.Taken m).map Ty.name) := by
  intro c
  have h : Splits subject c := splits_run subject steps
  refine ⟨fun m hm => ?_, fun t => h.mem_subject, fun m => taken_run subject m steps,
    fun arm => h.consume_isOk_iff, fun arm e he => ⟨?_, h.refused he⟩, h.missing_eq_nil,
    pairwise_missing c, h.missing_perm⟩
  · rcases h.open_or_taken ⟨m, hm, Ty.equal_refl m⟩ with hopen | htaken
    · exact .inl ⟨hopen, h.not_taken_of_open hopen⟩
    · exact .inr ⟨htaken, fun hopen => h.not_taken_of_open hopen htaken⟩
  · show (steps ++ [Step.consume arm]).foldl step (ofTy subject) = c
    rw [List.foldl_append]
    show ((takeArm arm).run c).2 = c
    rw [state_takeArm, he]

/-- After an arm for `Int`, an arm for `Boolean | Int` is refused at its second member and takes
nothing, so `Boolean` is still left. -/
theorem run_accounts_refused :
    let subject : Ty := .union [.boolean, .int, .string]
    let c := run subject [.consume .int]
    c.consume (.union [.boolean, .int]) = .error (.duplicate .int) ∧
      run subject [.consume .int, .consume (.union [.boolean, .int])] = c ∧
      Xor (c.Open .boolean) (c.Taken .boolean) ∧ c.missing = ["Boolean", "String"] := by
  intro subject c
  have hrefused : c.consume (.union [.boolean, .int]) = .error (.duplicate .int) := rfl
  obtain ⟨hmembers, -, -, -, herror, -⟩ := run_accounts subject [.consume .int]
  exact ⟨hrefused, (herror _ _ hrefused).1, hmembers .boolean (by simp [subject, Ty.members]), rfl⟩

end Coverage

end UnionChecker
