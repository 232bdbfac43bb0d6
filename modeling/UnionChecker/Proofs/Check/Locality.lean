import UnionChecker.Proofs.Binding.Rounds
import UnionChecker.Proofs.Check.Inversion
import UnionChecker.Syntax.Construct
/-!
# Checks change the innermost frame only

A check may bind locals in the innermost frame, and leaves what is bound there, the generics and the
frames below as they are, whether it succeeds or fails (`keeps_checkTerm`): whatever a check puts into
a frame of its own is gone with the frame. So the arms of a `when` do not see each other
(`frames_of_armBody`), and written types mean the same before and after a check
(`resolveType_of_local`).

The same is true of frames that are entered and left from outside: after a balanced sequence of
operations a scope is what it was (`run_of_balanced`).
-/

namespace UnionChecker

/-! ## Frames that grow -/

/-- The frame has what another one has, at the same types, and may have more locals. -/
structure Frame.Extends (frame' frame : Frame) : Prop where
  generics : frame'.generics = frame.generics
  values : ∀ {name ty}, frame.values.lookup name = some ty → frame'.values.lookup name = some ty

theorem Frame.Extends.refl (frame : Frame) : frame.Extends frame := ⟨rfl, id⟩

theorem Frame.Extends.trans {f g k : Frame} (hg : g.Extends f) (hk : k.Extends g) : k.Extends f :=
  ⟨hk.generics.trans hg.generics, fun h => hk.values (hg.values h)⟩

namespace Frames

variable {frame : Frame} {rest frames' : Frames} {name : String} {ty : Ty}

theorem extends_of_defineValue (h : defineValue (frame :: rest) name ty = some frames') :
    ∃ frame' : Frame, frames' = frame' :: rest ∧ frame'.Extends frame := by
  unfold defineValue at h
  split at h
  · cases h
    exact ⟨frame, rfl, .refl frame⟩
  · split at h <;> cases h
    rename_i hfresh
    refine ⟨_, rfl, rfl, fun {x t} hx => ?_⟩
    have hne : x ≠ name := by
      rintro rfl
      exact hfresh (by simp [hasKey, innermost, hx])
    exact (lookup_put_of_ne hne _ _).trans hx

theorem of_defineGeneric (h : defineGeneric (frame :: rest) name = some frames') :
    ∃ frame', frames' = frame' :: rest := by
  unfold defineGeneric at h
  split at h <;> cases h
  exact ⟨_, rfl⟩

/-! ## Balanced operations -/

/-- What is done to a scope from outside. -/
inductive Op where
  | push
  | value (name : String) (ty : Ty)
  | generic (name : String)
  | pop
deriving Repr

/-- A definition that fails leaves the frames as they are. -/
def Op.run : Op → Frames → Frames
  | .push, frames => frames.push
  | .value name ty, frames => (frames.defineValue name ty).getD frames
  | .generic name, frames => (frames.defineGeneric name).getD frames
  | .pop, frames => frames.pop

/-- The frames after some operations. -/
def runAll (ops : List Op) (frames : Frames) : Frames :=
  ops.foldl (fun frames op => op.run frames) frames

/-- Within `depth` frames of their own, the operations leave each frame they have entered and no
other, and define nothing outside. -/
def balanced : (depth : Nat) → List Op → Bool
  | depth, [] => depth == 0
  | depth, .push :: ops => balanced (depth + 1) ops
  | 0, _ :: _ => false
  | depth + 1, .pop :: ops => balanced depth ops
  | depth + 1, _ :: ops => balanced (depth + 1) ops

/-- A definition changes the innermost frame only. -/
theorem getD_onTop {defined : Option Frames}
    (h : ∀ frames' ∈ defined, ∃ frame', frames' = frame' :: rest) :
    ∃ frame', defined.getD (frame :: rest) = frame' :: rest := by
  cases defined with
  | none => exact ⟨frame, rfl⟩
  | some frames' => exact h frames' rfl

/-- The frames that the operations have entered lie on top of the others, and are gone in the end. -/
theorem run_of_balanced : ∀ (ops : List Op) (inner : Frames), balanced inner.length ops = true →
    runAll ops (inner ++ frame :: rest) = frame :: rest
  | [], [], _ => rfl
  | .push :: ops, inner, h => run_of_balanced ops ({} :: inner) h
  | .pop :: ops, [_], h => run_of_balanced ops [] h
  | .pop :: ops, _ :: top :: inner, h => run_of_balanced ops (top :: inner) h
  | .value name ty :: ops, top :: inner, h => by
    obtain ⟨top', htop⟩ : ∃ top', (Op.value name ty).run (top :: (inner ++ frame :: rest)) =
        top' :: (inner ++ frame :: rest) :=
      getD_onTop fun _ h => (extends_of_defineValue h).imp fun _ h => h.1
    exact (congrArg (runAll ops) htop).trans (run_of_balanced ops (top' :: inner) h)
  | .generic name :: ops, top :: inner, h => by
    obtain ⟨top', htop⟩ : ∃ top', (Op.generic name).run (top :: (inner ++ frame :: rest)) =
        top' :: (inner ++ frame :: rest) := getD_onTop fun _ h => of_defineGeneric h
    exact (congrArg (runAll ops) htop).trans (run_of_balanced ops (top' :: inner) h)

end Frames

namespace Check

open Syntax

variable {α β : Type} {Γ : Context} {frames' : Frames} {frame : Frame} {rest : Frames}
  {P : Frame → Frame → Prop} {c : Check α}

/-! ## Checks and frames -/

/-- What may happen to frames: those below the innermost one stay, and this one is related by `P`. -/
def StepsOnTop (P : Frame → Frame → Prop) (frames inner : Frames) : Prop :=
  ∀ frame rest, frames = frame :: rest → ∃ frame', inner = frame' :: rest ∧ P frame' frame

theorem stepsOnTop_refl (hrefl : ∀ f, P f f) (frames : Frames) : StepsOnTop P frames frames :=
  fun frame _ h => ⟨frame, h, hrefl frame⟩

theorem StepsOnTop.trans (htrans : ∀ {f g k}, P g f → P k g → P k f) {frames inner outer : Frames}
    (h : StepsOnTop P frames inner) (h' : StepsOnTop P inner outer) : StepsOnTop P frames outer := by
  intro frame rest hframes
  obtain ⟨frame', hinner, hP⟩ := h frame rest hframes
  obtain ⟨frame'', houter, hP'⟩ := h' frame' rest hinner
  exact ⟨frame'', houter, htrans hP hP'⟩

/-- The check adds locals to the innermost frame and leaves the others as they are, also when it
fails. -/
def Keeps (c : Check α) : Prop :=
  ∀ frame rest, ∃ frame', (c.run.run (frame :: rest)).2 = frame' :: rest ∧ frame'.Extends frame

theorem Keeps.of_runs {a : α} (h : Keeps c) (hrun : Runs c (frame :: rest) a frames') :
    ∃ frame', frames' = frame' :: rest ∧ frame'.Extends frame := by
  have hframes := h frame rest
  rwa [hrun] at hframes

/-- A check beside itself, which adds locals to the innermost frame. Within a frame of its own it may
add generics too. -/
def Simulation.onTop : Simulation where
  frames := Eq
  step := StepsOnTop Frame.Extends
  inner := StepsOnTop fun _ _ => True
  failure _ _ := True
  excused _ := False

theorem Simulates.keeps {c' : Check β} {Q : α → β → Prop} (h : Simulates .onTop Q c c') :
    Keeps c := by
  intro frame rest
  rcases h (frame :: rest) _ rfl with ⟨_, _, hexcused⟩ | ⟨-, -, hstep⟩
  · exact hexcused.elim
  · exact hstep frame rest rfl

theorem reads_onTop : Simulation.onTop.Reads (.exact Eq) Γ Γ where
  likeness := Likeness.exact_lawful Eq
  refl := stepsOnTop_refl .refl
  trans := .trans .trans
  failure _ _ := .inr trivial
  type := reads_steady.type

theorem reads_onTop_within : Simulation.onTop.within.Reads (.exact Eq) Γ Γ where
  likeness := Likeness.exact_lawful Eq
  refl := stepsOnTop_refl fun _ => trivial
  trans := .trans fun _ _ => trivial
  failure _ _ := .inr trivial
  type := reads_steady.type

theorem follows_onTop : Simulation.onTop.Follows (.exact Eq) Γ Γ where
  toReads := reads_onTop
  inner_refl := stepsOnTop_refl fun _ => trivial
  inner_trans := .trans fun _ _ => trivial
  inner_of_step h frame rest hframes := (h frame rest hframes).imp fun _ h => ⟨h.1, trivial⟩
  step_of_inner {frames _} h frame rest hframes := by
    obtain ⟨top, rfl, -⟩ := h {} frames rfl
    subst hframes
    exact ⟨frame, rfl, .refl frame⟩
  push := congrArg Frames.push
  pop := congrArg Frames.pop
  relabel _ _ _ _ := trivial
  excuse h _ := h
  identifier name := simulates_self rfl (fun _ => trivial) fun frames => by
    rw [frames_identifier]
    exact stepsOnTop_refl .refl frames
  define _ _ _ ht := ht ▸ simulates_sameChange reads_onTop rfl
    fun h _ _ hframes => Frames.extends_of_defineValue (hframes ▸ h)
  generic hx := hx ▸ simulates_sameChange reads_onTop_within rfl
    fun h _ _ hframes => (Frames.of_defineGeneric (hframes ▸ h)).imp fun _ h => ⟨h, trivial⟩
  fields := Likeness.rel_fieldsOf fun _ _ => rfl
  tests := Likeness.alike_tests fun _ => rfl

/-- **Checking a term changes the innermost frame only**, and adds locals to it. -/
theorem keeps_checkTerm (t : Term) (expected : Option Ty) :
    Keeps (checkTerm Γ t expected) :=
  (simulates_checkTerm follows_onTop t (.refl t) (rel_refl (fun _ => rfl) expected)).keeps

theorem local_checkTerm (t : Term) (expected : Option Ty) (frame : Frame) (rest : Frames)
    (e : TypedExpr) (frames' : Frames) (hrun : Runs (checkTerm Γ t expected) (frame :: rest) e frames') :
    ∃ frame', frames' = frame' :: rest ∧ frame'.generics = frame.generics := by
  obtain ⟨frame', hframes, hextends⟩ := (keeps_checkTerm t expected).of_runs hrun
  exact ⟨frame', hframes, hextends.generics⟩

/-- An arm leaves no trace. -/
theorem frames_of_armBody {name : Option Name} {type : Ty} {origin : Origin} {body : List Term}
    {expected : Option Ty} {span : Span} {block : List TypedExpr}
    (hrun : Runs (armBody Γ name type origin
      (blockOf Γ body expected span (checkStatements Γ body expected))) (frame :: rest) block frames') :
    frames' = frame :: rest := by
  obtain ⟨bound, inner, hbound, hbody, rfl⟩ := runs_armBody.1 hrun
  obtain ⟨top, rfl⟩ : ∃ top, bound = top :: frame :: rest := by
    cases name with
    | none =>
      cases hbound
      exact ⟨_, rfl⟩
    | some name =>
      obtain ⟨top, htop, -⟩ := Frames.extends_of_defineValue hbound
      exact ⟨top, htop⟩
  have hexpected : Option.Rel Eq expected expected := rel_refl (fun _ => rfl) expected
  have hstatements := simulates_checkStatements (Γ := Γ) follows_onTop body
    (Likeness.termsLike_refl body) hexpected
  have hblock : Keeps (blockOf Γ body expected span (checkStatements Γ body expected)) :=
    (simulates_blockOf follows_onTop rfl hexpected hstatements).keeps
  obtain ⟨_, rfl, -⟩ := hblock.of_runs hbody
  rfl

theorem resolveType_of_local {frame' : Frame}
    (h : frame'.generics = frame.generics) (gs : List String) (type : TypeExpr) :
    Γ.resolveType (frame' :: rest) gs type = Γ.resolveType (frame :: rest) gs type := by
  have hgeneric : ∀ name, Frames.hasGeneric (frame' :: rest) name =
      Frames.hasGeneric (frame :: rest) name := fun name => by
    simp only [Frames.hasGeneric, List.any_cons, h]
  refine resolveType_congr (fun gs name args => ?_) rfl gs type
  simp only [Context.typeAt, Context.lookupType, hgeneric]

/-- **Scope discipline.** A check of a term, successful or not, leaves as many frames as it found and
all but the innermost one as they were. This one keeps its generics and its locals, at their types,
and may have more locals. And when frames are entered, filled and left from outside in a balanced
way, every name refers to what it did before. -/
theorem checkTerm_scope_discipline (Γ : Context) :
    (∀ (t : Term) (expected : Option Ty) (frame : Frame) (rest : Frames), ∃ result frame',
      (checkTerm Γ t expected).run.run (frame :: rest) = (result, frame' :: rest) ∧
        frame'.generics = frame.generics ∧
        ∀ name ty, frame.values.lookup name = some ty → frame'.values.lookup name = some ty) ∧
    ∀ (ops : List Frames.Op) (frame : Frame) (rest : Frames), Frames.balanced 0 ops = true →
      ∀ name, Γ.resolveValue (Frames.runAll ops (frame :: rest)) name =
          Γ.resolveValue (frame :: rest) name ∧
        Γ.lookupType (Frames.runAll ops (frame :: rest)) name = Γ.lookupType (frame :: rest) name := by
  refine ⟨fun t expected frame rest => ?_, fun ops frame rest hops name => ?_⟩
  · obtain ⟨frame', hframes, hextends⟩ := keeps_checkTerm (Γ := Γ) t expected frame rest
    exact ⟨_, frame', Prod.ext rfl hframes, hextends.generics, fun _ _ => hextends.values⟩
  · have hrun : Frames.runAll ops (frame :: rest) = frame :: rest :=
      Frames.run_of_balanced ops [] hops
    rw [hrun]
    exact ⟨rfl, rfl⟩

/-- A text `n` is hidden by another local of that name, which cannot be bound twice, and comes back
when its frame is left. The name of a declaration that fails stays bound beside it. -/
theorem checkTerm_scope_discipline_hidden :
    let Γ : Context := ⟨.empty "main", "main", []⟩
    let frame : Frame := ⟨[("n", .string)], []⟩
    let ops : List Frames.Op :=
      [.push, .value "n" .int, .push, .generic "T", .pop, .value "n" .boolean, .pop]
    let t : Term := .ofExpr (.declaration ⟨.plain "x", some (.named "Int" []), none, .var "y", .zero⟩)
    Frames.balanced 0 ops = true ∧
      Γ.resolveValue (Frames.runAll ops [frame]) "n" = .ok ⟨.string, none, "n"⟩ ∧
      ∃ f, (checkTerm Γ t none).run.run [frame] = (.error f, [⟨[("x", .int), ("n", .string)], []⟩]) ∧
        ∃ result frame', (checkTerm Γ t none).run.run [frame] = (result, [frame']) ∧
          frame'.values.lookup "n" = some .string := by
  intro Γ frame ops t
  refine ⟨rfl, ((checkTerm_scope_discipline Γ).2 ops frame [] rfl "n").1.trans rfl, _,
    by with_unfolding_all rfl, ?_⟩
  obtain ⟨result, frame', hrun, -, hvalues⟩ := (checkTerm_scope_discipline Γ).1 t none frame []
  exact ⟨result, frame', hrun, hvalues "n" .string rfl⟩

end Check

end UnionChecker
