import Mathlib.Data.List.Pairwise
import UnionChecker.Proofs.Check.Locality
import UnionChecker.Proofs.PackageUnions
import UnionChecker.Proofs.Value.Names
/-!
# The order of arms does not matter

Each arm of a `when` is checked by itself: its type, its test and its block do not depend on the arms
before it (`ArmRun`), and the coverage accepts the types of arms in any order or in none. The cases of
the result are sorted by the names of their types. With legible names no two cases have the same name,
so there is only one sorted order, and a `when` with its arms in another order gives the same result
(`runs_when_perm`).
-/

namespace UnionChecker

open Syntax

/-- The declared types that every package has are known by their names. -/
theorem predeclared_legible : Predeclared (fun _ => True) Nominal.Legible Ty.Legible := by
  refine .of_declared Ty.hereditary_legible (fun t ht => ⟨rfl, Or.inl ⟨t, ht, rfl⟩⟩)
    fun ref record h => ⟨rfl, Or.inr ?_⟩
  rw [Binding.library_ref h]
  exact library_names h

/-- Identifiers as names and a dotted package are enough for the names of a package to be legible. -/
theorem Bound.names_legible {files : List SourceFile} {bound : Bound}
    (hpackage : isDotted (Binding.packageName files) = true)
    (hrecords : ∀ site ∈ Binding.recordSites files, isIdentifier site.record.name.text = true)
    (h : Bound.ofFiles files = .ok bound) :
    bound.table.NamesSatisfy Nominal.Legible Ty.Legible := by
  obtain ⟨table, aliasNames, ht, hbind⟩ := Bound.exists_satisfies Ty.hereditary_legible
    predeclared_legible (fun site hsite => ⟨rfl, Or.inr ⟨hrecords site hsite, hpackage⟩⟩)
    (Binding.typesUse_any files) h
  exact (Binding.bindDeclarations_satisfies Ty.hereditary_legible predeclared_legible ht
    hbind).1.toNamesSatisfy

namespace Check

variable {Γ : Context} {frames frames' : Frames} {frame : Frame} {rest : Frames} {span : Span}
  {expected : Option Ty}

/-- What an arm comes to by itself, in a scope that stays as it is. -/
structure ArmRun (Γ : Context) (expected : Option Ty) (frames : Frames) (arm : Arm)
    (result : TypedCase) : Prop where
  type : Γ.resolveType frames [] arm.type = .ok result.type
  test : Discriminator.ofTy Γ.table.matchFields result.type = .ok result.test
  block : Runs (armBody Γ arm.name result.type arm.origin
    (blockOf Γ arm.body expected arm.span (checkStatements Γ arm.body expected))) frames
    result.block frames
  name : result.name = arm.name.map (·.text)

/-- **Arms are checked one by one.** Only the coverage goes from one to the next. -/
theorem runs_checkArms : ∀ {arms : List Arm} {cases : List TypedCase} {coverage final : Coverage}
    {frames' : Frames},
    Runs (checkArms Γ arms coverage expected) (frame :: rest) (cases, final) frames' ↔
      List.Forall₂ (ArmRun Γ expected (frame :: rest)) arms cases ∧
        (cases.map (·.type)).foldlM Coverage.consume coverage = .ok final ∧
        frames' = frame :: rest
  | [], cases, coverage, final, _ => by
    rw [runs_checkArms_nil]
    constructor
    · rintro ⟨rfl, rfl, rfl⟩
      exact ⟨.nil, rfl, rfl⟩
    · rintro ⟨h, hfinal, rfl⟩
      cases h
      cases hfinal
      exact ⟨rfl, rfl, rfl⟩
  | ⟨name, type, body, span, origin⟩ :: arms, cases, coverage, final, _ => by
    rw [runs_checkArms_cons]
    constructor
    · rintro ⟨t, test, consumed, block, inner, others, ht, htest, hconsumed, hblock, hothers, rfl⟩
      obtain rfl := frames_of_armBody hblock
      obtain ⟨hcases, hfinal, rfl⟩ := runs_checkArms.1 hothers
      refine ⟨.cons ⟨ht, htest, hblock, rfl⟩ hcases, ?_, rfl⟩
      rw [List.map_cons, List.foldlM_cons, bind_eq_ok]
      exact ⟨consumed, hconsumed, hfinal⟩
    · rintro ⟨h, hfinal, rfl⟩
      obtain ⟨⟨name', t, test, block⟩, others, harm, hothers, rfl⟩ := List.forall₂_cons_left_iff.1 h
      obtain ⟨ht, htest, hblock, rfl⟩ := harm
      rw [List.map_cons, List.foldlM_cons, bind_eq_ok] at hfinal
      obtain ⟨consumed, hconsumed, hfinal⟩ := hfinal
      exact ⟨t, test, consumed, block, _, others, ht, htest, hconsumed, hblock,
        runs_checkArms.2 ⟨hothers, hfinal, rfl⟩, rfl⟩

/-! ## Cases -/

/-- Cases that take something, each something else, are ordered by the names of their types alone. -/
theorem caseLe_antisymm {cases : List TypedCase}
    (hshown : ∀ c ∈ cases, c.type.members ≠ [] ∧ ∀ m ∈ c.type.members, Ty.Shown m)
    (hapart : (cases.map (·.type)).Pairwise Coverage.Apart) {a b : TypedCase} (ha : a ∈ cases)
    (hb : b ∈ cases) (hab : caseLe a b = true) (hba : caseLe b a = true) : a = b := by
  by_contra hne
  have hname : a.type.name = b.type.name :=
    String.le_antisymm (textLe_iff.1 hab) (textLe_iff.1 hba)
  have hequal := Ty.members_of_name_eq (hshown a ha).2 (hshown b hb).2 hname
  obtain ⟨m, hm⟩ := List.exists_mem_of_ne_nil _ (hshown a ha).1
  obtain ⟨n, hn, hmn⟩ := forall₂_mem_left hequal hm
  have hsymm : Std.Symm fun a b : TypedCase => Coverage.Apart a.type b.type :=
    ⟨fun _ _ h => h.symm⟩
  have hnone := (List.pairwise_map.1 hapart).forall hb ha (Ne.symm hne) n hn m hm
  simp [hmn] at hnone

theorem caseLe_total (a b : TypedCase) : caseLe a b = true ∨ caseLe b a = true :=
  Ty.le_total a.type b.type

theorem caseLe_trans (a b c : TypedCase) : caseLe a b = true → caseLe b c = true →
    caseLe a c = true :=
  Ty.le_trans a.type b.type c.type

/-- Accepted arms take members that are known by their names. -/
theorem shown_of_armRun {arms : List Arm} {cases : List TypedCase}
    (hnames : Γ.table.NamesSatisfy Nominal.Legible Ty.Legible)
    (harms : ∀ arm ∈ arms, Γ.resolveType frames [] arm.type ≠ .ok .nothing)
    (h : List.Forall₂ (ArmRun Γ expected frames) arms cases) :
    ∀ c ∈ cases, c.type.members ≠ [] ∧ ∀ m ∈ c.type.members, Ty.Shown m := by
  intro c hc
  obtain ⟨arm, harm, hrun⟩ := forall₂_mem_right h hc
  have hlegible : c.type.Legible :=
    Ty.hereditary_legible.resolveType_any predeclared_legible hnames hrun.type
  refine ⟨fun hnil => harms arm harm ?_, Ty.shown_of_test c.type hlegible hrun.test⟩
  rw [hrun.type]
  cases htype : c.type with
  | union ms => rw [htype] at hnil; rw [show ms = [] from hnil]; rfl
  | var | named | fn => rw [htype] at hnil; cases hnil

/-- The `other` arm sees what is left, not how it came to be left. -/
theorem OtherRun.congr {coverage coverage' final : Coverage} {other : Option Otherwise}
    {block : Option (List TypedExpr)} (h : OtherRun Γ expected coverage frames other block final frames')
    (hremaining : coverage'.remaining = coverage.remaining) :
    ∃ final', OtherRun Γ expected coverage' frames other block final' frames' ∧
      final'.remaining = final.remaining := by
  cases h with
  | none => exact ⟨_, .none, hremaining⟩
  | some hblock =>
    refine ⟨_, .some ?_, rfl⟩
    simp only [Coverage.takeRemaining, hremaining]
    exact hblock

/-- Cases that take something, each something else, have one sorted order. -/
theorem sortOrdered_cases_perm {cases cases' : List TypedCase}
    (hshown : ∀ c ∈ cases, c.type.members ≠ [] ∧ ∀ m ∈ c.type.members, Ty.Shown m)
    (hapart : (cases.map (·.type)).Pairwise Coverage.Apart) (hperm : cases'.Perm cases) :
    sortOrdered caseLe cases' = sortOrdered caseLe cases := by
  refine List.Perm.eq_of_pairwise (fun a b ha hb => ?_)
    (pairwise_sortOrdered caseLe_total caseLe_trans cases')
    (pairwise_sortOrdered caseLe_total caseLe_trans cases)
    ((sortOrdered_perm cases').trans (hperm.trans (sortOrdered_perm cases).symm))
  exact caseLe_antisymm hshown hapart (hperm.mem_iff.1 (mem_sortOrdered.1 ha)) (mem_sortOrdered.1 hb)

/-! ## The order of arms -/

theorem runs_when_of_perm {subject : Term} {arms arms' : List Arm} {other : Option Otherwise}
    {e : TypedExpr} (hframes : frames ≠ [])
    (hnames : Γ.table.NamesSatisfy Nominal.Legible Ty.Legible)
    (harms : ∀ arm ∈ arms, Γ.resolveType frames [] arm.type ≠ .ok .nothing)
    (hperm : arms'.Perm arms)
    (h : Runs (checkExpr Γ (.when ⟨subject, arms, other, span⟩) expected) frames e frames') :
    Runs (checkExpr Γ (.when ⟨subject, arms', other, span⟩) expected) frames e frames' := by
  obtain ⟨frame, rest, rfl⟩ := List.exists_cons_of_ne_nil hframes
  obtain ⟨s, cases, block, coverage, final, inner, inner', hs, hcases, hother, hfinal, rfl⟩ :=
    runs_checkExpr_when.1 h
  obtain ⟨frame', rfl, hgenerics⟩ := local_checkTerm subject none _ _ _ _ hs
  obtain ⟨hruns, hcoverage, rfl⟩ := runs_checkArms.1 hcases
  obtain ⟨cases', hruns', hcases'⟩ := List.perm_comp_forall₂ hperm hruns
  obtain ⟨coverage', hcoverage', hremaining⟩ :=
    Coverage.foldlM_consume_perm (Coverage.splits_ofTy s.ty) (hcases'.map (·.type)) hcoverage
  obtain ⟨final', hother', hfinal'⟩ := hother.congr hremaining
  -- Subject and arms are checked in frames with the same generics, where annotations resolve alike.
  have hshown := shown_of_armRun hnames
    (fun arm harm => resolveType_of_local hgenerics [] arm.type ▸ harms arm harm) hruns
  have hapart := ((Coverage.foldlM_consume_eq_ok (Coverage.splits_ofTy s.ty)).1 hcoverage).2.1
  rw [← sortOrdered_cases_perm hshown hapart hcases']
  refine runs_checkExpr_when.2 ⟨s, cases', block, coverage', final', _, _, hs,
    runs_checkArms.2 ⟨hruns', hcoverage', rfl⟩, hother', ?_, rfl⟩
  rw [Coverage.missing_eq_nil_iff] at hfinal ⊢
  rw [hfinal', hfinal]

/-- **The order of arms does not matter.** In a scope whose names are legible, a `when` is accepted with
its arms in one order exactly when it is in any other, with the same result in the same frames. -/
theorem runs_when_perm {subject : Term} {arms arms' : List Arm} {other : Option Otherwise}
    {e : TypedExpr} (hframes : frames ≠ [])
    (hnames : Γ.table.NamesSatisfy Nominal.Legible Ty.Legible)
    (harms : ∀ arm ∈ arms, Γ.resolveType frames [] arm.type ≠ .ok .nothing)
    (hperm : arms.Perm arms') :
    Runs (checkExpr Γ (.when ⟨subject, arms, other, span⟩) expected) frames e frames' ↔
      Runs (checkExpr Γ (.when ⟨subject, arms', other, span⟩) expected) frames e frames' :=
  ⟨runs_when_of_perm hframes hnames harms hperm.symm,
    runs_when_of_perm hframes hnames (fun arm harm => harms arm (hperm.mem_iff.2 harm)) hperm⟩

/-! ## Two shapes in either order -/

section

/-- Two records and a name for their union. -/
def shapeFile : SourceFile :=
  ⟨"shapes", ⟨⟨[.plain "main"], .zero⟩, [],
    [.struct (.plain "Circle" [] [("radius", .named "Int" [])]),
      .struct (.plain "Square" [] [("side", .named "Int" [])]),
      .typeAlias (.plain "Shape" [] (.oneOf [.named "Square" [], .named "Circle" []]))]⟩⟩

def circle : Ty := .named ⟨⟨"main", "Circle"⟩, [], true⟩ []

def square : Ty := .named ⟨⟨"main", "Square"⟩, [], true⟩ []

def shapeTable : Table where
  package := "main"
  types := [("Shape", .synonym [] (.union [circle, square])),
    ("Square", .named ⟨⟨"main", "Square"⟩, [], true⟩ []),
    ("Circle", .named ⟨⟨"main", "Circle"⟩, [], true⟩ [])]
  values := [("Square", .fn [] [("side", .int)] square), ("Circle", .fn [] [("radius", .int)] circle)]
  fields := [(⟨"main", "Square"⟩, [("side", .int)]), (⟨"main", "Circle"⟩, [("radius", .int)])]
  typeAliases := [(⟨"main", "Shape"⟩, ([], .union [circle, square]))]
  constructors := [(⟨"main", "Square"⟩, ⟨[], [("side", .int)], square⟩),
    (⟨"main", "Circle"⟩, ⟨[], [("radius", .int)], circle⟩)]

theorem shapeFile_bound : Bound.ofFiles [shapeFile] = .ok ⟨shapeTable, []⟩ := by
  with_unfolding_all rfl

def squareArm : Arm := .plain (some "s") (.named "Square" []) [.access (.var "s") "side"]

def circleArm : Arm := .plain (some "c") (.named "Circle" []) [.access (.var "c") "radius"]

/-- The cases are sorted, in whatever order the arms were. -/
def shapeChoice : TypedExpr :=
  .choice .int (.reference (.union [circle, square]) none "shape")
    [⟨some "c", circle, .tag ⟨"main", "Circle"⟩ [],
        [.access .int (.reference circle none "c") "radius"]⟩,
      ⟨some "s", square, .tag ⟨"main", "Square"⟩ [],
        [.access .int (.reference square none "s") "side"]⟩] none none

def shapeFrames : Frames := [⟨[("shape", .union [circle, square])], []⟩]

theorem squareArm_first : Runs (checkExpr ⟨shapeTable, "shapes", []⟩
    (.when ⟨.var "shape", [squareArm, circleArm], none, .zero⟩) none) shapeFrames shapeChoice
    shapeFrames := by
  with_unfolding_all rfl

theorem runs_when_perm_shapes : Runs (checkExpr ⟨shapeTable, "shapes", []⟩
    (.when ⟨.var "shape", [circleArm, squareArm], none, .zero⟩) none) shapeFrames shapeChoice
    shapeFrames := by
  have hnames : shapeTable.NamesSatisfy Nominal.Legible Ty.Legible :=
    Bound.names_legible (by decide) (by decide) shapeFile_bound
  refine (runs_when_perm (List.cons_ne_nil _ _) hnames (fun arm harm => ?_)
    (List.Perm.swap circleArm squareArm [])).1 squareArm_first
  rcases List.mem_pair.1 harm with rfl | rfl
  · exact fun h => nomatch h
  · exact fun h => nomatch h

end

end Check

end UnionChecker
