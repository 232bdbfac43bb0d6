import UnionChecker.Proofs.PackageCheck
import UnionChecker.Proofs.Value.Inclusion
import UnionChecker.Syntax.Construct
/-!
# A `when` without `other` has a case for every value

The arms of a `when` cover the members of the type it is over up to equality of types, and equal
types have the same values. So a value of the subject has the type of an arm, and what has a type
passes the test for it (`accepts_of_hasType`).
-/

namespace UnionChecker

open Discriminator

variable {table : Table} {ρ : String → Value → Prop}

theorem literalRef_ne_list (l : Syntax.Literal) : literalRef l ≠ ⟨"", "List"⟩ := by
  cases l <;> simp [literalRef]

theorem eq_null_of_literalRef {l : Syntax.Literal} (h : literalRef l = ⟨"", "Void"⟩) : l = .null := by
  cases l <;> simp_all [literalRef]

/-! ## Values of declared types -/

namespace HasType

section

variable (hagree : table.WitnessesAgree) (hpackage : table.package ≠ "") {decl : Nominal}
  {args : List Ty} {v : Value} (h : HasType table ρ v (.named decl args))
include hagree hpackage h

theorem eq_null (hvoid : decl.ref = ⟨"", "Void"⟩) : v = .literal .null := by
  cases h with
  | literal hl => rw [eq_null_of_literalRef (hl.symm.trans hvoid)]
  | list hlist _ => simp [hvoid] at hlist
  | record htag hgeneric _ _ _ =>
    rw [← htag, hvoid, hagree.constructor?_builtin hpackage] at hgeneric
    cases hgeneric

theorem eq_list (hlist : decl.ref = ⟨"", "List"⟩) : ∃ items element, v = .list items ∧
    args = [element] ∧ ∀ u ∈ items, HasType table ρ u element := by
  cases h with
  | literal hl => exact absurd (hl.symm.trans hlist) (literalRef_ne_list _)
  | list _ hitems => exact ⟨_, _, rfl, rfl, hitems⟩
  | record htag hgeneric _ _ _ =>
    rw [← htag, hlist, hagree.constructor?_builtin hpackage] at hgeneric
    cases hgeneric

end

theorem eq_tag {decl : Nominal} {args : List Ty} {v : Value}
    (h : HasType table ρ v (.named decl args)) (hlist : decl.ref ≠ ⟨"", "List"⟩) :
    v.tag? = some decl.ref ∧ (args = [] ∨ ∃ fields, v = .record decl.ref fields) := by
  cases h with
  | literal hl => exact ⟨congrArg some hl.symm, .inl rfl⟩
  | list hdecl _ => exact absurd hdecl hlist
  | record htag _ _ _ _ => exact ⟨congrArg some htag.symm, .inr ⟨_, by rw [htag]⟩⟩

end HasType

/-! ## Tests pass -/

/-- **A value passes the test for its type.** -/
theorem accepts_of_hasType (hagree : table.WitnessesAgree) (hpackage : table.package ≠ "") (t : Ty) :
    ∀ {position : Position} {test : Discriminator} {v : Value},
      synthesize table.matchFields position t = .ok test → HasType table ρ v t →
        test.accepts v = true := by
  induction t with
  | var x => exact fun h => absurd h synthesize_var_ne_ok
  | fn generics params result => exact fun h => absurd h synthesize_fn_ne_ok
  | union ms ih =>
    intro position test v h hv
    obtain ⟨tests, htests, rfl⟩ := synthesize_union_eq_ok h
    obtain ⟨m, hm, hv⟩ := hasType_iff_members.1 hv
    obtain ⟨test, htest, h⟩ := forall₂_mem_left htests hm
    rw [accepts, acceptsSome_iff]
    exact ⟨test, htest, ih m hm h hv⟩
  | named decl args ih =>
    intro position test v h hv
    rcases synthesize_named_eq_ok h with ⟨hvoid, rfl⟩ |
      ⟨hlist, element, rest, inner, rfl, hinner, rfl⟩ | ⟨hvoid, hlist, ws, rfl, hws⟩
    · exact accepts_void_iff.2 (hv.eq_null hagree hpackage hvoid)
    · obtain ⟨items, element', rfl, hargs, hitems⟩ := hv.eq_list hagree hpackage hlist
      cases hargs
      exact accepts_list_iff.2 ⟨items, rfl, fun u hu =>
        ih element List.mem_cons_self hinner (hitems u hu)⟩
    · obtain ⟨htag, hshape⟩ := hv.eq_tag hlist
      refine accepts_tag_iff.2 ⟨htag, fun w hw => ?_⟩
      -- a witness belongs to a generic, so the value is a record and has the field
      obtain ⟨htests, hnames⟩ := synthesizeWitnesses_eq_ok hws
      obtain ⟨i, hi⟩ := List.mem_iff_getElem?.1 hw
      obtain ⟨arg, harg, htest⟩ := forall₂_getElem?_right htests hi
      rcases hshape with rfl | ⟨fields, rfl⟩
      · cases harg
      · obtain ⟨u, hu, hutype⟩ := hv.witness hagree (hnames i w hi) harg
        exact ⟨u, hu, ih arg (List.mem_of_getElem? harg) htest hutype⟩

/-- **A `when` without `other` in an accepted package has a case for every value.** A value that has
the type of the subject passes the test of one of the cases. -/
theorem checkFiles_choice_exhaustive {config : Config} {files : List Syntax.SourceFile} {p : Program}
    (hok : checkFiles config files = .ok p) (hpackage : p.table.package ≠ "") {type : Ty}
    {subject : TypedExpr} {cases : List TypedCase} {name : Option String}
    (hnode : .choice type subject cases none name ∈ p.nodes) {v : Value}
    (hv : HasType p.table ρ v subject.ty) : ∃ c ∈ cases, c.test.accepts v = true := by
  obtain ⟨hagree, hnodes⟩ := checkFiles_accepted hok
  obtain ⟨htests, hcover⟩ := hnodes _ hnode
  obtain ⟨m, hm, hv⟩ := hasType_iff_members.1 hv
  obtain ⟨c, hc, n, hn, he⟩ := hcover rfl m hm
  have hvc : HasType p.table ρ v c.type :=
    hasType_iff_members.2 ⟨n, hn, (HasType.equal_iff he v).1 hv⟩
  exact ⟨c, hc, accepts_of_hasType hagree hpackage c.type (htests c hc) hvc⟩

/-! ## A package with pairs and lists -/

section

open Syntax

/-- A struct `Pair<T>` with two fields of type `T`, and a `when` over pairs of lists and lists of
pairs. -/
def pairFile : SourceFile :=
  let item (name : String) : TypeExpr := .named name []
  let pairOfLists (name : String) : TypeExpr := .named "Pair" [.named "List" [item name]]
  let listOfPairs (name : String) : TypeExpr := .named "List" [.named "Pair" [item name]]
  let types := [pairOfLists "Int", pairOfLists "String", listOfPairs "Int", listOfPairs "String"]
  ⟨"pairs", ⟨⟨[.plain "main"], .zero⟩, [],
    [.struct (.plain "Pair" ["T"] [("first", item "T"), ("second", item "T")]),
      .declaration (.plain "f" none (.lambda [] [("p", some (.oneOf types))] (some (item "Void"))
        [.choose (.var "p") (types.map fun type => .plain none type [.literal .null]) none]))]⟩⟩

def pairDecl : Nominal := ⟨⟨"main", "Pair"⟩, ["T"], true⟩

def pairOf (t : Ty) : Ty := .named pairDecl [t]

def pairConstructor : Signature :=
  ⟨["T"], [("first", .var "T"), ("second", .var "T")], pairDecl.declared⟩

/-- The type that the `when` is over. -/
def pairSubject : Ty :=
  .union [.list (pairOf .int), .list (pairOf .string), pairOf (.list .int), pairOf (.list .string)]

def pairCases : List TypedCase :=
  let item (name : String) : Discriminator := .tag ⟨"", name⟩ []
  let first (test : Discriminator) : Discriminator := .tag pairDecl.ref [("first", test)]
  let arm (type : Ty) (test : Discriminator) : TypedCase := ⟨none, type, test, [.literal .null .void]⟩
  [arm (.list (pairOf .int)) (.list (first (item "Int"))),
    arm (.list (pairOf .string)) (.list (first (item "String"))),
    arm (pairOf (.list .int)) (first (.list (item "Int"))),
    arm (pairOf (.list .string)) (first (.list (item "String")))]

def pairChoice : TypedExpr := .choice .void (.reference pairSubject none "p") pairCases none none

def pairProgram : Program :=
  ⟨{ package := "main"
     types := [("Pair", .named pairDecl [.var "T"])]
     values := [("f", .fn [] [("p", pairSubject)] .void), ("Pair", pairConstructor.toTy)]
     fields := [(pairDecl.ref, pairConstructor.params)]
     constructors := [(pairDecl.ref, pairConstructor)]
     matchFields := [(pairDecl.ref, [some "first"])] },
    [⟨"f", .function ⟨⟨[], [("p", pairSubject)], .void⟩, ["p"], [pairChoice]⟩⟩]⟩

theorem pairFile_accepted : checkFiles .sequential [pairFile] = .ok pairProgram :=
  checkFiles_of_bound
    (d := [⟨"pairs", .plain "f", .zero, .ok (_, .fn [] [("p", pairSubject)] .void)⟩])
    (by with_unfolding_all rfl) (by with_unfolding_all rfl)

theorem pairChoice_mem : pairChoice ∈ pairProgram.nodes := by
  simp [Program.nodes, pairProgram, TypedExpr.nodes, TypedFunction.nodes, nodesAll, pairChoice]

theorem hasType_pair_iff {first second : Value} {t : Ty} :
    HasType pairProgram.table ρ (.record pairDecl.ref [("first", first), ("second", second)])
      (pairOf t) ↔ HasType pairProgram.table ρ first t ∧ HasType pairProgram.table ρ second t := by
  have hconstructor : pairProgram.table.constructor? pairDecl.ref = some pairConstructor := rfl
  have hvar : (Ty.var "T").resolve (.ofLists ["T"] [t]) = t := rfl
  have hsecond : ("second" == "first") = false := rfl
  simp [pairOf, hasType_record_iff, hconstructor, pairConstructor, hvar, -Prod.forall, -List.mem_cons,
    List.forall_mem_cons, List.lookup_cons, hsecond]

/-- A pair of an empty list and a list of a number. -/
def unevenPair : Value :=
  .record pairDecl.ref [("first", .list []), ("second", .list [.literal (.int 1)])]

theorem hasType_unevenPair : HasType pairProgram.table ρ unevenPair pairSubject := by
  have hint : HasType pairProgram.table ρ (.literal (.int 1)) .int := .literal rfl
  refine .union (m := pairOf (.list .int)) (by simp) (hasType_pair_iff.2 ⟨?_, ?_⟩)
  · exact .list rfl (by simp)
  · exact .list rfl (by simpa using hint)

theorem checkFiles_choice_exhaustive_pairs :
    checkFiles .sequential [pairFile] = .ok pairProgram ∧ pairProgram.table.package ≠ "" ∧
      pairChoice ∈ pairProgram.nodes ∧
      HasType pairProgram.table (fun _ _ => False) unevenPair pairSubject ∧
      ∃ c ∈ pairCases, c.test.accepts unevenPair = true :=
  ⟨pairFile_accepted, by decide, pairChoice_mem, hasType_unevenPair,
    checkFiles_choice_exhaustive pairFile_accepted (by decide) pairChoice_mem
      (hasType_unevenPair (ρ := fun _ _ => False))⟩

end

end UnionChecker
