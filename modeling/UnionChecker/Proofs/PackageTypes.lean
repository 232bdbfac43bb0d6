import UnionChecker.Proofs.Binding.Slots
import UnionChecker.Proofs.Check.Scoping
import UnionChecker.Proofs.PackageCheck
import UnionChecker.Syntax.Construct
/-!
# No dangling generics

In an accepted package no type mentions a generic that is not in scope, provided that the package has
a name of its own and that calls in it are plain unless their generics are written
(`checkFiles_generics_in_scope`). Where generics are inferred, calls that are not plain can be accepted
with a generic of an argument outside of the function type that binds it
(`checkFiles_dangling_generic`).
-/

namespace UnionChecker

open Syntax Check

namespace Binding

variable {known : Nominal → Prop} {table table' : Table} {slots slots' : List Slot}

/-- The types of slots are closed. -/
def ScopedSlots (known : Nominal → Prop) (slots : List Slot) : Prop :=
  ∀ s ∈ slots, ∀ d ty, s.state = .typed d ty → Ty.Scoped known [] ty

/-- The slots that have a type are accepted at this type, and all calls with inferred generics in them
are plain. -/
def AcceptedSlots (table : Table) (slots : List Slot) : Prop :=
  ∀ s ∈ slots, ∀ d ty, s.state = .typed d ty → ∃ e frames,
    Runs (checkTerm ⟨table, s.file, []⟩ d.value (some ty)) .initial e frames ∧
      PlainWhereInferred ⟨table, s.file, []⟩ d.value e

theorem closed_recordSlots (ht : table.Closed known) (h : ScopedSlots known slots) :
    (recordSlots table slots).Closed known := by
  refine foldl_invariant (I := fun t : Table => t.Closed known) (fun t s hs ht' => ?_) ht
  split
  · rename_i d ty hstate
    exact { ht' with values := forall_mem_put (h s hs d ty hstate) ht'.values }
  · exact ht'

/-- What a round infers is closed, if all of it is accepted in the end. -/
theorem scoped_attempts {final : Bool} (hd : Declares known) (ht : table.Closed known)
    (hslots : ScopedSlots known slots) (hlater : Later table slots table' slots')
    (hkept : List.Forall₂ Slot.Later
      (slots.map (Slot.attempt table (untypedNames slots) final)) slots')
    (haccepted : AcceptedSlots table' slots') :
    ScopedSlots known (slots.map (Slot.attempt table (untypedNames slots) final)) := by
  intro s' hs' d ty hstate
  obtain ⟨s'', hs'', hlast⟩ := forall₂_mem_left hkept hs'
  obtain ⟨s, hs, rfl⟩ := List.mem_map.1 hs'
  unfold Slot.attempt at hstate
  split at hstate
  · rename_i d' hwaiting
    split at hstate
    · rename_i ty' hinferred
      cases hstate
      have htyped : (s.attempt table (untypedNames slots) final).state = .typed d ty := by
        rw [Slot.attempt, hwaiting]
        simp only [hinferred]
      obtain ⟨e, frames, hrun, hplain⟩ := haccepted s'' hs'' d ty (hlast.typed htyped)
      rw [hlast.file, (s.later_attempt _ _).file] at hrun hplain
      exact scoped_inferDeclaration hd ht (hlater.context_le s.file) hinferred hrun hplain
    · split at hstate
      · rw [hwaiting] at hstate
        cases hstate
      · cases hstate
  · exact hslots s hs d ty hstate

theorem scoped_inferenceRounds (hd : Declares known) : ∀ (rounds : Nat) {table : Table}
    {slots : List Slot}, table.Closed known → ScopedSlots known slots → Recorded table slots →
    (slots.map (·.name.text)).Nodup →
    AcceptedSlots (inferenceRounds rounds table slots).1 (inferenceRounds rounds table slots).2 →
    (inferenceRounds rounds table slots).1.Closed known ∧
      ScopedSlots known (inferenceRounds rounds table slots).2
  | 0, table, slots, ht, hslots, hrecorded, hnd, haccepted => by
    have hlater := later_inferenceRounds 0 hrecorded hnd
    refine ⟨ht, scoped_attempts hd ht hslots hlater ?_ haccepted⟩
    exact List.forall₂_same.2 fun s _ => .refl s
  | rounds + 1, table, slots, ht, hslots, hrecorded, hnd, haccepted => by
    have hlater := later_inferenceRounds (rounds + 1) hrecorded hnd
    simp only [inferenceRounds] at haccepted hlater ⊢
    split at haccepted
    · rename_i hprogress
      simp only [if_pos hprogress] at hlater ⊢
      have hnd' := hnd
      rw [← names_attempts table (untypedNames slots) false] at hnd'
      have hrecorded' := recorded_recordSlots table hnd'
      have hrest := later_inferenceRounds rounds hrecorded' hnd'
      have hround := scoped_attempts hd ht hslots hlater hrest.slots haccepted
      exact scoped_inferenceRounds hd rounds (closed_recordSlots ht hround) hround hrecorded' hnd'
        haccepted
    · rename_i hprogress
      simp only [if_neg hprogress] at hlater ⊢
      refine ⟨ht, scoped_attempts hd ht hslots hlater ?_ haccepted⟩
      exact List.forall₂_same.2 fun s _ => .refl s

/-- **The types of declarations are closed**, if all of them are accepted and calls with inferred
generics are plain. -/
theorem scoped_bindDeclarations {aliasNames : List String} {files : List SourceFile}
    {declarations : List BoundDeclaration} (hd : Declares known) (ht : table.Closed known)
    (h : bindDeclarations table aliasNames files = .ok (table', declarations))
    (haccepted : ∀ b ∈ declarations, ∀ d ty, b.result = .ok (d, ty) → ∃ e frames,
      Runs (checkTerm ⟨table', b.file, []⟩ d.value (some ty)) .initial e frames ∧
        PlainWhereInferred ⟨table', b.file, []⟩ d.value e) :
    table'.Closed known ∧
      ∀ b ∈ declarations, ∀ d ty, b.result = .ok (d, ty) → Ty.Scoped known [] ty := by
  rw [bindDeclarations, bind_eq_ok] at h
  obtain ⟨slots, hslots, h⟩ := h
  cases h
  obtain ⟨hnd, hnew⟩ := collectSlots_names hslots
  have hnames : ((slots.map (Slot.annotate table)).map (·.name.text)).Nodup := by
    rw [List.map_map]
    simpa [Function.comp_def, name_annotate] using hnd
  have hannotated : ScopedSlots known (slots.map (Slot.annotate table)) :=
    List.forall_mem_map.2 fun s hs d ty hstate => by
      obtain ⟨type, hty⟩ := typed_annotate (hnew s hs).2 hstate
      exact scoped_resolveType_initial hd ht hty
  have hround := scoped_inferenceRounds hd slots.length (closed_recordSlots ht hannotated)
    hannotated (recorded_recordSlots table hnames) hnames fun s hs d ty hstate =>
      haccepted s.bound (List.mem_map_of_mem hs) d ty (s.bound_result_eq_ok.2 hstate)
  refine ⟨hround.1, List.forall_mem_map.2 fun s hs d ty hresult => ?_⟩
  exact hround.2 s hs d ty (s.bound_result_eq_ok.1 hresult)

end Binding

/-- A call of the source with generics that are not written is checked to the node. -/
def Program.Infers (p : Program) (files : List SourceFile) (n : TypedExpr) : Prop :=
  ∃ d ∈ files.flatMap Binding.valueDeclarations, ∃ e, desugarTopDeclaration d.1 d.2 = .ok e ∧
    Check.Infers ⟨p.table, d.1, []⟩ e.value.calls n

theorem plainWhereInferred_of_nodes {files : List SourceFile} {p : Program} {base : Table}
    {aliasNames : List String} {declarations : List Binding.BoundDeclaration}
    (hcalls : ∀ n ∈ p.nodes, p.Infers files n → n.plainCall = true)
    (hbind : Binding.bindDeclarations base aliasNames files = .ok (p.table, declarations))
    {b : Binding.BoundDeclaration} (hb : b ∈ declarations) {d : Declaration} {ty : Ty}
    (hresult : b.result = .ok (d, ty)) {typed : TypedDeclaration} (htyped : typed ∈ p.declarations) :
    PlainWhereInferred ⟨p.table, b.file, []⟩ d.value typed.value := by
  obtain ⟨source, hsource, -, hdeclares⟩ := Binding.declared_bindDeclarations hbind b hb
  obtain ⟨-, hdesugared⟩ := hdeclares d ty hresult
  intro n hn hinfers
  exact hcalls n (List.mem_flatMap.2 ⟨typed, htyped, hn⟩) ⟨_, hsource, d, hdesugared, hinfers⟩

/-- **No dangling generics.** In an accepted package that has a name of its own and where all calls
with inferred generics are plain, the types of declarations are closed, and every type recorded in a
declaration mentions only generics of the lambdas around it. -/
theorem checkFiles_generics_in_scope {config : Config} {files : List SourceFile} {p : Program}
    (hok : checkFiles config files = .ok p) (hname : Binding.packageName files ≠ "")
    (hlibrary : Library.hasPackage (Binding.packageName files) = false)
    (hcalls : ∀ n ∈ p.nodes, p.Infers files n → n.plainCall = true) :
    (∀ v ∈ p.table.values, ∀ x, v.2.mentionsAny [x] = false) ∧
      ∀ d ∈ p.declarations, (∀ x, d.ty.mentionsAny [x] = false) ∧
        ∀ r ∈ d.value.recorded [], ∀ x, r.2.mentionsAny [x] = true → x ∈ r.1 := by
  obtain ⟨bound, hbound, htable, hall⟩ := checkFiles_bound hok
  obtain ⟨known, table, aliasNames, hd, ht, hbind⟩ := Bound.exists_closed hbound hname hlibrary
  rw [← htable] at hbind
  obtain ⟨hfinal, htypes⟩ := Binding.scoped_bindDeclarations hd ht hbind fun b hb d ty hresult => by
    obtain ⟨typed, htyped, hchecked⟩ := forall₂_mem_left hall hb
    obtain ⟨d', ty', frames, hresult', -, hrun⟩ := PackageCheck.checked_eq_ok hchecked
    cases hresult.symm.trans hresult'
    exact ⟨typed.value, frames, hrun, plainWhereInferred_of_nodes hcalls hbind hb hresult htyped⟩
  have hnone : ∀ {t : Ty}, Ty.Scoped known [] t → ∀ x, t.mentionsAny [x] = false := fun h x =>
    Bool.eq_false_iff.2 fun hx => by simpa using h.mem_of_mentions _ hx
  refine ⟨fun v hv => hnone (hfinal.values v hv), fun typed htyped => ?_⟩
  obtain ⟨b, hb, hchecked⟩ := forall₂_mem_right hall htyped
  obtain ⟨d, ty, frames, hresult, -, hrun⟩ := PackageCheck.checked_eq_ok hchecked
  have hrecords := scoped_checkTerm hd hfinal (by simpa using htypes b hb d ty hresult)
    (plainWhereInferred_of_nodes hcalls hbind hb hresult htyped) hrun
  refine ⟨hnone ((scoping hd hfinal b.file []).records_ty hrecords), fun r hr x hx => ?_⟩
  exact (hrecords r hr).mem_of_mentions _ hx

/-! ## A package with a call that is not plain -/

section

def itemExpr (name : String) : TypeExpr := .named name []

def pairSignature : Signature := ⟨["A", "B"], [("x", .var "A"), ("y", .var "B")], .var "A"⟩

/-- The parameter is generic itself and mentions the generic `T` of the function inside. -/
def takeSignature : Signature :=
  ⟨["T"], [("g", .fn ["A"] [("_", .var "T")] .void)], .list (.var "T")⟩

def takeDeclaration (name : String) : TopLevel :=
  .declaration (.plain name none (.lambda ["T"]
    [("g", some (.fn ["A"] [itemExpr "T"] (itemExpr "Void")))] (some (.named "List" [itemExpr "T"]))
    [.list (some (itemExpr "T")) []]))

def ignoreSignature : Signature := ⟨["A"], [("x", .int)], .void⟩

/-- A call with inferred generics, which is plain, and one that is not plain and has them written. -/
def writtenFile : SourceFile :=
  ⟨"written", ⟨⟨[.plain "main"], .zero⟩, [],
    [.declaration (.plain "pair" none (.lambda ["A", "B"]
        [("x", some (itemExpr "A")), ("y", some (itemExpr "B"))] (some (itemExpr "A")) [.var "x"])),
      takeDeclaration "take",
      .declaration (.plain "ignore" none (.lambda ["A"] [("x", some (itemExpr "Int"))]
        (some (itemExpr "Void")) [.literal .null])),
      .declaration (.plain "r" none
        (.call "pair" [] [.literal (.int 1), .literal (.string "one")])),
      .declaration (.plain "s" none (.call "take" [itemExpr "Int"] [.var "ignore"]))]⟩⟩

def writtenCall : TypedExpr :=
  .invocation (.list .int) (.reference takeSignature.toTy (some "main") "take") [.int]
    [.reference ignoreSignature.toTy (some "main") "ignore"]

def writtenProgram : Program :=
  ⟨{ package := "main"
     values := [("s", .list .int), ("r", .int), ("ignore", ignoreSignature.toTy),
       ("take", takeSignature.toTy), ("pair", pairSignature.toTy)] },
    [⟨"pair", .function ⟨pairSignature, ["x", "y"], [.reference (.var "A") none "x"]⟩⟩,
      ⟨"take", .function ⟨takeSignature, ["g"], [.list (.var "T") []]⟩⟩,
      ⟨"ignore", .function ⟨ignoreSignature, ["x"], [.literal .null .void]⟩⟩,
      ⟨"r", .invocation .int (.reference pairSignature.toTy (some "main") "pair") [.int, .string]
        [.literal (.int 1) .int, .literal (.string "one") .string]⟩,
      ⟨"s", writtenCall⟩]⟩

theorem writtenFile_accepted : checkFiles .sequential [writtenFile] = .ok writtenProgram :=
  checkFiles_of_bound (d := [⟨"written", .plain "pair", .zero, .ok (_, pairSignature.toTy)⟩,
      ⟨"written", .plain "take", .zero, .ok (_, takeSignature.toTy)⟩,
      ⟨"written", .plain "ignore", .zero, .ok (_, ignoreSignature.toTy)⟩,
      ⟨"written", .plain "r", .zero, .ok (_, .int)⟩,
      ⟨"written", .plain "s", .zero, .ok (_, .list .int)⟩])
    (by with_unfolding_all rfl) (by with_unfolding_all rfl)

/-- The only call of the source with as many arguments as `take` wants has its generics written. -/
theorem writtenCall_not_inferred : ¬ writtenProgram.Infers [writtenFile] writtenCall := by
  rintro ⟨d, hd, e, he, hinfers⟩
  obtain ⟨args, hargs, F, hF, hopen, hlength⟩ := hinfers.exists_call
  obtain rfl : takeSignature = F := by
    obtain ⟨generics, params, result⟩ := F
    obtain ⟨rfl, rfl, rfl⟩ := Ty.fn.inj hF
    rfl
  have hall : ∀ d ∈ [writtenFile].flatMap Binding.valueDeclarations,
      ∀ e ∈ (desugarTopDeclaration d.1 d.2).toOption, ∀ args ∈ e.value.calls,
        args.items.length = 1 → openGenerics ["T"] args.generics = [] := by decide
  exact hopen (hall d hd e (by rw [he]; rfl) args hargs hlength)

theorem writtenProgram_calls :
    ∀ n ∈ writtenProgram.nodes, writtenProgram.Infers [writtenFile] n → n.plainCall = true := by
  intro n hn hinfers
  rw [show writtenProgram.nodes = writtenProgram.nodes.take 10 ++ writtenCall ::
    writtenProgram.nodes.drop 11 from rfl, List.mem_append, List.mem_cons] at hn
  rcases hn with hn | rfl | hn
  · exact (by decide : ∀ n ∈ writtenProgram.nodes.take 10, n.plainCall = true) n hn
  · exact (writtenCall_not_inferred hinfers).elim
  · exact (by decide : ∀ n ∈ writtenProgram.nodes.drop 11, n.plainCall = true) n hn

theorem checkFiles_generics_in_scope_written :
    checkFiles .sequential [writtenFile] = .ok writtenProgram ∧
      Binding.packageName [writtenFile] = "main" ∧ Library.hasPackage "main" = false ∧
      (∀ n ∈ writtenProgram.nodes, writtenProgram.Infers [writtenFile] n → n.plainCall = true) ∧
      writtenCall ∈ writtenProgram.nodes ∧ writtenCall.plainCall = false ∧
      (∀ v ∈ writtenProgram.table.values, ∀ x, v.2.mentionsAny [x] = false) ∧
      ∀ d ∈ writtenProgram.declarations, (∀ x, d.ty.mentionsAny [x] = false) ∧
        ∀ r ∈ d.value.recorded [], ∀ x, r.2.mentionsAny [x] = true → x ∈ r.1 :=
  ⟨writtenFile_accepted, by decide, by decide, writtenProgram_calls,
    List.mem_of_getElem? (i := 10) rfl, by decide,
    checkFiles_generics_in_scope writtenFile_accepted (by decide) (by decide) writtenProgram_calls⟩

/-! ## A package with a dangling generic -/

def anySignature : Signature := ⟨["A"], [("x", .var "A")], .void⟩

/-- A call with a generic function, and nothing written. -/
def danglingFile : SourceFile :=
  ⟨"dangling", ⟨⟨[.plain "main"], .zero⟩, [],
    [takeDeclaration "f",
      .declaration (.plain "h" none (.lambda ["A"] [("x", some (itemExpr "A"))]
        (some (itemExpr "Void")) [.literal .null])),
      .declaration (.plain "r" none (.call "f" [] [.var "h"]))]⟩⟩

def danglingProgram : Program :=
  ⟨{ package := "main"
     values := [("r", .list (.var "A")), ("h", anySignature.toTy), ("f", takeSignature.toTy)] },
    [⟨"f", .function ⟨takeSignature, ["g"], [.list (.var "T") []]⟩⟩,
      ⟨"h", .function ⟨anySignature, ["x"], [.literal .null .void]⟩⟩,
      ⟨"r", .invocation (.list (.var "A")) (.reference takeSignature.toTy (some "main") "f")
        [.var "A"] [.reference anySignature.toTy (some "main") "h"]⟩]⟩

/-- Inference looks for `T` in the type `<A>(A) ~> Void` of the argument, finds the generic `A` that
this type binds, and takes it out. Putting it into the parameter captures it, so the argument fits,
and the declaration `r` has the type `List<A>` where no `A` is in scope. -/
theorem checkFiles_dangling_generic :
    checkFiles .sequential [danglingFile] = .ok danglingProgram ∧
      ∃ d ∈ danglingProgram.declarations, d.ty.mentionsAny ["A"] = true := by
  refine ⟨?_, _, List.mem_cons_of_mem _ (List.mem_cons_of_mem _ List.mem_cons_self), rfl⟩
  with_unfolding_all rfl

end

end UnionChecker
