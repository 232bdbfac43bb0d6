import UnionChecker.Proofs.Binding.Hereditary
import UnionChecker.Proofs.PackageTypes
/-!
# Unions of accepted packages are in normal form

A hereditary property of the types of a table is an invariant of the checker, so it holds of inferred
types and of everything that is recorded. For an accepted package it holds of all types of the
program (`checkFiles_satisfies`), without any condition on its calls. At the property of having unions
in normal form only, this is `checkFiles_unions_normal`.
-/

namespace UnionChecker

open Syntax

variable {Declared : Nominal → Nat → Prop} {P : Ty → Prop} {table table' : Table}
  (hP : Ty.Hereditary (fun _ => True) Declared P) (hD : Predeclared (fun _ => True) Declared P)

/-! ## Along the checker -/

namespace Check

/-- A hereditary property, as one that the checker keeps. Nothing is asked of calls. -/
def hereditary (ht : table.Satisfies Declared P) (file : String) (pending : List String) :
    TypeInvariant ⟨table, file, pending⟩ where
  Holds _ := P
  Call _ _ := True
  mono h _ := h
  var _ := hP.var.2 trivial
  literal _ := hP.literalType hD
  list := hP.list hD
  element {gs t u} h hu := by
    obtain ⟨decl, args, rfl, hmem⟩ := exists_of_listElement? hu
    exact (hP.named.1 h).2 u hmem
  fn := hP.fn.trans (by simp)
  member := hP.members
  join := hP.join
  resolve h himages _ := hP.resolve h himages
  drop h _ := h
  written h := hP.resolveType_any hD ht.toNamesSatisfy h
  value {name found} h := by
    rcases type_of_resolveValue h with ⟨entry, hentry, htype⟩ | ⟨entry, hentry, htype⟩
    · exact htype ▸ ht.fileValues entry hentry
    · exact htype ▸ ht.values entry hentry
  field h hfields hname :=
    fieldsOf_satisfies hP hD ht (hP.named.1 h).1 (hP.named.1 h).2 hfields _ (mem_of_lookup_eq_some hname)
  found _ _ _ _ h ha := Or.inl (hP.found h ha)

variable {file : String} {pending : List String} {frames : Frames}

include hP hD

theorem records_checkTerm {t : Term} {expected : Option Ty} {e : TypedExpr}
    (ht : table.Satisfies Declared P) (hexpected : ∀ ty ∈ expected, P ty)
    (h : Runs (checkTerm ⟨table, file, pending⟩ t expected) .initial e frames) :
    e.Records (fun _ => P) [] := by
  refine (hereditary hP hD ht file pending).records_checkTerm (fun n _ _ => ?_) hexpected h
  cases n with
  | invocation => exact fun _ _ => trivial
  | literal | reference | access | function | declaration | conditional | list | choice => trivial

theorem writtenSignature_satisfies {Γ : Context} {lambda : Lambda} {F : Signature}
    {frames' : Frames} (hΓ : Γ.table.NamesSatisfy Declared P)
    (h : Runs (writtenSignature Γ lambda) frames (some F) frames') : P F.toTy := by
  obtain ⟨hparams, type, hresult⟩ := runs_writtenSignature h
  refine hP.fn.2 ⟨fun _ _ => trivial, fun p hp => ?_, hP.resolveType_any hD hΓ hresult⟩
  obtain ⟨type, htype⟩ := hparams p hp
  exact hP.resolveType_any hD hΓ htype

/-- The type of a declaration has the property, whether it is written or inferred. -/
theorem inferDeclaration_satisfies {d : Declaration} {ty : Ty} (ht : table.Satisfies Declared P)
    (h : atTopLevel (inferDeclaration ⟨table, file, pending⟩ d) = .ok ty) : P ty := by
  have hrun : Runs (inferDeclaration ⟨table, file, pending⟩ d) .initial ty _ := Prod.ext h rfl
  rcases runs_inferDeclaration hrun with ⟨type, htype⟩ | ⟨lambda, F, hF, rfl⟩ | ⟨e, he, rfl⟩
  · exact hP.resolveType_any hD ht.toNamesSatisfy htype
  · exact writtenSignature_satisfies hP hD ht.toNamesSatisfy hF
  · exact (hereditary hP hD ht file pending).records_ty (records_checkTerm hP hD ht (by simp) he)

end Check

/-! ## Types of declarations -/

namespace Binding

/-- The property holds of the types of slots. -/
def SlotsSatisfy (P : Ty → Prop) (slots : List Slot) : Prop :=
  ∀ s ∈ slots, ∀ d ty, s.state = .typed d ty → P ty

theorem recordSlots_satisfies {slots : List Slot} (ht : table.Satisfies Declared P)
    (h : SlotsSatisfy P slots) : (recordSlots table slots).Satisfies Declared P := by
  refine foldl_invariant (I := fun t : Table => t.Satisfies Declared P) (fun t s hs ht' => ?_) ht
  split
  · rename_i d ty hstate
    exact { ht' with values := forall_mem_put (h s hs d ty hstate) ht'.values }
  · exact ht'

include hP hD

theorem attempts_satisfy {slots : List Slot} {pending : List String} {final : Bool}
    (ht : table.Satisfies Declared P) (h : SlotsSatisfy P slots) :
    SlotsSatisfy P (slots.map (Slot.attempt table pending final)) := by
  refine List.forall_mem_map.2 fun s hs d ty hstate => ?_
  unfold Slot.attempt at hstate
  split at hstate
  · rename_i hwaiting
    split at hstate
    · rename_i hinferred
      cases hstate
      exact Check.inferDeclaration_satisfies hP hD ht hinferred
    · split at hstate
      · rw [hwaiting] at hstate
        cases hstate
      · cases hstate
  · exact h s hs d ty hstate

theorem inferenceRounds_satisfies :
    ∀ (rounds : Nat) {table : Table} {slots : List Slot}, table.Satisfies Declared P →
      SlotsSatisfy P slots → (inferenceRounds rounds table slots).1.Satisfies Declared P ∧
        SlotsSatisfy P (inferenceRounds rounds table slots).2
  | 0, _, _, ht, h => ⟨ht, attempts_satisfy hP hD ht h⟩
  | rounds + 1, table, slots, ht, h => by
    simp only [inferenceRounds]
    split
    · have hround : SlotsSatisfy P (slots.map (Slot.attempt table (untypedNames slots) false)) :=
        attempts_satisfy hP hD ht h
      exact inferenceRounds_satisfies rounds (recordSlots_satisfies ht hround) hround
    · exact ⟨ht, attempts_satisfy hP hD ht h⟩

theorem bindDeclarations_satisfies {aliasNames : List String} {files : List SourceFile}
    {declarations : List BoundDeclaration} (ht : table.Satisfies Declared P)
    (h : bindDeclarations table aliasNames files = .ok (table', declarations)) :
    table'.Satisfies Declared P ∧
      ∀ b ∈ declarations, ∀ d ty, b.result = .ok (d, ty) → P ty := by
  rw [bindDeclarations, bind_eq_ok] at h
  obtain ⟨slots, hslots, h⟩ := h
  cases h
  have hannotated : SlotsSatisfy P (slots.map (Slot.annotate table)) :=
    List.forall_mem_map.2 fun s hs d ty hstate => by
      obtain ⟨type, hty⟩ := typed_annotate ((collectSlots_names hslots).2 s hs).2 hstate
      exact hP.resolveType_any hD ht.toNamesSatisfy hty
  obtain ⟨hfinal, htypes⟩ := inferenceRounds_satisfies hP hD slots.length
    (recordSlots_satisfies ht hannotated) hannotated
  refine ⟨hfinal, List.forall_mem_map.2 fun s hs d ty hresult => htypes s hs d ty ?_⟩
  exact s.bound_result_eq_ok.1 hresult

end Binding

/-! ## Accepted packages -/

/-- The types of a program: of its aliases, constructors, imports, fields and values, and all that its
declarations record. -/
def Program.types (p : Program) : List Ty :=
  p.table.typeAliases.map (·.2.2) ++ p.table.constructors.map (·.2.toTy) ++
    p.table.natives.map (·.2.toTy) ++ p.table.fields.flatMap (fun entry => entry.2.map (·.2)) ++
    p.table.values.map (·.2) ++
    p.declarations.flatMap fun d => (d.value.recorded []).map (·.2)

/-- **A hereditary property holds of all types of an accepted package.** -/
theorem checkFiles_satisfies {config : Config} {files : List SourceFile} {p : Program}
    (hP : Ty.Hereditary (fun _ => True) Declared P) (hD : Predeclared (fun _ => True) Declared P)
    (hsites : ∀ site ∈ Binding.recordSites files,
      Declared (site.nominal (Binding.packageName files))
        (site.nominal (Binding.packageName files)).formals.length)
    (hok : checkFiles config files = .ok p) : ∀ t ∈ p.types, P t := by
  obtain ⟨bound, hbound, htable, hall⟩ := checkFiles_bound hok
  obtain ⟨table, aliasNames, ht, hbind⟩ := Bound.exists_satisfies hP hD hsites
    (Binding.typesUse_any files) hbound
  obtain ⟨hfinal, htypes⟩ := Binding.bindDeclarations_satisfies hP hD ht hbind
  have hrecorded : ∀ d ∈ p.declarations, d.value.Records (fun _ => P) [] := by
    intro typed htyped
    obtain ⟨b, hb, hchecked⟩ := forall₂_mem_right hall htyped
    obtain ⟨d, ty, frames, hresult, -, hrun⟩ := PackageCheck.checked_eq_ok (htable ▸ hchecked)
    exact Check.records_checkTerm hP hD hfinal (by simpa using htypes b hb d ty hresult) hrun
  simp only [Program.types, List.forall_mem_append, List.forall_mem_map, List.forall_mem_flatMap,
    htable]
  exact ⟨⟨⟨⟨⟨hfinal.typeAliases, hfinal.constructors⟩, hfinal.natives⟩, hfinal.fields⟩,
    hfinal.values⟩, hrecorded⟩

/-- **Union normal form is an invariant of the whole program.** -/
theorem checkFiles_unions_normal {config : Config} {files : List SourceFile} {p : Program}
    (hok : checkFiles config files = .ok p) : ∀ t ∈ p.types, t.Normal :=
  checkFiles_satisfies Ty.hereditary_normal
    (.of_declared Ty.hereditary_normal (fun _ _ => trivial) fun _ _ _ => trivial)
    (fun _ _ => trivial) hok

/-! ## A package where unions meet -/

section

/-- An alias for a union with its generic, used at another union. -/
def optionalFile : SourceFile :=
  ⟨"optional", ⟨⟨[.plain "main"], .zero⟩, [],
    [.typeAlias ⟨.plain "Optional", [.plain "T"], .oneOf [itemExpr "Void", itemExpr "T"], .zero⟩,
      .declaration (.plain "keep" none (.lambda []
        [("x", some (.named "Optional" [.oneOf [itemExpr "String", itemExpr "Int"]]))]
        (some (.named "Optional" [.named "Optional" [.oneOf [itemExpr "Int", itemExpr "String"]]]))
        [.var "x"]))]⟩⟩

def optionalType : Ty := .union [.var "T", .void]

def keepSignature : Signature :=
  ⟨[], [("x", .union [.int, .string, .void])], .union [.int, .string, .void]⟩

def optionalProgram : Program :=
  ⟨{ package := "main"
     types := [("Optional", .synonym ["T"] optionalType)]
     typeAliases := [(⟨"main", "Optional"⟩, (["T"], optionalType))]
     values := [("keep", keepSignature.toTy)] },
    [⟨"keep", .function ⟨keepSignature, ["x"],
      [.reference (.union [.int, .string, .void]) none "x"]⟩⟩]⟩

theorem optionalFile_accepted : checkFiles .sequential [optionalFile] = .ok optionalProgram := by
  with_unfolding_all rfl

theorem checkFiles_unions_normal_optional :
    checkFiles .sequential [optionalFile] = .ok optionalProgram ∧
      Ty.union [.int, .string, .void] ∈ optionalProgram.types ∧
      ∀ t ∈ optionalProgram.types, t.Normal := by
  refine ⟨optionalFile_accepted, ?_, checkFiles_unions_normal optionalFile_accepted⟩
  simp [Program.types, optionalProgram, TypedExpr.recorded, TypedFunction.recorded, recordedAll]

end

end UnionChecker
