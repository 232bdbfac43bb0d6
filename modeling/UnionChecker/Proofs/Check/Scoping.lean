import UnionChecker.Proofs.Binding.Closed
import UnionChecker.Proofs.Check.Accepted
import UnionChecker.Proofs.Check.Wanted
/-!
# Generics stay in scope

Being in scope is a property of types that the checker keeps (`scoping`), as long as calls with
inferred generics are plain: inference then never takes a generic out of the function type that binds
it. The type that is inferred for a declaration is closed, whatever else is in it, if these calls turn
out to be plain when its value is checked (`scoped_inferDeclaration`).
-/

namespace UnionChecker

open Syntax

/-- The generics of a callee have different names, and occur where inference may look at them. -/
def Signature.plainAt (F : Signature) (types : List Ty) : Bool :=
  F.generics.Nodup && (F.result :: F.paramTypes).all (Ty.plain F.generics) &&
    types.all (Ty.occursOutside F.generics)

/-- Whether a node is no call, or one that inference can do no harm to. -/
def TypedExpr.plainCall : TypedExpr → Bool
  | .invocation _ subject types _ =>
    match subject.ty with
    | .fn generics params result => (⟨generics, params, result⟩ : Signature).plainAt types
    | _ => true
  | _ => true

namespace Check

variable {known : Nominal → Prop} {table : Table}

theorem scoped_literalType {gs : List String} (hd : Declares known) (value : Literal) :
    Ty.Scoped known gs (literalType value) := by
  have hbuiltin := hd.builtin
  simp only [Library.defaultTypes, List.forall_mem_cons] at hbuiltin
  cases value <;>
    simp [literalType, Ty.string, Ty.int, Ty.float, Ty.boolean, Ty.void, Ty.builtin, hbuiltin]

theorem known_list (hd : Declares known) : known ⟨⟨"", "List"⟩, ["T"], true⟩ := by
  have hbuiltin := hd.builtin
  simp only [Library.defaultTypes, List.forall_mem_cons] at hbuiltin
  simp [hbuiltin]

/-- A name refers to a local, to an import of the file or to a value of the package. -/
theorem resolveValue_cases {Γ : Context} {frames : Frames} {name : String} {found : Resolved}
    (h : Γ.resolveValue frames name = .ok found) :
    (∃ ty, frames.value? name = some ty ∧ found = ⟨ty, none, name⟩) ∨
      (∃ imported, Γ.table.fileValues.lookup (Γ.file, name) = some imported ∧
        found = ⟨imported.type, some imported.origin.package, imported.origin.name⟩) ∨
      ∃ ty, Γ.table.values.lookup name = some ty ∧ found = ⟨ty, some Γ.table.package, name⟩ := by
  unfold Context.resolveValue at h
  split at h
  · exact .inl ⟨_, ‹_›, (Except.ok.inj h).symm⟩
  split at h
  · exact .inr (.inl ⟨_, ‹_›, (Except.ok.inj h).symm⟩)
  split at h
  · cases h
  split at h
  · exact .inr (.inr ⟨_, ‹_›, (Except.ok.inj h).symm⟩)
  · cases h

/-- What is no local has a type that the table gives. -/
theorem type_of_resolveValue {Γ : Context} {name : String} {found : Resolved}
    (h : Γ.resolveValue [] name = .ok found) :
    (∃ entry ∈ Γ.table.fileValues, entry.2.type = found.type) ∨
      ∃ entry ∈ Γ.table.values, entry.2 = found.type := by
  rcases resolveValue_cases h with ⟨_, hvalue, -⟩ | ⟨_, himported, rfl⟩ | ⟨_, hvalue, rfl⟩
  · cases hvalue
  · exact Or.inl ⟨_, mem_of_lookup_eq_some himported, rfl⟩
  · exact Or.inr ⟨_, mem_of_lookup_eq_some hvalue, rfl⟩

theorem scoped_value {file : String} {pending : List String} {name : String} {found : Resolved}
    (ht : table.Closed known)
    (h : Context.resolveValue ⟨table, file, pending⟩ [] name = .ok found) :
    Ty.Scoped known [] found.type := by
  rcases type_of_resolveValue h with ⟨entry, hentry, htype⟩ | ⟨entry, hentry, htype⟩
  · exact htype ▸ ht.fileValues entry hentry
  · exact htype ▸ ht.values entry hentry

theorem scoped_found {gs : List String} {F : Signature} {types : List Ty} {given : Substitution}
    {g : String} {p a t : Ty} (hplain : F.plainAt types = true)
    (hgiven : F.generics.Nodup → ∀ x u, given.lookup x = some u → x ∈ F.generics ∧ u ∈ types)
    (hg : g ∈ F.generics) (hp : p ∈ F.result :: F.paramTypes)
    (h : Ty.Found g (p.resolve given) a t) (ha : Ty.Scoped known gs a) :
    Ty.Scoped known gs t ∨ Ty.Clash p a := by
  simp only [Signature.plainAt, Bool.and_eq_true, decide_eq_true_eq, List.all_eq_true] at hplain
  obtain ⟨⟨hnd, hparams⟩, htypes⟩ := hplain
  have houtside : Ty.KeepsOutside F.generics given := fun x u hu =>
    ⟨(hgiven hnd x u hu).1, htypes u (hgiven hnd x u hu).2⟩
  exact h.scoped_or_clash houtside hg p (hparams p hp) ha

/-- Being in scope, as a property that the checker keeps. -/
def scoping (hd : Declares known) (ht : table.Closed known) (file : String)
    (pending : List String) : TypeInvariant ⟨table, file, pending⟩ where
  Holds := Ty.Scoped known
  Call F types := F.plainAt types = true
  mono := Ty.Scoped.mono
  var := .var
  literal _ := scoped_literalType hd
  list h := .named (known_list hd) rfl (by simpa)
  element {gs t u} h hu := by
    obtain ⟨decl, args, rfl, hmem⟩ := exists_of_listElement? hu
    exact (Ty.scoped_named.1 h).2.2 u hmem
  fn := Ty.scoped_fn
  member h hm := h.members hm
  join := Ty.scoped_join
  resolve {gs hs t σ} h himages hunbound := by
    refine h.resolve t fun x hx => ?_
    cases hl : σ.lookup x with
    | some u => exact himages x u hl
    | none => exact .var (hunbound x hx hl)
  drop := Ty.Scoped.drop
  written {frames type t} h := scoped_resolveType hd ht type h
  value := scoped_value ht
  field h hfields hname := scoped_fieldsOf hd ht h hfields _ (mem_of_lookup_eq_some hname)
  found := scoped_found

theorem callOk_scoping {hd : Declares known} {ht : table.Closed known} {file : String}
    {pending : List String} {e : TypedExpr} (h : e.plainCall = true) :
    (scoping hd ht file pending).CallOk e := by
  cases e with
  | invocation type subject generics args =>
    intro F hF
    simp only [TypedExpr.plainCall, hF, Signature.toTy] at h
    exact h
  | literal | reference | access | function | declaration | conditional | list | choice => trivial

/-- All calls whose generics are not all written are plain. -/
def PlainWhereInferred (Γ : Context) (t : Term) (e : TypedExpr) : Prop :=
  e.Everywhere fun n => Infers Γ t.calls n → n.plainCall = true

/-- What is recorded in an accepted term is in scope, if calls with inferred generics are plain. -/
theorem scoped_checkTerm {file : String} {pending : List String} {t : Term} {expected : Option Ty}
    {e : TypedExpr} {frames : Frames} (hd : Declares known) (ht : table.Closed known)
    (hexpected : ∀ ty ∈ expected, Ty.Scoped known [] ty)
    (hplain : PlainWhereInferred ⟨table, file, pending⟩ t e)
    (h : Runs (checkTerm ⟨table, file, pending⟩ t expected) .initial e frames) :
    e.Records (Ty.Scoped known) [] :=
  (scoping hd ht file pending).records_checkTerm
    (fun n hn hinfers => callOk_scoping (hplain n hn hinfers)) hexpected h

/-! ## Types of declarations -/

variable {Γ : Context} {frames frames' : Frames}

theorem runs_resolveType {generics : List String} {type : TypeExpr} {t : Ty} :
    Runs (fun frames => (Γ.resolveType frames generics type, frames) : Check Ty) frames t frames' ↔
      Γ.resolveType frames generics type = .ok t ∧ frames' = frames := by
  show (Γ.resolveType frames generics type, frames) = _ ↔ _
  rw [Prod.mk.injEq, eq_comm (a := frames)]

theorem runs_writtenParams {generics : List String} : ∀ {params : List Parameter}
    {ps : List (String × Ty)}, Runs (writtenParams Γ generics params) frames ps frames' →
    frames' = frames ∧ ∀ p ∈ ps, ∃ type, Γ.resolveType frames generics type = .ok p.2
  | [], ps, h => by
    obtain ⟨rfl, rfl⟩ := runs_pure.1 h
    simp
  | ⟨name, none⟩ :: params, ps, h => by
    have hrest : Runs (writtenParams Γ generics params) frames ps frames' := h
    exact runs_writtenParams hrest
  | ⟨name, some type⟩ :: params, ps, h => by
    rw [writtenParams, runs_bind] at h
    simp only [runs_resolveType, runs_bind_pure] at h
    obtain ⟨t, inner, ⟨ht, hinner⟩, rest, hrest, rfl⟩ := h
    rw [hinner] at hrest
    obtain ⟨hframes, hrest⟩ := runs_writtenParams hrest
    exact ⟨hframes, List.forall_mem_cons.2 ⟨⟨type, ht⟩, hrest⟩⟩

/-- The parameters and the result of a written signature are written types. -/
theorem runs_writtenSignature {lambda : Lambda} {F : Signature}
    (h : Runs (writtenSignature Γ lambda) frames (some F) frames') :
    (∀ p ∈ F.params, ∃ type, Γ.resolveType frames F.generics type = .ok p.2) ∧
      ∃ type, Γ.resolveType frames F.generics type = .ok F.result := by
  unfold writtenSignature at h
  split at h
  · cases (runs_pure.1 h).1
  split at h
  · simp only [runs_bind, runs_resolveType, runs_pure, Option.some.injEq] at h
    obtain ⟨ps, inner, hps, r, _, ⟨hr, rfl⟩, rfl, _⟩ := h
    obtain ⟨rfl, hparams⟩ := runs_writtenParams hps
    exact ⟨hparams, _, hr⟩
  · cases (runs_pure.1 h).1

theorem scoped_writtenSignature {lambda : Lambda} {F : Signature} (hd : Declares known)
    (hΓ : Γ.table.Closed known) (h : Runs (writtenSignature Γ lambda) .initial (some F) frames) :
    Ty.Scoped known [] F.toTy := by
  obtain ⟨hparams, type, hresult⟩ := runs_writtenSignature h
  refine .fn (fun p hp => ?_) ((scoped_resolveType_initial hd hΓ hresult).mono (by simp))
  obtain ⟨type, htype⟩ := hparams p hp
  exact (scoped_resolveType_initial hd hΓ htype).mono (by simp)

/-- A lambda that leaves out types is not looked at. -/
theorem frames_of_writtenSignature_none {lambda : Lambda}
    (h : Runs (writtenSignature Γ lambda) frames none frames') : frames' = frames := by
  unfold writtenSignature at h
  split at h
  · exact (runs_pure.1 h).2
  split at h
  · simp only [runs_bind, runs_pure] at h
    obtain ⟨_, _, _, _, _, _, h, _⟩ := h
    cases h
  · exact (runs_pure.1 h).2

/-- The type of a declaration is written, or it is that of its value. -/
theorem runs_inferDeclaration {d : Declaration} {ty : Ty}
    (h : Runs (inferDeclaration Γ d) frames ty frames') :
    (∃ type, Γ.resolveType frames [] type = .ok ty) ∨
      (∃ lambda F, Runs (writtenSignature Γ lambda) frames (some F) frames' ∧ ty = F.toTy) ∨
      ∃ e, Runs (checkTerm Γ d.value none) frames e frames' ∧ ty = e.ty := by
  unfold inferDeclaration at h
  split at h
  · exact Or.inl ⟨_, (runs_resolve.1 h).1⟩
  split at h
  · simp only [runs_bind] at h
    obtain ⟨F, inner, hF, h⟩ := h
    split at h
    · obtain ⟨rfl, rfl⟩ := runs_pure.1 h
      exact Or.inr (Or.inl ⟨_, _, hF, rfl⟩)
    · obtain rfl := frames_of_writtenSignature_none hF
      obtain ⟨e, inner, he, h⟩ := runs_bind.1 h
      obtain ⟨rfl, rfl⟩ := runs_pure.1 h
      exact Or.inr (Or.inr ⟨e, he, rfl⟩)
  · obtain ⟨e, inner, he, h⟩ := runs_bind.1 h
    obtain ⟨rfl, rfl⟩ := runs_pure.1 h
    exact Or.inr (Or.inr ⟨e, he, rfl⟩)

theorem Infers.mono {Γ' : Context} (hΓ : Γ.Le Γ') {calls : List Arguments} {n : TypedExpr}
    (h : Infers Γ calls n) : Infers Γ' calls n := by
  obtain ⟨args, hargs, F, subject, expected, span, frames, frames', hF, hopen, hrun⟩ := h
  exact ⟨args, hargs, F, subject, expected, span, frames, frames', hF, hopen,
    refines_checkCall hΓ args subject expected span frames n frames' hrun⟩

/-- **An inferred type is closed**, if the declaration is accepted at this type later on and all calls
with inferred generics in it are plain then. -/
theorem scoped_inferDeclaration {file : String} {pending : List String} {Γ' : Context}
    {d : Declaration} {ty : Ty} {e : TypedExpr} (hd : Declares known) (ht : table.Closed known)
    (hle : Context.Le ⟨table, file, pending⟩ Γ')
    (h : atTopLevel (inferDeclaration ⟨table, file, pending⟩ d) = .ok ty)
    (hcheck : Runs (checkTerm Γ' d.value (some ty)) .initial e frames)
    (hplain : PlainWhereInferred Γ' d.value e) : Ty.Scoped known [] ty := by
  have hrun : Runs (inferDeclaration ⟨table, file, pending⟩ d) .initial ty _ := Prod.ext h rfl
  rcases runs_inferDeclaration hrun with ⟨type, htype⟩ | ⟨lambda, F, hF, rfl⟩ | ⟨e', he', rfl⟩
  · exact scoped_resolveType_initial hd ht htype
  · exact scoped_writtenSignature hd ht hF
  · -- the calls of both trees are the same, and so those of the first are plain as well
    have honly : OnlyCalls fun n => Infers Γ' d.value.calls n → n.plainCall = true := by
      intro n hn _
      cases n with
      | invocation type subject generics args => exact (hn _ _ _ _ rfl).elim
      | literal | reference | access | function | declaration | conditional | list | choice => rfl
    have hagree := agree_checkTerm honly d.value (refines_checkTerm hle _ _ _ _ _ he') hcheck
    have hrecords := scoped_checkTerm hd ht (by simp)
      (fun n hn hinfers => hagree.1 hplain n hn (hinfers.mono hle)) he'
    exact (scoping hd ht file pending).records_ty hrecords

end Check

end UnionChecker
