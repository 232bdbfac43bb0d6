import UnionChecker.Proofs.Check.Inversion
import UnionChecker.Proofs.Program.Recorded
import UnionChecker.Proofs.Ty.Scoped
/-!
# Properties of types that the checker keeps

A `TypeInvariant` is a property of types, relative to the generics in scope, that is kept by every
operation by which the checker makes types. Of inferred types it may ask something of the call, and
that the argument can fit the parameter at all.

In frames where it holds of the types of locals (`Framed`), it holds of whatever is written or
referred to, and of what a lambda declares.
-/

namespace UnionChecker.Check

open Syntax

/-- The generics in scope. -/
def scope (frames : Frames) : List String := frames.flatMap (·.generics)

/-- The element of a list type is one of its generics. -/
theorem exists_of_listElement? {t u : Ty} (h : t.listElement? = some u) :
    ∃ decl args, t = .named decl args ∧ u ∈ args := by
  cases t with
  | named decl args =>
    simp only [Ty.listElement?] at h
    split at h
    · exact ⟨decl, args, rfl, List.mem_of_mem_head? h⟩
    · cases h
  | var | fn | union => cases h

/-- A property of types that the checker keeps. -/
structure TypeInvariant (Γ : Context) where
  /-- The property, relative to the generics in scope. -/
  Holds : List String → Ty → Prop
  /-- What is asked of calls: of the signature of the callee and the recorded generics. -/
  Call : Signature → List Ty → Prop
  mono {gs hs : List String} {t : Ty} : Holds gs t → (∀ x ∈ gs, x ∈ hs) → Holds hs t
  var {gs : List String} {x : String} : x ∈ gs → Holds gs (.var x)
  literal (gs : List String) (value : Literal) : Holds gs (literalType value)
  list {gs : List String} {t : Ty} : Holds gs t → Holds gs (.list t)
  element {gs : List String} {t u : Ty} : Holds gs t → t.listElement? = some u → Holds gs u
  fn {gs bound : List String} {ps : List (String × Ty)} {r : Ty} :
    Holds gs (.fn bound ps r) ↔ (∀ p ∈ ps, Holds (bound ++ gs) p.2) ∧ Holds (bound ++ gs) r
  member {gs : List String} {t m : Ty} : Holds gs t → m ∈ t.members → Holds gs m
  join {gs : List String} {ts : List Ty} : (∀ t ∈ ts, Holds gs t) → Holds gs (.join ts)
  resolve {gs hs : List String} {t : Ty} {σ : Substitution} : Holds hs t →
    (∀ x u, σ.lookup x = some u → Holds gs u) → (∀ x ∈ hs, σ.lookup x = none → x ∈ gs) →
    Holds gs (t.resolve σ)
  drop {names gs : List String} {t : Ty} : Holds (names ++ gs) t → t.mentionsAny names = false →
    Holds gs t
  written {frames : Frames} {type : TypeExpr} {t : Ty} : Γ.resolveType frames [] type = .ok t →
    Holds (scope frames) t
  value {name : String} {found : Resolved} : Γ.resolveValue [] name = .ok found →
    Holds [] found.type
  field {gs : List String} {decl : Nominal} {args : List Ty} {fields : List (String × Ty)}
    {name : String} {t : Ty} : Holds gs (.named decl args) →
    Γ.table.fieldsOf decl args = some fields → fields.lookup name = some t → Holds gs t
  /-- What inference finds in an argument, the written generics having been put into the parameter.
  The result of the callee is the parameter for what is wanted. -/
  found {gs : List String} {F : Signature} {types : List Ty} {given : Substitution} {g : String}
    {p a t : Ty} : Call F types →
    (F.generics.Nodup → ∀ x u, given.lookup x = some u → x ∈ F.generics ∧ u ∈ types) →
    g ∈ F.generics → p ∈ F.result :: F.paramTypes → Ty.Found g (p.resolve given) a t →
    Holds gs a → Holds gs t ∨ Ty.Clash p a

namespace TypeInvariant

variable {Γ : Context} (I : TypeInvariant Γ) {shape : List (List String)} {gs : List String}
  {frames frames' : Frames} {span : Span} {expected : Option Ty}

/-- What is asked of the nodes of a tree. -/
def CallOk : TypedExpr → Prop
  | .invocation _ subject generics _ => ∀ F : Signature, subject.ty = F.toTy → I.Call F generics
  | _ => True

/-- The property holds of what is wanted. -/
def Wanted (gs : List String) (expected : Option Ty) : Prop := ∀ t ∈ expected, I.Holds gs t

theorem wanted_none : I.Wanted gs none := by simp [Wanted]

theorem wanted_some {t : Ty} (h : I.Holds gs t) : I.Wanted gs (some t) := by
  rintro _ ⟨⟩
  exact h

theorem Wanted.getD {I : TypeInvariant Γ} {t : Ty} (h : I.Wanted gs expected)
    (ht : expected = none → I.Holds gs t) : I.Holds gs (expected.getD t) := by
  cases expected with
  | none => exact ht rfl
  | some wanted => exact h wanted rfl

/-- The property holds of what a substitution puts in. -/
def Images (gs : List String) (σ : Substitution) : Prop := ∀ x u, σ.lookup x = some u → I.Holds gs u

theorem void_holds : I.Holds gs .void := I.literal gs .null

theorem records_ty {e : TypedExpr} (h : e.Records I.Holds gs) : I.Holds gs e.ty := by
  cases e with
  | literal => exact TypedExpr.records_literal.1 h
  | reference => exact TypedExpr.records_reference.1 h
  | access => exact (TypedExpr.records_access.1 h).1
  | invocation => exact (TypedExpr.records_invocation.1 h).1
  | function => exact (TypedExpr.records_function.1 h).1
  | declaration => exact I.void_holds
  | conditional => exact (TypedExpr.records_conditional.1 h).1
  | list => exact I.list (TypedExpr.records_list.1 h).1
  | choice => exact (TypedExpr.records_choice.1 h).1

theorem recordsAll_blockType {es : List TypedExpr} (h : TypedExpr.RecordsAll I.Holds gs es) :
    I.Holds gs (blockType es) := by
  unfold blockType
  cases hlast : es.getLast? with
  | none => exact I.void_holds
  | some e => exact I.records_ty (h e (List.mem_of_getLast? hlast))

/-! ## Frames -/

/-- The frames with the generics that are in scope in each of them, the innermost first. The property
holds of the types of locals. -/
inductive Framed : List (List String) → Frames → Prop
  | last {gs : List String} {frame : Frame} (hgs : ∀ x ∈ frame.generics, x ∈ gs)
      (hvalues : ∀ v ∈ frame.values, I.Holds gs v.2) : Framed [gs] [frame]
  | cons {gs : List String} {frame : Frame} {shape : List (List String)} {frames : Frames}
      (hgs : ∀ x ∈ frame.generics, x ∈ gs)
      (hvalues : ∀ v ∈ frame.values, I.Holds (gs ++ shape.flatten) v.2) (h : Framed shape frames) :
      Framed (gs :: shape) (frame :: frames)

namespace Framed

variable {I} {name : String} {t : Ty}

/-- The initial scope has no generics. -/
theorem initial : I.Framed [[]] .initial := .last (by simp) (by simp)

theorem push (h : I.Framed shape frames) : I.Framed (gs :: shape) frames.push :=
  .cons (by simp) (by simp) h

theorem pop (h : I.Framed shape frames') (hinner : I.Framed (gs :: shape) frames) :
    I.Framed shape frames.pop := by
  cases hinner with
  | last => cases h
  | cons _ _ hinner =>
    cases hinner with
    | last hgs hvalues => exact .last hgs hvalues
    | cons hgs hvalues hinner => exact .cons hgs hvalues hinner

theorem defineValue (h : I.Framed shape frames) (ht : I.Holds shape.flatten t)
    (hdef : frames.defineValue name t = some frames') : I.Framed shape frames' := by
  have hput : ∀ {values : List (String × Ty)}, (∀ v ∈ values, I.Holds shape.flatten v.2) →
      ∀ v ∈ put name t values, I.Holds shape.flatten v.2 := by
    intro values hvalues v hv
    rcases List.mem_cons.1 hv with rfl | hv
    · exact ht
    · exact hvalues v (List.mem_filter.1 hv).1
  unfold Frames.defineValue at hdef
  split at hdef
  · cases hdef
    exact h
  · split at hdef
    · cases hdef
    · cases hdef
      cases h with
      | last hgs hvalues => exact .last hgs (by simpa using hput (by simpa using hvalues))
      | cons hgs hvalues h => exact .cons hgs (hput hvalues) h

theorem defineGeneric (h : I.Framed (gs :: shape) frames) (hx : name ∈ gs)
    (hdef : frames.defineGeneric name = some frames') : I.Framed (gs :: shape) frames' := by
  unfold Frames.defineGeneric at hdef
  split at hdef
  · cases hdef
  · cases hdef
    cases h with
    | last hgs hvalues => exact .last (List.forall_mem_cons.2 ⟨hx, hgs⟩) hvalues
    | cons hgs hvalues h => exact .cons (List.forall_mem_cons.2 ⟨hx, hgs⟩) hvalues h

theorem scope_subset (h : I.Framed shape frames) : ∀ x ∈ scope frames, x ∈ shape.flatten := by
  induction h with
  | last hgs => simpa [scope] using hgs
  | cons hgs _ _ ih =>
    intro x hx
    rw [scope, List.flatMap_cons, List.mem_append] at hx
    rw [List.flatten_cons, List.mem_append]
    exact hx.imp (hgs x) (ih x)

theorem holds_local (h : I.Framed shape frames) (hv : frames.value? name = some t) :
    I.Holds shape.flatten t := by
  induction h with
  | @last _ frame _ hvalues =>
    have hl : frame.values.lookup name = some t := by simpa [Frames.value?] using hv
    simpa using hvalues _ (mem_of_lookup_eq_some hl)
  | @cons _ frame _ _ _ hvalues _ ih =>
    rw [Frames.value?, List.findSome?_cons] at hv
    cases hl : frame.values.lookup name with
    | some u =>
      rw [hl] at hv
      cases hv
      exact hvalues _ (mem_of_lookup_eq_some hl)
    | none =>
      rw [hl] at hv
      exact I.mono (ih hv) fun x hx => List.mem_append_right _ hx

theorem holds_value {found : Resolved} (h : I.Framed shape frames)
    (hfound : Γ.resolveValue frames name = .ok found) : I.Holds shape.flatten found.type := by
  cases hv : frames.value? name with
  | some t =>
    rw [Context.resolveValue, hv] at hfound
    cases hfound
    exact h.holds_local hv
  | none =>
    rw [Context.resolveValue, hv] at hfound
    exact I.mono (I.value (show Γ.resolveValue [] name = .ok found from hfound)) (by simp)

theorem holds_written {type : TypeExpr} (h : I.Framed shape frames)
    (ht : Γ.resolveType frames [] type = .ok t) : I.Holds shape.flatten t :=
  I.mono (I.written ht) h.scope_subset

end Framed

/-! ## The types of a lambda -/

/-- The property holds of the types that may be written in the frames. -/
def Writes (gs : List String) (frames : Frames) : Prop :=
  ∀ type t, Γ.resolveType frames [] type = .ok t → I.Holds gs t

/-- The property holds of a shape. -/
def Shaped (gs : List String) (s : Shape) : Prop :=
  (∀ t ∈ s.params, I.Holds gs t) ∧ I.Wanted gs s.result

variable {I}

theorem holds_resolveOptional {type : Option TypeExpr} {t : Option Ty}
    (h : I.Writes gs frames) (hrun : Runs (resolveOptional Γ type) frames t frames') :
    I.Wanted gs t := by
  cases type with
  | none =>
    obtain ⟨rfl, _⟩ := runs_pure.1 hrun
    exact I.wanted_none
  | some type =>
    simp only [resolveOptional, runs_bind, runs_resolve, runs_pure] at hrun
    obtain ⟨t, _, ⟨ht, rfl⟩, rfl, _⟩ := hrun
    exact I.wanted_some (h _ _ ht)

theorem holds_paramType {index : Nat} {param : Parameter} {wanted : Option Ty} {t : Ty}
    (h : I.Writes gs frames) (hwanted : I.Wanted gs wanted)
    (hrun : Runs (paramType Γ index param wanted) frames t frames') : I.Holds gs t := by
  obtain ⟨written, hwritten, ht, -⟩ := runs_paramType.1 hrun
  rcases Option.or_eq_some_iff.1 ht with ht | ⟨-, ht⟩
  · exact holds_resolveOptional h hwritten t ht
  · exact hwanted t ht

theorem holds_paramTypes : ∀ {params : List Parameter} {index : Nat} {wanted : List Ty}
    {types : List (String × Ty)}, I.Writes gs frames → (∀ t ∈ wanted, I.Holds gs t) →
    Runs (paramTypes Γ index params wanted) frames types frames →
    ∀ p ∈ types, I.Holds gs p.2
  | [], _, _, _, _, _, hrun => by
    obtain ⟨rfl, _⟩ := runs_pure.1 hrun
    simp
  | param :: params, index, wanted, _, h, hwanted, hrun => by
    obtain ⟨type, types, htype, htypes, rfl⟩ := runs_paramTypes_cons.1 hrun
    refine List.forall_mem_cons.2 ⟨holds_paramType h ?_ htype, ?_⟩
    · exact fun t ht => hwanted t (List.mem_of_mem_head? ht)
    · exact holds_paramTypes h (fun t ht => hwanted t (List.mem_of_mem_tail ht)) htypes

theorem wanted_resultType {result : Option TypeExpr} {s : Option Shape} {wanted : Option Ty}
    (h : I.Writes gs frames) (hs : ∀ s' ∈ s, I.Shaped gs s')
    (hrun : Runs (resultType Γ result s span) frames wanted frames') :
    I.Wanted gs wanted := by
  obtain ⟨written, hwritten, -, rfl, -⟩ := runs_resultType.1 hrun
  intro t ht
  rcases Option.or_eq_some_iff.1 ht with ht | ⟨-, ht⟩
  · exact holds_resolveOptional h hwritten t ht
  · obtain ⟨s', hs', ht⟩ := Option.bind_eq_some_iff.1 ht
    exact (hs s' hs').2 t ht

end TypeInvariant

end UnionChecker.Check
