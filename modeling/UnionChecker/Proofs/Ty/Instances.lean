import UnionChecker.Proofs.Ty.Equivalence
import UnionChecker.Proofs.Ty.Inference
/-!
# Inference from instances

An argument whose type is an instance of the parameter shows the type of the generic wherever the
parameter mentions it. All places say the same, so merging them never fails, and the inference finds
what was put in (`says_resolve`). A parameter that does not mention the generic says nothing about
it, whatever the argument is (`says_of_not_mentions`).
-/

namespace UnionChecker

namespace Ty

theorem containedIn_refl (t : Ty) : containedIn t t = true := by
  simp only [containedIn, List.all_eq_true, List.any_eq_true]
  exact fun m hm => ⟨m, hm, equal_refl m⟩

/-- What is said about a generic that stands for `t`: this type, or nothing. -/
def said (speaks : Bool) (t : Ty) : Option Ty := if speaks then some t else none

/-- The parameter and the argument say that `g` is `t` where the parameter mentions it, and nothing
otherwise. -/
def Says (g : String) (t parameter argument : Ty) : Prop :=
  infer g parameter argument = .ok (said (parameter.mentionsAny [g]) t)

end Ty

open Ty (said Says)

theorem mergeOptional_said (g : String) (t : Ty) (b c : Bool) :
    mergeOptional g (said b t) (said c t) = .ok (said (b || c) t) := by
  cases b <;> cases c <;>
    simp [said, mergeOptional, mergeInference, Ty.containedIn_refl, Except.map]

namespace Ty

variable {g : String} {t : Ty}

/-! ## Lists of parameters -/

theorem inferAll_said {ps as : List Ty} (b : Bool) (h : List.Forall₂ (Says g t) ps as) :
    inferAll g ps as (said b t) = .ok (said (b || ps.any (mentionsAny [g])) t) := by
  induction h generalizing b with
  | nil => simp [inferAll]
  | cons hp _ ih =>
    rw [inferAll, hp]
    simp only [bind, Except.bind, mergeOptional_said]
    rw [ih, List.any_cons, Bool.or_assoc]

theorem inferEach_none {a : Ty} : ∀ {ps : List Ty}, (∀ p ∈ ps, infer g p a = .ok none) →
    inferEach g ps a none = .ok none
  | [], _ => by simp [inferEach]
  | p :: ps, h => by
    rw [List.forall_mem_cons] at h
    rw [inferEach, h.1]
    exact inferEach_none h.2

/-! ## Types of one form -/

theorem says_named {decl decl' : Nominal} {ps as : List Ty} (href : decl.ref = decl'.ref)
    (h : List.Forall₂ (Says g t) ps as) : Says g t (.named decl ps) (.named decl' as) := by
  have hmerged := inferAll_said false h
  rw [Says, infer, if_pos (by simp [href, h.length_eq]), mentionsAny, mentionsAnyOf_eq_any]
  exact hmerged

theorem says_fn {gs gs' : List String} {ps as : List (String × Ty)} {r s : Ty} (hg : g ∉ gs)
    (h : List.Forall₂ (fun p a => Says g t p.2 a.2) ps as) (hr : Says g t r s) :
    Says g t (.fn gs ps r) (.fn gs' as s) := by
  have hmerged := inferAll_said false
    (show List.Forall₂ (Says g t) (ps.map (·.2)) (as.map (·.2)) by simpa using h)
  rw [Bool.false_or, List.any_map] at hmerged
  have hfree : ([g].filter fun x => !gs.contains x) = [g] := by simp [hg]
  rw [Says, infer, if_neg (by simpa using hg)]
  simp only [h.length_eq, BEq.rfl, if_true, mentionsAny, hfree, mentionsAnyOfParams_eq_any]
  rw [inferParams_eq, show inferAll g _ _ none = _ from hmerged, hr]
  exact mergeOptional_said g t _ _

/-- A function type says nothing about its own generics. -/
theorem infer_bound {gs : List String} {ps : List (String × Ty)} {r : Ty} (hg : g ∈ gs) (a : Ty) :
    infer g (.fn gs ps r) a = .ok none := by
  unfold infer
  exact if_pos (by simpa using hg)

/-! ## Parameters that do not mention the generic -/

theorem says_iff_of_not_mentions {p a : Ty} (h : p.mentionsAny [g] = false) :
    Says g t p a ↔ infer g p a = .ok none := by
  rw [Says, h]
  rfl

theorem says_of_not_mentions (p : Ty) : p.mentionsAny [g] = false → ∀ a : Ty, Says g t p a := by
  induction p with
  | var x =>
    intro h a
    have hne : x ≠ g := fun he => by simp [mentionsAny, he] at h
    simp [says_iff_of_not_mentions h, infer, hne]
  | named decl ps ih =>
    intro h a
    have hps : ∀ p ∈ ps, p.mentionsAny [g] = false := by
      simpa [mentionsAny, mentionsAnyOf_eq_any] using h
    cases a with
    | named decl' as =>
      by_cases hfits : decl.ref = decl'.ref ∧ ps.length = as.length
      · refine says_named hfits.1 (List.forall₂_iff_zip.2 ⟨hfits.2, fun {p a} hpa => ?_⟩)
        have hp := (List.of_mem_zip hpa).1
        exact ih p hp (hps p hp) a
      · rw [says_iff_of_not_mentions h, infer, if_neg (by simpa using hfits)]
    | _ => simp [says_iff_of_not_mentions h, infer]
  | fn gs ps r ihp ihr =>
    intro h a
    by_cases hg : g ∈ gs
    · exact (says_iff_of_not_mentions h).2 (infer_bound hg a)
    · have hparts : (∀ p ∈ ps, p.2.mentionsAny [g] = false) ∧ r.mentionsAny [g] = false := by
        rw [← Bool.not_eq_true, mentionsAny_fn] at h
        simpa [hg] using h
      cases a with
      | fn gs' as s =>
        by_cases hlength : ps.length = as.length
        · refine says_fn hg (List.forall₂_iff_zip.2 ⟨hlength, fun {p a} hpa => ?_⟩) (ihr hparts.2 s)
          have hp := (List.of_mem_zip hpa).1
          exact ihp p hp (hparts.1 p hp) a.2
        · rw [says_iff_of_not_mentions h, infer, if_neg (by simpa using hg),
            if_neg (by simpa using hlength)]
      | _ => simp [says_iff_of_not_mentions h, infer]
  | union ms ih =>
    intro h a
    have hms : ∀ m ∈ ms, m.mentionsAny [g] = false := by
      simpa [mentionsAny, mentionsAnyOf_eq_any] using h
    rw [says_iff_of_not_mentions h, infer]
    split
    · rfl
    · exact inferEach_none fun m hm =>
        (says_iff_of_not_mentions (hms m hm)).1 (ih m hm (hms m hm) _)

/-! ## Instances -/

/-- A type without unions. -/
inductive Unionless : Ty → Prop
  | var (x : String) : Unionless (.var x)
  | named {decl : Nominal} {args : List Ty} (h : ∀ t ∈ args, Unionless t) :
      Unionless (.named decl args)
  | fn {gs : List String} {ps : List (String × Ty)} {r : Ty} (hp : ∀ p ∈ ps, Unionless p.2)
      (hr : Unionless r) : Unionless (.fn gs ps r)

/-- An instance of a parameter says what was put in. -/
theorem says_resolve {p : Ty} (h : Unionless p) : Says g t p (p.resolve [(g, t)]) := by
  induction h with
  | var x =>
    by_cases hx : x = g
    · subst hx
      simp [Says, said, infer, resolve_var, mentionsAny]
    · exact says_of_not_mentions _ (by simp [mentionsAny, hx]) _
  | @named decl args _ ih =>
    rw [resolve_named]
    exact says_named rfl (List.forall₂_map_right_iff.2 (List.forall₂_same.2 ih))
  | @fn gs ps r _ _ ihp ihr =>
    by_cases hg : g ∈ gs
    · refine says_of_not_mentions _ (Bool.eq_false_iff.2 fun hm => ?_) _
      exact (mentionsAny_fn.1 hm).1 hg
    · have hkept : Substitution.without [(g, t)] gs = [(g, t)] := by
        simp [Substitution.without, hg]
      rw [resolve_fn, hkept]
      exact says_fn hg (List.forall₂_map_right_iff.2 (List.forall₂_same.2 ihp)) ihr

/-- **Inference inverts instantiation.** An instance of a parameter without unions shows what was
put in for a generic that the parameter mentions; and whatever the argument, a parameter that does
not mention the generic says nothing about it and never fails. -/
theorem infer_inverts_resolve (g : String) :
    (∀ p t : Ty, Unionless p →
      infer g p (p.resolve [(g, t)]) = .ok (if p.mentionsAny [g] then some t else none)) ∧
    ∀ p a : Ty, p.mentionsAny [g] = false → infer g p a = .ok none :=
  ⟨fun _ _ hp => says_resolve hp, fun p a hp =>
    (says_iff_of_not_mentions (t := .void) hp).1 (says_of_not_mentions p hp a)⟩

/-- Three places ask for `T`, a fourth one has a `T` of its own; and a union that mentions another
generic only. -/
theorem infer_inverts_resolve_shadowed :
    let identity := fn ["T"] [("x", .var "T")] (.var "T")
    let p := fn [] [("f", identity), ("xs", .list (.var "T")), ("y", .var "T")]
      (.list (.list (.var "T")))
    let t := union [.int, .string]
    infer "T" p (p.resolve [("T", t)]) = .ok (some t) ∧
      infer "T" (.union [identity, .list (.var "U")]) (.union [.int, .list .string]) =
        .ok none := by
  intro identity p t
  have hlist : ∀ u, Unionless u → Unionless (.list u) := fun u hu => .named (by simpa using hu)
  have hidentity : Unionless identity := .fn (by simp [Unionless.var]) (.var "T")
  have hp : Unionless p := by
    refine .fn ?_ (hlist _ (hlist _ (.var "T")))
    simp only [List.forall_mem_cons, List.not_mem_nil, false_implies, implies_true, and_true]
    exact ⟨hidentity, hlist _ (.var "T"), .var "T"⟩
  obtain ⟨hinstance, hsilent⟩ := infer_inverts_resolve "T"
  exact ⟨hinstance p t hp, hsilent _ _ rfl⟩

end Ty

end UnionChecker
