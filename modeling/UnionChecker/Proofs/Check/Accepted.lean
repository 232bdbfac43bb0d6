import UnionChecker.Proofs.Check.Invariant
import UnionChecker.Proofs.Coverage
/-!
# What is accepted

An invariant of the checker holds of all that is accepted, of every recorded type and of every node
(`Invariant.kept_checkTerm`). The proof goes along the runs of the checker, with one lemma for each of
its functions. A property of types alone is such an invariant (`TypeInvariant.records_checkTerm`), and
so is one of frames and nodes (`made_checkTerm`), which need not depend on frames at all
(`everywhere_checkTerm`).
-/

namespace UnionChecker

open Syntax

namespace Check

namespace Invariant

variable {Γ : Context} {I : Invariant Γ} {shape : List (List String)} {gs : List String}
  {frames frames' : Frames} {span : Span} {expected : Option Ty}

theorem asksAll_cons {e : TypedExpr} {es : List TypedExpr} :
    I.AsksAll (e :: es) ↔ e.Everywhere I.Asks ∧ I.AsksAll es :=
  List.forall_mem_cons

theorem acceptsAll_cons {e : TypedExpr} {es : List TypedExpr} :
    I.AcceptsAll gs (e :: es) ↔ I.Accepts gs e ∧ I.AcceptsAll gs es :=
  List.forall_mem_cons

theorem holds_wantedElements {element : Ty} (hwanted : I.Wanted gs expected)
    (h : element ∈ wantedElements expected) : I.Holds gs element := by
  obtain ⟨m, hm, helement⟩ := List.mem_filterMap.1 h
  cases expected with
  | none => cases hm
  | some wanted => exact I.element (I.member (hwanted wanted rfl) hm) helement

theorem mem_remaining_of_consume {c c' : Coverage} {arm m : Ty} (h : c.consume arm = .ok c')
    (hm : m ∈ c'.remaining) : m ∈ c.remaining := by
  obtain ⟨-, rfl⟩ := Coverage.consume_eq_ok.1 h
  exact (List.mem_filter.1 hm).1

/-- The nodes of a subject are nodes of the whole chain. -/
theorem everywhere_of_checkLinks {P : TypedExpr → Prop} : ∀ {links : List Link}
    {subject e : TypedExpr} {frames : Frames},
    Runs (checkLinks Γ links subject expected) frames e frames' → e.Everywhere P →
    subject.Everywhere P
  | [], _, _, _, hrun, he => by
    obtain ⟨rfl, _⟩ := runs_checkLinks_nil.1 hrun
    exact he
  | ⟨access, args, _⟩ :: links, _, _, _, hrun, he => by
    obtain ⟨accessed, called, inner, haccess, hcall, hrest⟩ := runs_checkLinks_cons hrun
    have hcalled := everywhere_of_checkLinks hrest he
    have haccessed : accessed.Everywhere P := by
      cases args with
      | none => exact hcall.1 ▸ hcalled
      | some args =>
        obtain ⟨generics, items, argsSpan⟩ := args
        obtain ⟨_, _, _, _, _, _, _, _, _, _, _, _, rfl⟩ := runs_checkCall.1 hcall
        exact (TypedExpr.everywhere_invocation.1 hcalled).2.1
    cases access with
    | none => exact haccess ▸ haccessed
    | some m =>
      obtain ⟨_, _, _, _, _, rfl, _⟩ := runs_member haccess
      exact (TypedExpr.everywhere_access.1 haccessed).2

/-- What a `when` reads is what its parts read. -/
theorem Reads.when {w : When} (h : I.Reads (Expr.when w).binders (Expr.when w).calls) :
    I.Reads w.subject.binders w.subject.calls ∧ I.Reads (armsBinders w.arms) (armsCalls w.arms) ∧
      ∀ o ∈ w.other, boundName o.name ⊆ I.names ∧
        I.Reads (termsBinders o.body) (termsCalls o.body) := by
  obtain ⟨hnames, hcalls⟩ := h
  obtain ⟨subject, arms, _ | ⟨name, body, _, _⟩, _⟩ := w <;>
    simp only [Expr.binders, Expr.calls, List.append_subset] at hnames hcalls
  · exact ⟨⟨hnames.1, hcalls.1⟩, ⟨hnames.2, hcalls.2⟩, by simp⟩
  · obtain ⟨⟨⟨hsubject, harms⟩, hname⟩, hbody⟩ := hnames
    refine ⟨⟨hsubject, hcalls.1.1⟩, ⟨harms, hcalls.1.2⟩, ?_⟩
    rintro _ ⟨⟩
    exact ⟨hname, hbody, hcalls.2⟩

/-! ## Along the checker -/

section

variable (I)

mutual

theorem kept_checkTerm : ∀ (t : Term) {expected : Option Ty} {shape : List (List String)}
    {frames frames' : Frames} {e : TypedExpr}, I.Reads t.binders t.calls → e.Everywhere I.Asks →
    I.Inside shape frames → I.Wanted shape.flatten expected →
    Runs (checkTerm Γ t expected) frames e frames' → I.Kept shape e frames' ∧ Fits e.ty expected
  | ⟨head, [], span⟩, _, _, _, _, _, ⟨hnames, hcalls⟩, hasks, h, hwanted, hrun => by
    rw [Term.binders, linksBinders, List.append_nil] at hnames
    rw [Term.calls, linksCalls, List.append_nil] at hcalls
    obtain ⟨hhead, hfits⟩ := runs_checkTerm_head.1 hrun
    exact ⟨kept_checkExpr head ⟨hnames, hcalls⟩ hasks hfits h hwanted hhead, hfits⟩
  | ⟨head, link :: links, span⟩, _, _, _, _, _, ⟨hnames, hcalls⟩, hasks, h, hwanted, hrun => by
    rw [Term.binders, List.append_subset] at hnames
    rw [Term.calls, List.append_subset] at hcalls
    obtain ⟨first, inner, hfirst, hlinks, hfits⟩ := runs_checkTerm_chain.1 hrun
    have hasksf := everywhere_of_checkLinks hlinks hasks
    obtain ⟨hfirst, hinner⟩ := kept_checkExpr head ⟨hnames.1, hcalls.1⟩ hasksf (fits_none _) h
      I.wanted_none hfirst
    exact ⟨kept_checkLinks (link :: links) ⟨hnames.2, hcalls.2⟩ hasks hfits hinner hfirst hwanted
      hlinks, hfits⟩

theorem kept_checkLinks : ∀ (links : List Link) {subject : TypedExpr} {expected : Option Ty}
    {shape : List (List String)} {frames frames' : Frames} {e : TypedExpr},
    I.Reads (linksBinders links) (linksCalls links) → e.Everywhere I.Asks → Fits e.ty expected →
    I.Inside shape frames → I.Accepts shape.flatten subject → I.Wanted shape.flatten expected →
    Runs (checkLinks Γ links subject expected) frames e frames' → I.Kept shape e frames'
  | [], _, _, _, _, _, _, _, _, _, h, hs, _, hrun => by
    obtain ⟨rfl, rfl⟩ := runs_checkLinks_nil.1 hrun
    exact ⟨hs, h⟩
  | ⟨access, args, span⟩ :: links, subject, expected, shape, _, _, e, ⟨hnames, hcalls⟩, hasks, hfits,
      h, hs, hwanted, hrun => by
    obtain ⟨accessed, called, inner, haccess, hcall, hrest⟩ := runs_checkLinks_cons hrun
    have hasksc := everywhere_of_checkLinks hrest hasks
    have haccessed : I.Accepts shape.flatten accessed := by
      cases access with
      | none => exact haccess ▸ hs
      | some m =>
        obtain ⟨decl, args, type, hdecl, hfield, rfl, _⟩ := runs_member haccess
        refine accepts_access ?_ hs
        cases hfields : Γ.table.fieldsOf decl args with
        | none =>
          rw [hfields] at hfield
          cases hfield
        | some fields =>
          rw [hfields] at hfield
          exact I.field (hdecl ▸ hs.holds) hfields hfield
    cases args with
    | none =>
      obtain ⟨rfl, rfl⟩ := hcall
      exact kept_checkLinks links ⟨hnames, hcalls⟩ hasks hfits h haccessed hwanted hrest
    | some args =>
      rw [linksBinders, List.append_subset] at hnames
      rw [linksCalls, List.append_subset] at hcalls
      have hreads : I.Reads args.binders args.calls := ⟨hnames.1, hcalls.1⟩
      have hcalled : I.Kept shape called inner := by
        cases links with
        | nil =>
          obtain ⟨rfl, _⟩ := runs_checkLinks_nil.1 hrest
          exact kept_checkCall args hreads hasksc hfits h haccessed hwanted hcall
        | cons =>
          exact kept_checkCall args hreads hasksc (fits_none _) h haccessed I.wanted_none hcall
      exact kept_checkLinks links ⟨hnames.2, hcalls.2⟩ hasks hfits hcalled.2 hcalled.1 hwanted hrest

theorem kept_checkCall : ∀ (args : Arguments) {subject : TypedExpr} {expected : Option Ty}
    {span : Span} {shape : List (List String)} {frames frames' : Frames} {e : TypedExpr},
    I.Reads args.binders args.calls → e.Everywhere I.Asks → Fits e.ty expected →
    I.Inside shape frames → I.Accepts shape.flatten subject → I.Wanted shape.flatten expected →
    Runs (checkCall Γ args subject expected span) frames e frames' → I.Kept shape e frames'
  | ⟨generics, items, argsSpan⟩, subject, expected, span, shape, frames, frames', _,
      ⟨hnames, hcalls⟩, hasks, hfits, h, hs, hwanted, hrun => by
    have hrun' := hrun
    rw [Arguments.binders] at hnames
    rw [Arguments.calls, List.cons_subset] at hcalls
    have hreads : I.Reads (itemsBinders items) (itemsCalls items) := ⟨hnames, hcalls.2⟩
    obtain ⟨F, given, σ, opened, args, types, hF, hlen, _, hgiven, hargs, htypes, rfl⟩ :=
      runs_checkCall.1 hrun
    obtain ⟨hcall, _, hasksa⟩ := TypedExpr.everywhere_invocation.1 hasks
    have hholds : I.Holds shape.flatten F.toTy := hF ▸ hs.holds
    obtain ⟨hwritten, hopened, hall⟩ := yields_explicitGenerics _ _ _ _ _ _ _ hgiven
    dsimp only at hwritten hopened
    have hgiven := TypeInvariant.images_explicitGenerics (I.writes h) hgiven
    obtain rfl := yields_callGenerics _ _ _ _ _ _ _ htypes
    have hcover : ∀ x ∈ F.generics, given.binds x = true ∨ x ∈ opened := fun x hx => by
      rw [hwritten, hopened]
      exact (hall x).1 hx
    cases hargs with
    | written hargs =>
      have hbound : ∀ x ∈ F.generics, given.binds x = true := fun x hx => by simpa using hcover x hx
      obtain ⟨hargs, hframes'⟩ := kept_checkArguments items hreads hasksa h
        (List.forall_mem_map.2 fun p hp => by
          obtain ⟨q, hq, rfl⟩ := List.mem_map.1 hp
          exact TypeInvariant.holds_instance [] ((I.fn.1 hholds).1 q hq) hgiven hcover) hargs
      exact ⟨accepts_call hs hF hgiven hbound hargs, hframes'⟩
    | @inferred _ early _ found collected inferred inner _ hne hearly hdeferred hcomplete hfit =>
      have hcall : I.Call F _ := hcall ⟨_, hcalls.1, F, subject, expected, span, frames, frames', hF,
        hopened ▸ hne, hrun'⟩ F hF
      have hparams : items.length = (F.paramTypes.map (·.resolve given)).length := by
        simpa [Signature.paramTypes] using hlen
      obtain ⟨hinferred, hwaits, hsame, hfits', -⟩ :=
        inferred_arguments hparams hearly hdeferred hcomplete
      replace hfits' := hfits' hfit
      have hopen : ∀ x ∈ opened, x ∈ F.generics := fun x hx => (hall x).2 (Or.inr (hopened ▸ hx))
      have hrecorded := TypeInvariant.given_recorded hwritten
        (fun x hx => hopened ▸ (hinferred x).1 hx) hall
      -- what an argument says about a generic holds, since the argument fits in the end
      have htelling := TypeInvariant.telling_params inferred hcall hholds hgiven hrecorded hcover hopen
      obtain ⟨hearly, hfound, hinner⟩ := kept_checkEarly items hreads (fun e he => by
          obtain ⟨arg, harg, heq⟩ := forall₂_mem_left hsame he
          exact heq e rfl ▸ hasksa arg harg) h htelling
        (forall₂_comp hsame hfits' fun _ _ _ _ _ _ hsame hfit e he => hsame e he ▸ hfit)
        TypeInvariant.images_nil hearly
      obtain ⟨hargs, hcollected, hframes'⟩ := kept_checkDeferred items hreads hasksa hinner htelling
        hwaits hearly hfits' hfound hdeferred
      have himages := TypeInvariant.images_completeInference (fun g hg wanted hw t ht => by
        rcases I.found hcall hrecorded (hopen g hg) List.mem_cons_self
          (Ty.found_of_infer _ ht) (hwanted wanted hw) with ht | hclash
        · exact ht
        · exact ((hclash.resolve _).not_isAssignable.1 (hfits wanted hw)).elim) hcollected hcomplete
      refine ⟨accepts_call hs hF (hgiven.extend himages) (fun x hx => ?_) hargs, hframes'⟩
      rw [TypeInvariant.binds_extend, hinferred]
      exact (hcover x hx).symm

theorem kept_checkArguments : ∀ (items : List Argument) {params : List Ty}
    {shape : List (List String)} {frames frames' : Frames} {args : List TypedExpr},
    I.Reads (itemsBinders items) (itemsCalls items) → I.AsksAll args → I.Inside shape frames →
    (∀ param ∈ params, I.Holds shape.flatten param) →
    Runs (checkArguments Γ items params) frames args frames' → I.KeptAll shape args frames'
  | [], _, _, _, _, _, _, _, h, _, hrun => by
    obtain ⟨rfl, rfl⟩ := (runs_checkArguments_nil (Or.inl rfl)).1 hrun
    exact ⟨acceptsAll_nil, h⟩
  | _ :: _, [], _, _, _, _, _, _, h, _, hrun => by
    obtain ⟨rfl, rfl⟩ := (runs_checkArguments_nil (Or.inr rfl)).1 hrun
    exact ⟨acceptsAll_nil, h⟩
  | ⟨_, value, _⟩ :: items, param :: params, _, _, _, _, ⟨hnames, hcalls⟩, hasks, h, hparams,
      hrun => by
    rw [itemsBinders, List.append_subset] at hnames
    rw [itemsCalls, List.append_subset] at hcalls
    obtain ⟨e, inner, rest, he, hrest, rfl⟩ := runs_checkArguments_cons hrun
    rw [asksAll_cons] at hasks
    rw [List.forall_mem_cons] at hparams
    obtain ⟨⟨he, hinner⟩, -⟩ := kept_checkTerm value ⟨hnames.1, hcalls.1⟩ hasks.1 h
      (I.wanted_some hparams.1) he
    obtain ⟨hrest, hframes'⟩ := kept_checkArguments items ⟨hnames.2, hcalls.2⟩ hasks.2 hinner
      hparams.2 hrest
    exact ⟨acceptsAll_cons.2 ⟨he, hrest⟩, hframes'⟩

theorem kept_checkEarly : ∀ (items : List Argument) {params : List Ty} {opened : List String}
    {inferred found τ : Substitution} {shape : List (List String)} {frames frames' : Frames}
    {early : List (Option TypedExpr)}, I.Reads (itemsBinders items) (itemsCalls items) →
    (∀ e, some e ∈ early → e.Everywhere I.Asks) → I.Inside shape frames →
    (∀ param ∈ params, I.Telling shape.flatten opened τ param) →
    List.Forall₂ (fun first param => ∀ e ∈ first, e.ty.isAssignable (param.resolve τ) = true) early
      params →
    I.Images shape.flatten inferred →
    Runs (checkEarly Γ items params opened inferred) frames (early, found) frames' →
    (∀ e, some e ∈ early → I.Accepts shape.flatten e) ∧ I.Images shape.flatten found ∧
      I.Inside shape frames'
  | [], _, _, _, _, _, _, _, _, _, _, _, h, _, _, hinferred, hrun => by
    obtain ⟨rfl, rfl, rfl⟩ := (runs_checkEarly_nil (Or.inl rfl)).1 hrun
    exact ⟨by simp, hinferred, h⟩
  | _ :: _, [], _, _, _, _, _, _, _, _, _, _, h, _, _, hinferred, hrun => by
    obtain ⟨rfl, rfl, rfl⟩ := (runs_checkEarly_nil (Or.inr rfl)).1 hrun
    exact ⟨by simp, hinferred, h⟩
  | ⟨_, value, _⟩ :: items, param :: params, opened, inferred, _, _, shape, _, _, _,
      ⟨hnames, hcalls⟩, hasks, h, hparams, hfits, hinferred, hrun => by
    rw [itemsBinders, List.append_subset] at hnames
    rw [itemsCalls, List.append_subset] at hcalls
    have hvalue : I.Reads value.binders value.calls := ⟨hnames.1, hcalls.1⟩
    obtain ⟨first, inferred', inner, rest, hfirst, hrest, rfl⟩ := runs_checkEarly_cons hrun
    rw [List.forall_mem_cons] at hparams
    obtain ⟨hparam, hparams⟩ := hparams
    cases hfits with
    | cons hfit hfits =>
    have hhead : (∀ e, first = some e → I.Accepts shape.flatten e) ∧
        I.Images shape.flatten inferred' ∧ I.Inside shape inner := by
      cases hfirst with
      | @closed e _ hclosed he =>
        have hwanted := I.wanted_some (I.drop hparam.holds hclosed)
        obtain ⟨⟨he, hinner⟩, -⟩ := kept_checkTerm value hvalue (hasks e (by simp)) h hwanted he
        exact ⟨by rintro _ ⟨⟩; exact he, hinferred, hinner⟩
      | waiting => exact ⟨by simp, hinferred, h⟩
      | @telling e _ _ _ _ he hinfer =>
        obtain ⟨⟨he, hinner⟩, -⟩ :=
          kept_checkTerm value hvalue (hasks e (by simp)) h I.wanted_none he
        have hlearns := learns_inferFromExpected (widens_inferFrom hinfer).1
        refine ⟨by rintro _ ⟨⟩; exact he, hinferred.learns hlearns fun g hg t ht => ?_, hinner⟩
        exact hparam.found g hg e.ty t ht he.holds (hfit e rfl)
    obtain ⟨hfirst, hinferred', hinner⟩ := hhead
    obtain ⟨hrest, hfound, hframes'⟩ := kept_checkEarly items ⟨hnames.2, hcalls.2⟩
      (fun e he => hasks e (List.mem_cons_of_mem _ he)) hinner hparams hfits hinferred' hrest
    refine ⟨fun e he => ?_, hfound, hframes'⟩
    rcases List.mem_cons.1 he with he | he
    · exact hfirst e he.symm
    · exact hrest e he

theorem kept_checkDeferred : ∀ (items : List Argument) {params : List Ty} {opened : List String}
    {early : List (Option TypedExpr)} {inferred found τ ρ : Substitution}
    {shape : List (List String)} {frames frames' : Frames} {args : List TypedExpr},
    I.Reads (itemsBinders items) (itemsCalls items) → I.AsksAll args → I.Inside shape frames →
    (∀ param ∈ params, I.Telling shape.flatten opened τ param) →
    Visited opened ρ items params early → (∀ e, some e ∈ early → I.Accepts shape.flatten e) →
    List.Forall₂ (fun arg param => arg.ty.isAssignable (param.resolve τ) = true) args params →
    I.Images shape.flatten inferred →
    Runs (checkDeferred Γ items params opened early inferred) frames (args, found) frames' →
    I.AcceptsAll shape.flatten args ∧ I.Images shape.flatten found ∧ I.Inside shape frames'
  | [], _, _, _, _, _, _, _, _, _, _, _, _, _, h, _, _, _, _, hinferred, hrun => by
    obtain ⟨rfl, rfl, rfl⟩ := (runs_checkDeferred_nil (Or.inl rfl)).1 hrun
    exact ⟨acceptsAll_nil, hinferred, h⟩
  | ⟨_, ⟨head, links, _⟩, _⟩ :: items, params, opened, early, inferred, _, τ, _, shape, _, _, _,
      ⟨hnames, hcalls⟩, hasks, h, hparams, hwaits, hearly, hfits, hinferred, hrun => by
    simp only [itemsBinders, Term.binders, List.append_subset] at hnames
    simp only [itemsCalls, Term.calls, List.append_subset] at hcalls
    have hhead : I.Reads head.binders head.calls := ⟨hnames.1.1, hcalls.1.1⟩
    have hitems : I.Reads (itemsBinders items) (itemsCalls items) := ⟨hnames.2, hcalls.2⟩
    cases hwaits with
    | @cons _ _ param params first early hfirst _ hwaits =>
    rw [List.forall_mem_cons] at hparams
    obtain ⟨hparam, hparams⟩ := hparams
    cases hfits with
    | @cons arg _ args _ hfit hfits =>
    rw [asksAll_cons] at hasks
    have hearly' : ∀ e, some e ∈ early → I.Accepts shape.flatten e :=
      fun e he => hearly e (List.mem_cons_of_mem _ he)
    cases first with
    | some e =>
      obtain ⟨rest, hrest, heq⟩ := runs_checkDeferred_early hrun
      cases heq
      obtain ⟨hrest, hfound, hframes'⟩ := kept_checkDeferred items hitems hasks.2 h hparams hwaits
        hearly' hfits hinferred hrest
      exact ⟨acceptsAll_cons.2 ⟨hearly arg (by simp), hrest⟩, hfound, hframes'⟩
    | none =>
      obtain ⟨e, inner, inferred', rest, he, hinfer, hrest, heq⟩ := runs_checkDeferred_waiting hrun
      cases heq
      have hkept : I.Kept shape arg inner := by
        cases head with
        | lambda lambda =>
          cases he with
          | shaped heq hshape hf =>
            cases heq
            obtain ⟨hplain, hfn⟩ := hfirst rfl
            refine kept_checkLambda lambda hhead hasks.1 h (fun s hs => ?_) hf
            cases hs
            exact TypeInvariant.shaped_waiting hplain hfn hparam.holds hinferred hshape hf hfit
          | plain _ he =>
            exact kept_checkExpr _ hhead hasks.1 (fits_none _) h I.wanted_none he
        | _ =>
          cases he with
          | shaped heq => cases heq
          | plain _ he => exact kept_checkExpr _ hhead hasks.1 (fits_none _) h I.wanted_none he
      have hlearns := learns_inferFromExpected (widens_inferFrom hinfer).1
      have hinferred' := hinferred.learns hlearns fun g hg t ht =>
        hparam.found g hg arg.ty t ht hkept.1.holds hfit
      obtain ⟨hrest, hfound, hframes'⟩ := kept_checkDeferred items hitems hasks.2 hkept.2 hparams
        hwaits hearly' hfits hinferred' hrest
      exact ⟨acceptsAll_cons.2 ⟨hkept.1, hrest⟩, hfound, hframes'⟩

theorem kept_checkExpr : ∀ (head : Expr) {expected : Option Ty} {shape : List (List String)}
    {frames frames' : Frames} {e : TypedExpr}, I.Reads head.binders head.calls →
    e.Everywhere I.Asks → Fits e.ty expected → I.Inside shape frames →
    I.Wanted shape.flatten expected → Runs (checkExpr Γ head expected) frames e frames' →
    I.Kept shape e frames'
  | .literal value span, _, _, _, _, _, _, _, _, h, _, hrun => by
    obtain ⟨rfl, rfl⟩ := runs_checkExpr_literal.1 hrun
    exact ⟨accepts_literal, h⟩
  | .reference name none span, _, _, _, _, _, _, _, _, h, _, hrun => by
    obtain ⟨found, hfound, rfl, rfl⟩ := runs_identifier.1 (runs_checkExpr_reference.1 hrun)
    exact ⟨accepts_reference h hfound, h⟩
  | .reference name (some args) span, _, _, _, _, _, hreads, hasks, hfits, h, hwanted, hrun => by
    obtain ⟨subject, hsubject, hcall⟩ := runs_checkExpr_call.1 hrun
    obtain ⟨found, hfound, rfl, _⟩ := runs_identifier.1 hsubject
    exact kept_checkCall args hreads hasks hfits h (accepts_reference h hfound) hwanted hcall
  | .lambda lambda, _, _, _, _, _, hreads, hasks, _, h, hwanted, hrun => by
    obtain ⟨s, f, hs, hf, rfl⟩ := runs_checkExpr_lambda.1 hrun
    refine kept_checkLambda lambda hreads hasks h (fun s' hs' => ?_) hf
    rcases hs with ⟨_, rfl⟩ | ⟨wanted, s, rfl, rfl, hs⟩
    · cases hs'
    · cases hs'
      exact TypeInvariant.shaped_expectedShape (hwanted wanted rfl) hs
  | .declaration ⟨name, some type, _, value, _⟩, _, _, _, _, _, ⟨hnames, hcalls⟩, hasks, _, h, _,
      hrun => by
    have hvalue := List.Subset.trans (Declaration.value_binders_subset _) hnames
    obtain ⟨ty, bound, v, hname, hty, hbound, hv, rfl⟩ := runs_checkExpr_annotated.1 hrun
    have hty := I.writes h _ _ hty
    obtain ⟨_, hasksv⟩ := TypedExpr.everywhere_declaration.1 hasks
    obtain ⟨⟨hv, hframes'⟩, -⟩ := kept_checkTerm value ⟨hvalue, hcalls⟩ hasksv
      (I.defineValue h hty hbound) (I.wanted_some hty) hv
    exact ⟨accepts_declaration (not_or.2 hname) hv, hframes'⟩
  | .declaration ⟨name, none, _, value, _⟩, _, _, _, _, _, ⟨hnames, hcalls⟩, hasks, _, h, _,
      hrun => by
    have hvalue := List.Subset.trans (Declaration.value_binders_subset _) hnames
    obtain ⟨inner, v, hname, hv, hbound, rfl⟩ := runs_checkExpr_declaration.1 hrun
    obtain ⟨_, hasksv⟩ := TypedExpr.everywhere_declaration.1 hasks
    obtain ⟨⟨hv, hinner⟩, -⟩ := kept_checkTerm value ⟨hvalue, hcalls⟩ hasksv h I.wanted_none hv
    exact ⟨accepts_declaration (not_or.2 hname) hv, I.defineValue hinner hv.holds hbound⟩
  | .conditional ⟨condition, thenBlock, elseIfs, elseBlock, span⟩, _, _, _, _, _, ⟨hnames, hcalls⟩,
      hasks, _, h, hwanted, hrun => by
    simp only [Expr.binders, List.append_subset] at hnames
    simp only [Expr.calls, List.append_subset] at hcalls
    obtain ⟨⟨⟨hnamesc, hnamest⟩, hnamesb⟩, hnamese⟩ := hnames
    obtain ⟨⟨⟨hcallsc, hcallst⟩, hcallsb⟩, hcallse⟩ := hcalls
    refine (kept_conditionalOf h hwanted hasks (runs_checkExpr_conditional.1 hrun)
      (fun _ _ hasksc hc => kept_checkTerm condition ⟨hnamesc, hcallsc⟩ hasksc h
        (I.wanted_some (I.literal _ (.bool true))) hc)
      (fun _ _ _ hinner haskst hts => (kept_blockOf hinner hts
        (kept_checkStatements thenBlock ⟨hnamest, hcallst⟩ haskst hinner hwanted)).1)
      (fun _ _ _ hinner haskse hes => kept_checkElse elseIfs ⟨hnamesb, hcallsb⟩ haskse hinner hwanted
        (fun _ _ _ _ hinner haskse hes => ?_) hes)).1
    exact (kept_blockOf hinner hes
      (kept_checkStatements elseBlock ⟨hnamese, hcallse⟩ haskse hinner hwanted)).imp_right
        fun hnil hempty => hnil (by simpa using hempty)
  | .list [] items span, expected, _, _, _, _, hreads, hasks, _, h, hwanted, hrun => by
    rcases runs_checkExpr_list.1 hrun with ⟨element, es, helement, hes, rfl⟩ | ⟨es, _, _, hes, rfl⟩
    · have helement := holds_wantedElements hwanted (by rw [helement]; exact List.mem_singleton_self _)
      obtain ⟨_, haskss⟩ := TypedExpr.everywhere_list.1 hasks
      obtain ⟨⟨hes, hframes'⟩, hfits⟩ :=
        kept_checkItems items hreads haskss h (I.wanted_some helement) hes
      exact ⟨accepts_list helement (fun item hi => fits_some.1 (hfits item hi)) hes, hframes'⟩
    · obtain ⟨_, haskss⟩ := TypedExpr.everywhere_list.1 hasks
      obtain ⟨⟨hes, hframes'⟩, -⟩ := kept_checkItems items hreads haskss h I.wanted_none hes
      refine ⟨accepts_list ?_ wellTyped_list hes, hframes'⟩
      cases hfind : (wantedElements expected).find? (Ty.join (es.map TypedExpr.ty)).containedIn with
      | none => exact I.join (List.forall_mem_map.2 fun e he => (hes e he).holds)
      | some element => exact holds_wantedElements hwanted (List.mem_of_find?_eq_some hfind)
  | .list [type] items span, _, _, _, _, _, hreads, hasks, _, h, _, hrun => by
    obtain ⟨element, es, helement, hes, rfl⟩ := runs_checkExpr_list_of.1 hrun
    have helement := I.writes h _ _ helement
    obtain ⟨_, haskss⟩ := TypedExpr.everywhere_list.1 hasks
    obtain ⟨⟨hes, hframes'⟩, hfits⟩ :=
      kept_checkItems items hreads haskss h (I.wanted_some helement) hes
    exact ⟨accepts_list helement (fun item hi => fits_some.1 (hfits item hi)) hes, hframes'⟩
  | .list (_ :: _ :: _) items span, _, _, _, _, _, _, _, _, _, _, hrun =>
    (not_runs_checkExpr_list_many hrun).elim
  | .when ⟨subject, arms, other, span⟩, expected, shape, _, frames', _, hreads, hasks, _, h, hwanted,
      hrun => by
    obtain ⟨s, cases, otherBlock, coverage, final, inner, inner', hs, harms, hother, hfinal, rfl⟩ :=
      runs_checkExpr_when.1 hrun
    obtain ⟨_, haskss, hasksc, haskso⟩ := TypedExpr.everywhere_choice.1 hasks
    obtain ⟨hsubject, harmsReads, hotherReads⟩ := hreads.when
    obtain ⟨⟨hs, hinner⟩, -⟩ := kept_checkTerm subject hsubject haskss h I.wanted_none hs
    obtain ⟨hcases, hcoverage, hcover, hinner'⟩ := kept_checkArms arms harmsReads
      (fun c hc => hasksc c (mem_sortOrdered.2 hc)) hinner hwanted
      (fun m hm => I.member hs.holds hm) harms
    -- an absent `other` arm leaves nothing to cover
    have hblock : (otherBlock = none → final = coverage) ∧
        boundName (other.bind (·.name)) ⊆ I.names ∧
        (∀ block ∈ otherBlock, I.AcceptsAll shape.flatten block ∧ Fits (blockType block) expected) ∧
        I.Inside shape frames' := by
      cases hother with
      | none => exact ⟨fun _ => rfl, List.nil_subset _, by simp, hinner'⟩
      | @some name body span origin block _ hbody =>
        obtain ⟨hname, hbodyReads⟩ := hotherReads _ rfl
        obtain ⟨⟨hblock, hframes'⟩, hfits⟩ := kept_armBody hinner' (I.join hcoverage) hbody
          fun _ _ hbound hbody => (kept_blockOf hbound hbody
            (kept_checkStatements body hbodyReads (haskso _ rfl) hbound hwanted)).1
        exact ⟨by simp, hname, by rintro _ ⟨⟩; exact ⟨hblock, hfits⟩, hframes'⟩
    obtain ⟨hsame, hname, hblock, hframes'⟩ := hblock
    refine ⟨accepts_choice hwanted hs (fun c hc => hcases c (mem_sortOrdered.1 hc)) hblock hname
      fun hnone m hm => ?_, hframes'⟩
    obtain rfl := hsame hnone
    rcases hcover m hm with hm | ⟨c, hc, hequal⟩
    · rw [Coverage.remaining_of_missing hfinal] at hm
      cases hm
    · exact ⟨c, mem_sortOrdered.2 hc, hequal⟩

theorem kept_checkLambda : ∀ (lambda : Lambda) {s : Option Shape} {shape : List (List String)}
    {frames frames' : Frames} {f : TypedFunction}, I.Reads lambda.binders lambda.calls →
    (TypedExpr.function f).Everywhere I.Asks → I.Inside shape frames →
    (∀ s' ∈ s, I.Shaped (lambda.generics.map (·.text) ++ shape.flatten) s') →
    Runs (checkLambda Γ lambda s) frames f frames' → I.Kept shape (.function f) frames'
  | ⟨generics, params, result, body, span⟩, _, _, _, _, _, ⟨hnames, hcalls⟩, hasks, h, hs, hrun => by
    rw [Lambda.binders, List.append_subset] at hnames
    obtain ⟨types, wanted, entered, block, inner, hbody, hentered, hblock, rfl, rfl⟩ :=
      runs_checkLambda.1 hrun
    obtain ⟨htypes, hwanted, hentered⟩ := kept_enterLambda h hs hentered
    obtain ⟨_, hasksb⟩ := TypedExpr.everywhere_function.1 hasks
    obtain ⟨⟨hblock, hinner⟩, hfits⟩ := kept_checkStatements body ⟨hnames.2, hcalls⟩ hasksb hentered
      hwanted hblock
    obtain ⟨hne, hfits⟩ := hfits hbody
    refine ⟨accepts_function (I.fn.2 ⟨htypes, hwanted.getD fun _ => hblock.holds⟩) hnames.1
      ⟨hne, hfits.getD fun _ => Ty.isAssignable_refl _⟩ hblock, I.pop h hinner⟩

theorem kept_checkStatements : ∀ (ts : List Term) {expected : Option Ty}
    {shape : List (List String)} {frames frames' : Frames} {es : List TypedExpr},
    I.Reads (termsBinders ts) (termsCalls ts) → I.AsksAll es → I.Inside shape frames →
    I.Wanted shape.flatten expected → Runs (checkStatements Γ ts expected) frames es frames' →
    I.KeptAll shape es frames' ∧ (ts ≠ [] → es ≠ [] ∧ Fits (blockType es) expected)
  | [], _, _, _, _, _, _, _, h, _, hrun => by
    obtain ⟨rfl, rfl⟩ := runs_checkStatements_nil.1 hrun
    exact ⟨⟨acceptsAll_nil, h⟩, fun hne => (hne rfl).elim⟩
  | t :: ts, _, _, _, _, _, ⟨hnames, hcalls⟩, hasks, h, hwanted, hrun => by
    rw [termsBinders, List.append_subset] at hnames
    rw [termsCalls, List.append_subset] at hcalls
    obtain ⟨e, inner, rest, he, hrestrun, rfl⟩ := runs_checkStatements_cons.1 hrun
    rw [asksAll_cons] at hasks
    obtain ⟨⟨he, hinner⟩, hfits⟩ := kept_checkTerm t ⟨hnames.1, hcalls.1⟩ hasks.1 h
      (by split <;> simp_all [TypeInvariant.Wanted]) he
    obtain ⟨⟨hrest, hframes'⟩, hlast⟩ := kept_checkStatements ts ⟨hnames.2, hcalls.2⟩ hasks.2 hinner
      hwanted hrestrun
    refine ⟨⟨acceptsAll_cons.2 ⟨he, hrest⟩, hframes'⟩, fun _ => ⟨by simp, ?_⟩⟩
    cases ts with
    | nil =>
      obtain ⟨rfl, -⟩ := runs_checkStatements_nil.1 hrestrun
      exact hfits
    | cons u ts =>
      obtain ⟨hne, hlast⟩ := hlast (by simp)
      rwa [blockType_cons hne]

theorem kept_checkItems : ∀ (ts : List Term) {expected : Option Ty} {shape : List (List String)}
    {frames frames' : Frames} {es : List TypedExpr}, I.Reads (termsBinders ts) (termsCalls ts) →
    I.AsksAll es → I.Inside shape frames → I.Wanted shape.flatten expected →
    Runs (checkItems Γ ts expected) frames es frames' →
    I.KeptAll shape es frames' ∧ ∀ e ∈ es, Fits e.ty expected
  | [], _, _, _, _, _, _, _, h, _, hrun => by
    obtain ⟨rfl, rfl⟩ := runs_checkItems_nil.1 hrun
    exact ⟨⟨acceptsAll_nil, h⟩, by simp⟩
  | t :: ts, _, _, _, _, _, ⟨hnames, hcalls⟩, hasks, h, hwanted, hrun => by
    rw [termsBinders, List.append_subset] at hnames
    rw [termsCalls, List.append_subset] at hcalls
    obtain ⟨e, inner, rest, he, hrest, rfl⟩ := runs_checkItems_cons.1 hrun
    rw [asksAll_cons] at hasks
    obtain ⟨⟨he, hinner⟩, hfits⟩ := kept_checkTerm t ⟨hnames.1, hcalls.1⟩ hasks.1 h hwanted he
    obtain ⟨⟨hrest, hframes'⟩, hfitsr⟩ := kept_checkItems ts ⟨hnames.2, hcalls.2⟩ hasks.2 hinner
      hwanted hrest
    exact ⟨⟨acceptsAll_cons.2 ⟨he, hrest⟩, hframes'⟩, List.forall_mem_cons.2 ⟨hfits, hfitsr⟩⟩

theorem kept_checkElse : ∀ (branches : List ElseIf) {hasElse : Bool} {expected : Option Ty}
    {span : Span} {elseBlock : Span → Check (List TypedExpr)} {shape : List (List String)}
    {frames frames' : Frames} {es : List TypedExpr},
    I.Reads (elseIfsBinders branches) (elseIfsCalls branches) → I.AsksAll es →
    I.Inside shape frames → I.Wanted shape.flatten expected →
    (∀ span inner es inner', I.Inside ([] :: shape) inner → I.AsksAll es →
      Runs (elseBlock span) inner es inner' → I.KeptBlock ([] :: shape) expected es inner' ∧
        (hasElse = false → es = [])) →
    Runs (checkElse Γ branches hasElse expected span elseBlock) frames es frames' →
    I.KeptBlock shape expected es frames' ∧ ((!branches.isEmpty || hasElse) = false → es = [])
  | [], _, _, _, _, _, _, _, _, _, hasks, h, _, helse, hrun => by
    obtain ⟨inner, hes, rfl⟩ := runs_checkElse_nil.1 hrun
    obtain ⟨⟨hes, hfits⟩, hnil⟩ := helse _ _ _ _ (I.push h) hasks hes
    exact ⟨⟨hes.leave h, hfits⟩, hnil⟩
  | ⟨condition, thenBlock, span⟩ :: branches, _, _, _, _, _, _, _, _, ⟨hnames, hcalls⟩, hasks, h,
      hwanted, helse, hrun => by
    simp only [elseIfsBinders, List.append_subset] at hnames
    simp only [elseIfsCalls, List.append_subset] at hcalls
    obtain ⟨⟨hnamesc, hnamest⟩, hnamesb⟩ := hnames
    obtain ⟨⟨hcallsc, hcallst⟩, hcallsb⟩ := hcalls
    obtain ⟨e, he, rfl⟩ := runs_checkElse_cons.1 hrun
    obtain ⟨⟨he, hframes'⟩, hfits⟩ := kept_conditionalOf h hwanted (hasks e (by simp)) he
      (fun _ _ hasksc hc => kept_checkTerm condition ⟨hnamesc, hcallsc⟩ hasksc h
        (I.wanted_some (I.literal _ (.bool true))) hc)
      (fun _ _ _ hinner haskst hts => (kept_blockOf hinner hts
        (kept_checkStatements thenBlock ⟨hnamest, hcallst⟩ haskst hinner hwanted)).1)
      (fun _ _ _ hinner haskse hes => kept_checkElse branches ⟨hnamesb, hcallsb⟩ haskse hinner hwanted
        helse hes)
    exact ⟨⟨⟨List.forall_mem_singleton.2 he, hframes'⟩, hfits⟩, by simp⟩

theorem kept_checkArms : ∀ (arms : List Arm) {coverage final : Coverage} {expected : Option Ty}
    {shape : List (List String)} {frames frames' : Frames} {cases : List TypedCase},
    I.Reads (armsBinders arms) (armsCalls arms) → (∀ c ∈ cases, I.AsksAll c.block) →
    I.Inside shape frames → I.Wanted shape.flatten expected →
    (∀ m ∈ coverage.remaining, I.Holds shape.flatten m) →
    Runs (checkArms Γ arms coverage expected) frames (cases, final) frames' →
    (∀ c ∈ cases, I.KeptCase shape.flatten expected c) ∧
      (∀ m ∈ final.remaining, I.Holds shape.flatten m) ∧
      (∀ m ∈ coverage.remaining, m ∈ final.remaining ∨
        ∃ c ∈ cases, ∃ n ∈ c.type.members, m.equal n = true) ∧ I.Inside shape frames'
  | [], _, _, _, _, _, _, _, _, _, h, _, hcoverage, hrun => by
    obtain ⟨rfl, rfl, rfl⟩ := runs_checkArms_nil.1 hrun
    exact ⟨by simp, hcoverage, fun m hm => .inl hm, h⟩
  | ⟨name, type, body, span, origin⟩ :: arms, _, _, _, _, _, _, _, ⟨hnames, hcalls⟩, hasks, h,
      hwanted, hcoverage, hrun => by
    simp only [armsBinders, List.append_subset] at hnames
    rw [armsCalls, List.append_subset] at hcalls
    obtain ⟨t, test, consumed, block, inner, rest, ht, htest, hconsumed, hblock, hrest, rfl⟩ :=
      runs_checkArms_cons.1 hrun
    rw [List.forall_mem_cons] at hasks
    have ht := I.writes h _ _ ht
    obtain ⟨⟨hblock, hinner⟩, hfits⟩ := kept_armBody h ht hblock fun _ _ hbound hbody =>
      (kept_blockOf hbound hbody
        (kept_checkStatements body ⟨hnames.1.2, hcalls.1⟩ hasks.1 hbound hwanted)).1
    obtain ⟨hrest, hfinal, hcover, hframes'⟩ := kept_checkArms arms ⟨hnames.2, hcalls.2⟩ hasks.2
      hinner hwanted (fun m hm => hcoverage m (mem_remaining_of_consume hconsumed hm)) hrest
    refine ⟨List.forall_mem_cons.2 ⟨⟨ht, htest, hnames.1.1, hblock, hfits⟩, hrest⟩, hfinal,
      fun m hm => ?_, hframes'⟩
    rcases Coverage.mem_remaining_consume hconsumed hm with hm | ⟨n, hn, he⟩
    · exact (hcover m hm).imp_right fun ⟨c, hc, h⟩ => ⟨c, List.mem_cons_of_mem _ hc, h⟩
    · exact .inr ⟨_, List.mem_cons_self, n, hn, he⟩

end

end

end Invariant

/-! ## Properties of types -/

variable {Γ : Context} {t : Term} {expected : Option Ty} {frames frames' : Frames} {e : TypedExpr}

/-- A property of types, for the names and the calls of a term. -/
def TypeInvariant.invariant (I : TypeInvariant Γ) (t : Term) : Invariant Γ where
  toTypeInvariant := I
  Inside := I.Framed
  Node _ := True
  names := t.binders
  calls := t.calls
  push h := h.push
  pop h hinner := h.pop hinner
  defineValue h ht hdef := h.defineValue ht hdef
  defineGeneric h hx hdef := h.defineGeneric hx hdef
  writes h _ _ ht := h.holds_written ht
  reference h hfound := ⟨h.holds_value hfound, trivial⟩
  node _ _ := trivial

/-- The types that are recorded in an accepted term have the property, if the calls with inferred
generics are as it asks. -/
theorem TypeInvariant.records_checkTerm (I : TypeInvariant Γ)
    (hcalls : e.Everywhere fun n => Infers Γ t.calls n → I.CallOk n) (hexpected : I.Wanted [] expected)
    (hrun : Runs (checkTerm Γ t expected) .initial e frames) : e.Records I.Holds [] :=
  ((I.invariant t).kept_checkTerm t ⟨List.Subset.refl _, List.Subset.refl _⟩ hcalls
    (show I.Framed [[]] .initial from .initial) hexpected hrun).1.1.records

end Check

/-! ## Properties of nodes -/

/-- Frames of a kind that the checker keeps to: locals and generics may be defined, and frames entered
and left. -/
structure Frames.Closed (I : Frames → Prop) : Prop where
  value : ∀ {frames frames' : Frames} {name : String} {ty : Ty}, I frames →
    frames.defineValue name ty = some frames' → I frames'
  generic : ∀ {frames frames' : Frames} {name : String}, I frames →
    frames.defineGeneric name = some frames' → I frames'
  push : ∀ {frames : Frames}, I frames → I frames.push
  pop : ∀ {frames : Frames}, I frames → I frames.pop

theorem Frames.closed_true : Frames.Closed fun _ => True :=
  ⟨fun _ _ => trivial, fun _ _ => trivial, fun _ => trivial, fun _ => trivial⟩

namespace Check

variable {Γ : Context} {t : Term} {expected : Option Ty} {frames frames' : Frames} {e : TypedExpr}

/-- A property that the checker gives to every node, as long as it keeps to kinds of frames and the
source binds given names only: variables have it that a name refers to in such frames, and so have all
other nodes that are sound. -/
structure Makes (Γ : Context) (K : Frames → Prop) (names : List String)
    (P : TypedExpr → Prop) : Prop where
  frames : Frames.Closed K
  reference : ∀ {frames : Frames} {name : String} {found : Resolved}, K frames →
    Γ.resolveValue frames name = .ok found → P (.reference found.type found.package found.name)
  node : ∀ {e : TypedExpr}, e.isReference = false → e.Sound Γ.table.matchFields names → P e

/-- The property of types that all of them have. -/
def anyType (Γ : Context) : TypeInvariant Γ where
  Holds _ _ := True
  Call _ _ := True
  mono _ _ := trivial
  var _ := trivial
  literal _ _ := trivial
  list _ := trivial
  element _ _ := trivial
  fn := by simp
  member _ _ := trivial
  join _ := trivial
  resolve _ _ _ := trivial
  drop _ _ := trivial
  written _ := trivial
  value _ := trivial
  field _ _ _ := trivial
  found _ _ _ _ _ _ := .inl trivial

theorem anyType_callOk : (anyType Γ).CallOk e := by
  cases e with
  | invocation => exact fun _ _ => trivial
  | literal | reference | access | function | declaration | conditional | list | choice => trivial

variable {K : Frames → Prop} {names : List String} {P : TypedExpr → Prop}

/-- A property of frames and nodes. -/
def Makes.invariant (h : Makes Γ K names P) (calls : List Arguments) : Invariant Γ where
  toTypeInvariant := anyType Γ
  Inside _ := K
  Node := P
  names := names
  calls := calls
  push := h.frames.push
  pop _ := h.frames.pop
  defineValue hframes _ hdef := h.frames.value hframes hdef
  defineGeneric hframes _ hdef := h.frames.generic hframes hdef
  writes _ _ _ _ := trivial
  reference hframes hfound := ⟨trivial, h.reference hframes hfound⟩
  node := h.node

theorem made_checkTerm (h : Makes Γ K names P) (hnames : t.binders ⊆ names) (hframes : K frames)
    (hrun : Runs (checkTerm Γ t expected) frames e frames') :
    (e.Everywhere P ∧ Fits e.ty expected) ∧ K frames' := by
  obtain ⟨⟨he, hframes'⟩, hfits⟩ := (h.invariant t.calls).kept_checkTerm t
    ⟨hnames, List.Subset.refl _⟩ (fun _ _ _ => anyType_callOk)
    (show (h.invariant t.calls).Inside [] frames from hframes) (fun _ _ => trivial) hrun
  exact ⟨⟨he.nodes, hfits⟩, hframes'⟩

/-- A property that the checker gives to every node: those that are no variables and no choices have
it, variables have it that a name in scope refers to, and choices as they should be. -/
structure Builds (Γ : Context) (P : TypedExpr → Prop) : Prop where
  plain : ∀ e : TypedExpr, e.isPlain = true → P e
  reference : ∀ (frames : Frames) (name : String) (found : Resolved),
    Γ.resolveValue frames name = .ok found →
    P (.reference found.type found.package found.name)
  choice : ∀ (type : Ty) (subject : TypedExpr) (cases : List TypedCase)
    (other : Option (List TypedExpr)) (name : Option String),
    (TypedExpr.choice type subject cases other name).ChoiceOk Γ.table.matchFields →
    P (.choice type subject cases other name)

theorem builds_choiceOk (Γ : Context) : Builds Γ (TypedExpr.ChoiceOk Γ.table.matchFields) where
  plain e he := by cases e <;> first | exact trivial | cases he
  reference _ _ _ _ := trivial
  choice _ _ _ _ _ h := h

theorem Builds.makes (h : Builds Γ P) (names : List String) :
    Makes Γ (fun _ => True) names P where
  frames := Frames.closed_true
  reference _ hfound := h.reference _ _ _ hfound
  node {e} href hsound := by
    cases e with
    | reference => cases href
    | choice => exact h.choice _ _ _ _ _ hsound.choice
    | _ => exact h.plain _ rfl

theorem everywhere_checkTerm (hP : Builds Γ P) (t : Term) (expected : Option Ty) :
    Yields (checkTerm Γ t expected) (TypedExpr.Everywhere P) :=
  fun _ _ _ hrun => (made_checkTerm (hP.makes t.binders) (List.Subset.refl _) trivial hrun).1.1

end Check

end UnionChecker
