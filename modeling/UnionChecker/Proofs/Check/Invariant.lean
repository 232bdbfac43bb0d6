import UnionChecker.Proofs.Check.CallTypes
import UnionChecker.Proofs.Program.Sound
/-!
# What the checker keeps

An `Invariant` is a property of types, of frames and of nodes. Types have it as far as operations on
types go (`TypeInvariant`). Frames have it when locals and generics are defined in them, and when they
are entered and left. The types that are written in such frames have it, and the variables that a name
refers to, and so have all other nodes that are sound.

Of calls with open generics it may ask more (`Invariant.Asks`). With all generics written, nothing is
inferred and nothing is asked.
-/

namespace UnionChecker.Check

open Syntax

/-- A call among the given ones, with generics that are not written, is checked to the node. -/
def Infers (Γ : Context) (calls : List Arguments) (n : TypedExpr) : Prop :=
  ∃ args ∈ calls, ∃ (F : Signature) (subject : TypedExpr) (expected : Option Ty) (span : Span)
    (frames frames' : Frames), subject.ty = F.toTy ∧ openGenerics F.generics args.generics ≠ [] ∧
      Runs (checkCall Γ args subject expected span) frames n frames'

theorem Infers.exists_call {Γ : Context} {calls : List Arguments} {type : Ty} {subject : TypedExpr}
    {generics : List Ty} {args : List TypedExpr}
    (h : Infers Γ calls (.invocation type subject generics args)) :
    ∃ call ∈ calls, ∃ F : Signature, subject.ty = F.toTy ∧
      openGenerics F.generics call.generics ≠ [] ∧ call.items.length = F.params.length := by
  obtain ⟨⟨written, items, argsSpan⟩, hcall, F, subject', _, _, _, _, hF, hopen, hrun⟩ := h
  obtain ⟨F', _, _, _, _, _, hF', hlength, -, -, -, -, heq⟩ := runs_checkCall.1 hrun
  obtain ⟨-, rfl, -, -⟩ := TypedExpr.invocation.inj heq
  obtain rfl : F = F' := by
    obtain ⟨generics, params, result⟩ := F
    obtain ⟨generics', params', result'⟩ := F'
    obtain ⟨rfl, rfl, rfl⟩ := Ty.fn.inj (hF.symm.trans hF')
    rfl
  exact ⟨_, hcall, F, hF, hopen, hlength⟩

/-- A property that the checker keeps. -/
structure Invariant (Γ : Context) extends TypeInvariant Γ where
  /-- What holds of frames, with the generics that are in scope in each of them. -/
  Inside : List (List String) → Frames → Prop
  /-- What holds of nodes. -/
  Node : TypedExpr → Prop
  /-- The names that the source may bind. -/
  names : List String
  /-- The calls that the source may have. -/
  calls : List Arguments
  push {shape : List (List String)} {gs : List String} {frames : Frames} :
    Inside shape frames → Inside (gs :: shape) frames.push
  pop {shape : List (List String)} {gs : List String} {frames frames' : Frames} :
    Inside shape frames → Inside (gs :: shape) frames' → Inside shape frames'.pop
  defineValue {shape : List (List String)} {frames frames' : Frames} {name : String} {t : Ty} :
    Inside shape frames → Holds shape.flatten t → frames.defineValue name t = some frames' →
    Inside shape frames'
  defineGeneric {shape : List (List String)} {gs : List String} {frames frames' : Frames}
    {name : String} : Inside (gs :: shape) frames → name ∈ gs →
    frames.defineGeneric name = some frames' → Inside (gs :: shape) frames'
  writes {shape : List (List String)} {frames : Frames} : Inside shape frames →
    toTypeInvariant.Writes shape.flatten frames
  reference {shape : List (List String)} {frames : Frames} {name : String} {found : Resolved} :
    Inside shape frames → Γ.resolveValue frames name = .ok found →
    Holds shape.flatten found.type ∧ Node (.reference found.type found.package found.name)
  node {e : TypedExpr} : e.isReference = false → e.Sound Γ.table.matchFields names → Node e

namespace Invariant

variable {Γ : Context} (I : Invariant Γ) {shape : List (List String)} {gs : List String}
  {frames frames' : Frames} {span : Span} {expected : Option Ty}

/-- What is asked of nodes. -/
def Asks (n : TypedExpr) : Prop := Infers Γ I.calls n → I.CallOk n

/-- What is asked of a block. -/
def AsksAll (es : List TypedExpr) : Prop := ∀ e ∈ es, e.Everywhere I.Asks

/-- What the source may be like. -/
structure Reads (names : List String) (calls : List Arguments) : Prop where
  names : names ⊆ I.names
  calls : calls ⊆ I.calls

/-- The invariant holds of an expression: of all types that it records, and of all its nodes. -/
structure Accepts (gs : List String) (e : TypedExpr) : Prop where
  records : e.Records I.Holds gs
  nodes : e.Everywhere I.Node

/-- The invariant holds of a block. -/
def AcceptsAll (gs : List String) (es : List TypedExpr) : Prop := ∀ e ∈ es, I.Accepts gs e

/-- What a check of an expression comes to. -/
def Kept (shape : List (List String)) (e : TypedExpr) (frames : Frames) : Prop :=
  I.Accepts shape.flatten e ∧ I.Inside shape frames

/-- What a check of a block comes to. -/
def KeptAll (shape : List (List String)) (es : List TypedExpr) (frames : Frames) : Prop :=
  I.AcceptsAll shape.flatten es ∧ I.Inside shape frames

/-- What a check of a block comes to that has to yield what is wanted. -/
def KeptBlock (shape : List (List String)) (expected : Option Ty) (es : List TypedExpr)
    (frames : Frames) : Prop :=
  I.KeptAll shape es frames ∧ Fits (blockType es) expected

variable {I}

/-! ## Nodes -/

theorem AcceptsAll.records {es : List TypedExpr} (h : I.AcceptsAll gs es) :
    TypedExpr.RecordsAll I.Holds gs es := fun e he => (h e he).records

theorem AcceptsAll.nodes {es : List TypedExpr} (h : I.AcceptsAll gs es) :
    ∀ e ∈ es, e.Everywhere I.Node := fun e he => (h e he).nodes

theorem acceptsAll_nil : I.AcceptsAll gs [] := fun _ he => by cases he

theorem Accepts.holds {e : TypedExpr} (h : I.Accepts gs e) : I.Holds gs e.ty :=
  I.records_ty h.records

theorem AcceptsAll.holds {es : List TypedExpr} (h : I.AcceptsAll gs es) :
    I.Holds gs (blockType es) := I.recordsAll_blockType h.records

theorem accepts_literal {value : Literal} : I.Accepts gs (.literal value (literalType value)) where
  records := TypedExpr.records_literal.2 (I.literal gs value)
  nodes := TypedExpr.everywhere_literal.2 (I.node rfl ⟨trivial, List.nil_subset _, trivial⟩)

theorem accepts_access {type : Ty} {subject : TypedExpr} {field : String} (htype : I.Holds gs type)
    (hs : I.Accepts gs subject) : I.Accepts gs (.access type subject field) where
  records := TypedExpr.records_access.2 ⟨htype, hs.records⟩
  nodes := TypedExpr.everywhere_access.2
    ⟨I.node rfl ⟨trivial, List.nil_subset _, trivial⟩, hs.nodes⟩

/-- A call at generics that have the property. -/
theorem accepts_call {F : Signature} {σ : Substitution} {subject : TypedExpr}
    {args : List TypedExpr} (hs : I.Accepts gs subject) (hF : subject.ty = F.toTy)
    (hσ : I.Images gs σ) (hall : ∀ x ∈ F.generics, σ.binds x = true) (hargs : I.AcceptsAll gs args) :
    I.Accepts gs (.invocation (F.result.resolve σ) subject
      (F.generics.map fun g => (σ.lookup g).getD (.var g)) args) where
  records := TypeInvariant.records_call hs.records hF hσ hall hargs.records
  nodes := TypedExpr.everywhere_invocation.2
    ⟨I.node rfl ⟨trivial, List.nil_subset _, trivial⟩, hs.nodes, hargs.nodes⟩

theorem accepts_function {f : TypedFunction} (hsignature : I.Holds gs f.signature.toTy)
    (hparams : f.params ⊆ I.names) (htyped : (TypedExpr.function f).WellTyped)
    (hblock : I.AcceptsAll (f.signature.generics ++ gs) f.block) :
    I.Accepts gs (.function f) where
  records := TypedExpr.records_function.2 ⟨hsignature, hblock.records⟩
  nodes := TypedExpr.everywhere_function.2 ⟨I.node rfl ⟨trivial, hparams, htyped⟩, hblock.nodes⟩

theorem accepts_declaration {name : String} {value : TypedExpr} (hname : ¬ Reserved name)
    (hvalue : I.Accepts gs value) : I.Accepts gs (.declaration name value) where
  records := TypedExpr.records_declaration.2 hvalue.records
  nodes := TypedExpr.everywhere_declaration.2 ⟨I.node rfl ⟨trivial, hname, trivial⟩, hvalue.nodes⟩

theorem accepts_conditional {type : Ty} {condition : TypedExpr}
    {thenBlock elseBlock : List TypedExpr} (htype : I.Holds gs type)
    (htyped : (TypedExpr.conditional type condition thenBlock elseBlock).WellTyped)
    (hcondition : I.Accepts gs condition) (hthen : I.AcceptsAll gs thenBlock)
    (helse : I.AcceptsAll gs elseBlock) :
    I.Accepts gs (.conditional type condition thenBlock elseBlock) where
  records := TypedExpr.records_conditional.2
    ⟨htype, hcondition.records, hthen.records, helse.records⟩
  nodes := TypedExpr.everywhere_conditional.2
    ⟨I.node rfl ⟨trivial, List.nil_subset _, htyped⟩, hcondition.nodes, hthen.nodes, helse.nodes⟩

theorem accepts_list {element : Ty} {items : List TypedExpr} (helement : I.Holds gs element)
    (htyped : (TypedExpr.list element items).WellTyped) (hitems : I.AcceptsAll gs items) :
    I.Accepts gs (.list element items) where
  records := TypedExpr.records_list.2 ⟨helement, hitems.records⟩
  nodes := TypedExpr.everywhere_list.2
    ⟨I.node rfl ⟨trivial, List.nil_subset _, htyped⟩, hitems.nodes⟩

variable (I) in
/-- What a check of an arm comes to: the test is the one for the type, the name is a given one, and
the block yields what is wanted. -/
structure KeptCase (gs : List String) (expected : Option Ty) (c : TypedCase) : Prop where
  holds : I.Holds gs c.type
  test : Discriminator.ofTy Γ.table.matchFields c.type = .ok c.test
  name : c.name.toList ⊆ I.names
  block : I.AcceptsAll gs c.block
  fits : Fits (blockType c.block) expected

theorem accepts_choice {subject : TypedExpr} {cases : List TypedCase}
    {other : Option (List TypedExpr)} {otherName : Option String} (hwanted : I.Wanted gs expected)
    (hs : I.Accepts gs subject) (hcases : ∀ c ∈ cases, I.KeptCase gs expected c)
    (hother : ∀ block ∈ other, I.AcceptsAll gs block ∧ Fits (blockType block) expected)
    (hname : otherName.toList ⊆ I.names)
    (hcover : other = none → ∀ m ∈ subject.ty.members,
      ∃ c ∈ cases, ∃ n ∈ c.type.members, m.equal n = true) :
    I.Accepts gs (.choice (choiceType expected cases other) subject cases other otherName) where
  records := by
    refine TypedExpr.records_choice.2 ⟨hwanted.getD fun _ => I.join fun t ht => ?_, hs.records,
      fun c hc => ⟨(hcases c hc).holds, (hcases c hc).block.records⟩,
      fun block hb => (hother block hb).1.records⟩
    rcases List.mem_append.1 ht with ht | ht
    · obtain ⟨c, hc, rfl⟩ := List.mem_map.1 ht
      exact (hcases c hc).block.holds
    · obtain ⟨block, hb, rfl⟩ := List.mem_map.1 ht
      exact (hother block (by simpa using hb)).1.holds
  nodes := by
    have hbinds : cases.flatMap (·.name.toList) ⊆ I.names := fun x hx => by
      obtain ⟨c, hc, hx⟩ := List.mem_flatMap.1 hx
      exact (hcases c hc).name hx
    refine TypedExpr.everywhere_choice.2 ⟨I.node rfl ⟨⟨fun c hc => (hcases c hc).test, hcover⟩,
      List.append_subset.2 ⟨hbinds, hname⟩, ?_⟩, hs.nodes, fun c hc => (hcases c hc).block.nodes,
      fun block hb => (hother block hb).1.nodes⟩
    exact wellTyped_choice (fun c hc => (hcases c hc).fits) fun block hb => (hother block hb).2

/-! ## Frames -/

theorem inside_bindOptional {name : Option Name} {t : Ty} (h : I.Inside shape frames)
    (ht : I.Holds shape.flatten t) (hdef : bindOptional frames name t = some frames') :
    I.Inside shape frames' := by
  cases name with
  | none => cases hdef; exact h
  | some name => exact I.defineValue h ht hdef

theorem accepts_reference {name : String} {found : Resolved} (h : I.Inside shape frames)
    (hfound : Γ.resolveValue frames name = .ok found) :
    I.Accepts shape.flatten (.reference found.type found.package found.name) where
  records := TypedExpr.records_reference.2 (I.reference h hfound).1
  nodes := TypedExpr.everywhere_reference.2 (I.reference h hfound).2

theorem inside_defineGenerics : ∀ {names : List Name} {frames : Frames},
    I.Inside (gs :: shape) frames → (∀ n ∈ names, n.text ∈ gs) →
    Runs (defineGenerics Γ names) frames () frames' → I.Inside (gs :: shape) frames'
  | [], _, h, _, hrun => (runs_pure.1 hrun).2 ▸ h
  | name :: names, _, h, hnames, hrun => by
    rw [defineGenerics, runs_bind] at hrun
    obtain ⟨_, inner, hdef, hrest⟩ := hrun
    rw [List.forall_mem_cons] at hnames
    exact inside_defineGenerics (I.defineGeneric h hnames.1 (runs_defineGeneric.1 hdef)) hnames.2
      hrest

theorem inside_defineParams : ∀ {params : List Parameter} {types : List (String × Ty)}
    {frames : Frames}, I.Inside shape frames → (∀ p ∈ types, I.Holds shape.flatten p.2) →
    Runs (defineParams Γ params types) frames () frames' → I.Inside shape frames'
  | [], _, _, h, _, hrun => (runs_pure.1 hrun).2 ▸ h
  | _ :: _, [], _, h, _, hrun => (runs_pure.1 hrun).2 ▸ h
  | param :: params, type :: types, _, h, htypes, hrun => by
    rw [defineParams, runs_bind] at hrun
    obtain ⟨_, inner, hdef, hrest⟩ := hrun
    rw [List.forall_mem_cons] at htypes
    exact inside_defineParams (I.defineValue h htypes.1 (runs_define.1 hdef)) htypes.2 hrest

theorem kept_enterLambda {generics : List Name} {params : List Parameter} {result : Option TypeExpr}
    {s : Option Shape} {types : List (String × Ty)} {wanted : Option Ty}
    (h : I.Inside shape frames)
    (hs : ∀ s' ∈ s, I.Shaped (generics.map (·.text) ++ shape.flatten) s')
    (hrun : Runs (enterLambda Γ generics params result s span) frames.push (types, wanted) frames') :
    (∀ p ∈ types, I.Holds (generics.map (·.text) ++ shape.flatten) p.2) ∧
      I.Wanted (generics.map (·.text) ++ shape.flatten) wanted ∧
      I.Inside (generics.map (·.text) :: shape) frames' := by
  obtain ⟨inner, hgenerics, _, htypes, hresult, hparams⟩ := runs_enterLambda.1 hrun
  have hinner : I.Inside (generics.map (·.text) :: shape) inner :=
    inside_defineGenerics (I.push h) (fun n hn => List.mem_map_of_mem hn) hgenerics
  have htypes := TypeInvariant.holds_paramTypes (I.writes hinner) (fun t ht => ?_) htypes
  · exact ⟨htypes, TypeInvariant.wanted_resultType (I.writes hinner) hs hresult,
      inside_defineParams hinner htypes hparams⟩
  · cases s with
    | none => cases ht
    | some s => exact (hs s rfl).1 t ht

/-! ## Parts of expressions -/

theorem KeptAll.leave {es : List TypedExpr} (h : I.KeptAll ([] :: shape) es frames')
    (houter : I.Inside shape frames) : I.KeptAll shape es frames'.pop :=
  ⟨h.1, I.pop houter h.2⟩

theorem kept_blockOf {block : List Term} {statements : Check (List TypedExpr)}
    {es : List TypedExpr} (h : I.Inside shape frames)
    (hrun : Runs (blockOf Γ block expected span statements) frames es frames')
    (hstatements : Runs statements frames es frames' → I.KeptAll shape es frames' ∧
      (block ≠ [] → es ≠ [] ∧ Fits (blockType es) expected)) :
    I.KeptBlock shape expected es frames' ∧ (block = [] → es = []) := by
  rcases runs_blockOf.1 hrun with ⟨-, hfits, rfl, rfl⟩ | ⟨hne, hrun⟩
  · exact ⟨⟨⟨acceptsAll_nil, h⟩, hfits⟩, fun _ => rfl⟩
  · obtain ⟨hes, hfits⟩ := hstatements hrun
    exact ⟨⟨hes, (hfits hne).2⟩, fun hnil => (hne hnil).elim⟩

theorem kept_armBody {name : Option Name} {type : Ty} {origin : Origin}
    {body : Check (List TypedExpr)} {block : List TypedExpr} (h : I.Inside shape frames)
    (htype : I.Holds shape.flatten type)
    (hrun : Runs (armBody Γ name type origin body) frames block frames')
    (hbody : ∀ inner inner', I.Inside ([] :: shape) inner → Runs body inner block inner' →
      I.KeptBlock ([] :: shape) expected block inner') : I.KeptBlock shape expected block frames' := by
  obtain ⟨bound, inner, hbound, hblock, rfl⟩ := runs_armBody.1 hrun
  obtain ⟨hblock, hfits⟩ := hbody _ _ (inside_bindOptional (I.push h) htype hbound) hblock
  exact ⟨hblock.leave h, hfits⟩

theorem kept_conditionalOf {hasElse : Bool} {condition : Check TypedExpr}
    {thenBlock elseBlock : Check (List TypedExpr)} {e : TypedExpr} (h : I.Inside shape frames)
    (hwanted : I.Wanted shape.flatten expected) (hasks : e.Everywhere I.Asks)
    (hrun : Runs (conditionalOf Γ hasElse expected span condition thenBlock elseBlock) frames e
      frames')
    (hcondition : ∀ inner c, c.Everywhere I.Asks → Runs condition frames c inner →
      I.Kept shape c inner ∧ Fits c.ty (some .boolean))
    (hthen : ∀ inner ts inner', I.Inside ([] :: shape) inner → I.AsksAll ts →
      Runs thenBlock inner ts inner' → I.KeptBlock ([] :: shape) expected ts inner')
    (helse : ∀ inner es inner', I.Inside shape inner → I.AsksAll es →
      Runs elseBlock inner es inner' → I.KeptBlock shape expected es inner' ∧
        (hasElse = false → es = [])) :
    I.Kept shape e frames' ∧ Fits e.ty expected := by
  obtain ⟨c, ts, es, decided, inner, hc, -, hts, hes, rfl⟩ := runs_conditionalOf.1 hrun
  obtain ⟨-, hasksc, haskst, haskse⟩ := TypedExpr.everywhere_conditional.1 hasks
  obtain ⟨⟨hc, hdecided⟩, hboolean⟩ := hcondition _ _ hasksc hc
  obtain ⟨hts, htsfits⟩ := hthen _ _ _ (I.push hdecided) haskst hts
  obtain ⟨hts, hinner⟩ := hts.leave h
  obtain ⟨⟨⟨hes, hframes'⟩, hesfits⟩, hnil⟩ := helse _ _ _ hinner haskse hes
  refine ⟨⟨accepts_conditional (hwanted.getD fun _ => ?_)
    (wellTyped_conditional hboolean htsfits hesfits hnil) hc hts hes, hframes'⟩,
    conditionalType_fits⟩
  split
  · refine I.join (List.forall_mem_cons.2 ⟨hts.holds, ?_⟩)
    exact List.forall_mem_cons.2 ⟨hes.holds, by simp⟩
  · exact I.void_holds

end Invariant

end UnionChecker.Check
