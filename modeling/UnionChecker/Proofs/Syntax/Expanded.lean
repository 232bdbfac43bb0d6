import UnionChecker.Proofs.Syntax.Sugar
/-!
# Removing sugar twice

A tree is *expanded* when it has no arrow at any depth and no statement of a block is a short circuit.
Whatever is expanded is left as it is, with its places, chains, arguments and arms, and whatever comes
out of the expansion is expanded. So a second expansion changes nothing
(`desugarFile_idempotent`).

A short circuit that is no statement does not stand in the way: neither the first expansion nor the
second one touches it.
-/

namespace UnionChecker.Syntax

/-! ## Expanded trees -/

mutual

/-- There is nothing to expand in a term. -/
def Term.Expanded : Term → Prop
  | ⟨head, chain, _⟩ => Expr.Expanded head ∧ linksExpanded chain

def linksExpanded : List Link → Prop
  | [] => True
  | ⟨access, none, _⟩ :: links => (∀ m ∈ access, m.arrow = false) ∧ linksExpanded links
  | ⟨access, some args, _⟩ :: links =>
    (∀ m ∈ access, m.arrow = false) ∧ Arguments.Expanded args ∧ linksExpanded links

def Arguments.Expanded : Arguments → Prop
  | ⟨_, items, _⟩ => itemsExpanded items

def itemsExpanded : List Argument → Prop
  | [] => True
  | ⟨_, value, _⟩ :: items => Term.Expanded value ∧ itemsExpanded items

/-- There is nothing to expand inside a head. The head itself may be a short circuit. -/
def Expr.Expanded : Expr → Prop
  | .literal _ _ => True
  | .reference _ none _ => True
  | .reference _ (some args) _ => Arguments.Expanded args
  | .lambda ⟨_, _, _, body, _⟩ => blockExpanded body
  | .declaration ⟨_, _, _, value, _⟩ => Term.Expanded value
  | .conditional ⟨condition, thenBlock, elseIfs, elseBlock, _⟩ =>
    Term.Expanded condition ∧ blockExpanded thenBlock ∧ elseIfsExpanded elseIfs ∧
      blockExpanded elseBlock
  | .list _ items _ => termsExpanded items
  | .when ⟨subject, arms, none, _⟩ => Term.Expanded subject ∧ armsExpanded arms
  | .when ⟨subject, arms, some ⟨_, body, _, _⟩, _⟩ =>
    Term.Expanded subject ∧ armsExpanded arms ∧ blockExpanded body

/-- No statement is a short circuit, and there is nothing to expand in any of them. -/
def blockExpanded : List Term → Prop
  | [] => True
  | t :: ts => t.head.isShortCircuit = false ∧ Term.Expanded t ∧ blockExpanded ts

def termsExpanded : List Term → Prop
  | [] => True
  | t :: ts => Term.Expanded t ∧ termsExpanded ts

def elseIfsExpanded : List ElseIf → Prop
  | [] => True
  | ⟨condition, thenBlock, _⟩ :: branches =>
    Term.Expanded condition ∧ blockExpanded thenBlock ∧ elseIfsExpanded branches

def armsExpanded : List Arm → Prop
  | [] => True
  | ⟨_, _, body, _, _⟩ :: arms => blockExpanded body ∧ armsExpanded arms

end

/-- There is nothing to expand in a declaration of a file. -/
def TopLevel.Expanded : TopLevel → Prop
  | .declaration d => d.shortCircuit = none ∧ d.value.Expanded
  | _ => True

variable {file : String}

/-! ## Expanded trees stay as they are -/

theorem applyLink_of_not_arrow {start : Span} {current : Term} {access : Option Member}
    {args : Option Arguments} {span : Span} (h : ∀ m ∈ access, m.arrow = false) :
    applyLink file start current ⟨access, args, span⟩ =
      .ok { current with chain := current.chain ++ [⟨access, args, span⟩] } := by
  unfold applyLink
  split
  · rename_i name haccess
    cases h _ haccess
  · rfl

mutual

theorem Term.Expanded.desugar_eq : ∀ {t : Term}, t.Expanded → desugarTerm file t = .ok t
  | ⟨head, chain, span⟩, h => by
    rw [desugarTerm, Expr.Expanded.desugar_eq h.1]
    exact linksExpanded.desugar_eq span h.2 ⟨head, [], span⟩

theorem linksExpanded.desugar_eq (start : Span) : ∀ {links : List Link}, linksExpanded links →
    ∀ current : Term, desugarLinks file start links current =
      .ok { current with chain := current.chain ++ links }
  | [], _, ⟨head, chain, place⟩ => by rw [desugarLinks, List.append_nil]
  | ⟨access, none, span⟩ :: links, h, current => by
    have hlinks := linksExpanded.desugar_eq start h.2
      { current with chain := current.chain ++ [⟨access, none, span⟩] }
    simp only [desugarLinks, bind, Except.bind, applyLink_of_not_arrow h.1, hlinks]
    simp
  | ⟨access, some args, span⟩ :: links, h, current => by
    have hlinks := linksExpanded.desugar_eq start h.2.2
      { current with chain := current.chain ++ [⟨access, some args, span⟩] }
    simp only [desugarLinks, Arguments.Expanded.desugar_eq h.2.1, Except.map, bind, Except.bind,
      applyLink_of_not_arrow h.1, hlinks]
    simp

theorem Arguments.Expanded.desugar_eq : ∀ {args : Arguments}, args.Expanded →
    desugarArguments file args = .ok args
  | ⟨_, items, _⟩, h => by
    rw [desugarArguments, itemsExpanded.desugar_eq h]
    rfl

theorem itemsExpanded.desugar_eq : ∀ {items : List Argument}, itemsExpanded items →
    desugarItems file items = .ok items
  | [], _ => by rw [desugarItems]
  | ⟨_, value, _⟩ :: items, h => by
    rw [desugarItems, Term.Expanded.desugar_eq h.1, itemsExpanded.desugar_eq h.2]
    rfl

theorem Expr.Expanded.desugar_eq : ∀ {e : Expr}, e.Expanded → desugarExpr file e = .ok e
  | .literal _ _, _ => by rw [desugarExpr]
  | .reference _ none _, _ => rfl
  | .reference _ (some args) _, h => by
    simp only [desugarExpr, Arguments.Expanded.desugar_eq h]
    rfl
  | .lambda ⟨_, _, _, body, _⟩, h => by
    rw [desugarExpr, map_reverse_desugarBackwards, blockExpanded.desugar_eq h]
    rfl
  | .declaration ⟨_, _, _, value, _⟩, h => by
    rw [desugarExpr, desugarDeclaration, Term.Expanded.desugar_eq h]
    rfl
  | .conditional ⟨condition, thenBlock, elseIfs, elseBlock, _⟩, h => by
    obtain ⟨hcondition, hthen, helseIfs, helse⟩ := h
    simp only [desugarExpr, map_reverse_desugarBackwards, elseIfsExpanded.desugar_eq helseIfs,
      Term.Expanded.desugar_eq hcondition, blockExpanded.desugar_eq hthen,
      blockExpanded.desugar_eq helse]
    rfl
  | .list _ items _, h => by
    rw [desugarExpr, termsExpanded.desugar_eq h]
    rfl
  | .when ⟨subject, arms, none, _⟩, h => by
    simp only [desugarExpr, armsExpanded.desugar_eq h.2, Term.Expanded.desugar_eq h.1]
    rfl
  | .when ⟨subject, arms, some ⟨_, body, _, _⟩, _⟩, h => by
    simp only [desugarExpr, map_reverse_desugarBackwards, armsExpanded.desugar_eq h.2.1,
      Term.Expanded.desugar_eq h.1, blockExpanded.desugar_eq h.2.2]
    rfl

theorem blockExpanded.desugar_eq : ∀ {block : List Term}, blockExpanded block →
    desugarBlock file block = .ok block
  | [], _ => rfl
  | t :: ts, h => by
    rw [desugarBlock_cons, blockExpanded.desugar_eq h.2.2, Term.Expanded.desugar_eq h.2.1]
    exact prependStatement_of_plain h.1

theorem termsExpanded.desugar_eq : ∀ {ts : List Term}, termsExpanded ts →
    desugarTerms file ts = .ok ts
  | [], _ => by rw [desugarTerms]
  | t :: ts, h => by
    rw [desugarTerms, Term.Expanded.desugar_eq h.1, termsExpanded.desugar_eq h.2]
    rfl

theorem elseIfsExpanded.desugar_eq : ∀ {branches : List ElseIf}, elseIfsExpanded branches →
    desugarElseIfs file branches = .ok branches
  | [], _ => by rw [desugarElseIfs]
  | ⟨condition, thenBlock, _⟩ :: branches, h => by
    simp only [desugarElseIfs, map_reverse_desugarBackwards, Term.Expanded.desugar_eq h.1,
      blockExpanded.desugar_eq h.2.1, elseIfsExpanded.desugar_eq h.2.2]
    rfl

theorem armsExpanded.desugar_eq : ∀ {arms : List Arm}, armsExpanded arms →
    desugarArms file arms = .ok arms
  | [], _ => by rw [desugarArms]
  | ⟨_, _, body, _, _⟩ :: arms, h => by
    simp only [desugarArms, map_reverse_desugarBackwards, blockExpanded.desugar_eq h.1,
      armsExpanded.desugar_eq h.2]
    rfl

end

/-! ## What comes out is expanded -/

theorem linksExpanded_append {links more : List Link} :
    linksExpanded (links ++ more) ↔ linksExpanded links ∧ linksExpanded more := by
  induction links with
  | nil => simp [linksExpanded]
  | cons link links ih =>
    obtain ⟨access, _ | args, span⟩ := link <;> simp [linksExpanded, ih, and_assoc]

/-- A link makes a call of what stands before it, or is added as it is. -/
theorem expanded_applyLink {start : Span} {current t : Term} {access : Option Member}
    {args : Option Arguments} {span : Span} (hcurrent : current.Expanded)
    (hargs : ∀ a ∈ args, a.Expanded)
    (h : applyLink file start current ⟨access, args, span⟩ = .ok t) : t.Expanded := by
  obtain ⟨name, ⟨generics, items, _⟩, rfl, rfl, rfl⟩ | ⟨haccess, rfl⟩ := applyLink_cases h
  · have hitems : itemsExpanded items := hargs _ rfl
    exact ⟨⟨hcurrent, hitems⟩, trivial⟩
  · obtain ⟨head, chain, _⟩ := current
    refine ⟨hcurrent.1, linksExpanded_append.2 ⟨hcurrent.2, ?_⟩⟩
    cases args with
    | none => exact ⟨haccess, trivial⟩
    | some args => exact ⟨haccess, hargs args rfl, trivial⟩

/-- The `when` of a short circuit is expanded if what it is made of is. -/
theorem expanded_shortCircuitTerm {name : Name} {success residual : Option TypeExpr}
    {value t : Term} {rest : List Term} {span : Span} (hvalue : value.Expanded)
    (hrest : blockExpanded rest)
    (h : shortCircuitTerm file name success residual value rest span = .ok t) : t.Expanded := by
  have hexit : ∀ name : Name, blockExpanded [Term.ofName name] := fun _ =>
    ⟨rfl, ⟨trivial, trivial⟩, trivial⟩
  rcases success with _ | success <;> rcases residual with _ | residual <;> cases h <;>
    simp [Term.Expanded, Expr.Expanded, linksExpanded, armsExpanded, hvalue, hrest, hexit]

theorem isShortCircuit_shortCircuitTerm {name : Name} {success residual : Option TypeExpr}
    {value t : Term} {rest : List Term} {span : Span}
    (h : shortCircuitTerm file name success residual value rest span = .ok t) :
    t.head.isShortCircuit = false := by
  rcases success with _ | success <;> rcases residual with _ | residual <;> cases h <;> rfl

/-- A short circuit in front of an expanded block is gone with its block, any other statement stays. -/
theorem expanded_prependStatement {statement : Term} {rest block : List Term}
    (hstatement : statement.Expanded) (hrest : blockExpanded rest)
    (h : prependStatement file statement rest = .ok block) : blockExpanded block := by
  obtain ⟨hplain, rfl⟩ | ⟨_, _, _, _, _, t, hhead, ht, rfl⟩ := prependStatement_cases h
  · exact ⟨hplain, hstatement, hrest⟩
  · obtain ⟨head, chain, place⟩ := statement
    obtain rfl : head = _ := hhead
    exact ⟨isShortCircuit_shortCircuitTerm ht, expanded_shortCircuitTerm hstatement.1 hrest ht,
      trivial⟩

/-- Whatever is written, what comes out is expanded. -/
def expandedExpansion : Expansion where
  term _ t := t.Expanded
  links _ t t' := t.Expanded → t'.Expanded
  arguments _ args := args.Expanded
  items _ items := itemsExpanded items
  expr _ e := e.Expanded
  block _ block := blockExpanded block
  terms _ ts := termsExpanded ts
  elseIfs _ branches := elseIfsExpanded branches
  arms _ arms := armsExpanded arms

theorem closed_expandedExpansion : expandedExpansion.Closed file where
  term hhead hchain := hchain ⟨hhead, trivial⟩
  links_nil ht := ht
  member hnext hlinks ht := hlinks (expanded_applyLink ht (by simp) hnext)
  call hargs hnext hlinks ht :=
    hlinks (expanded_applyLink ht (fun _ ha => Option.some.inj ha ▸ hargs) hnext)
  arguments hitems := hitems
  items_nil := trivial
  items_cons hvalue hitems := ⟨hvalue, hitems⟩
  literal := trivial
  name := trivial
  reference hargs := hargs
  lambda hbody := hbody
  declaration hvalue := hvalue
  conditional hcondition hthen helseIfs helse := ⟨hcondition, hthen, helseIfs, helse⟩
  list hitems := hitems
  whenAll hsubject harms := ⟨hsubject, harms⟩
  whenOther hsubject harms hbody := ⟨hsubject, harms, hbody⟩
  block_nil := trivial
  statement ht hrest hblock := expanded_prependStatement ht hrest hblock
  terms_nil := trivial
  terms_cons ht hts := ⟨ht, hts⟩
  elseIfs_nil := trivial
  elseIfs_cons hcondition hthen hbranches := ⟨hcondition, hthen, hbranches⟩
  arms_nil := trivial
  arms_cons hbody harms := ⟨hbody, harms⟩

theorem expanded_desugarTerm (t t' : Term) (h : desugarTerm file t = .ok t') : t'.Expanded :=
  closed_expandedExpansion.of_desugarTerm t t' h

theorem expanded_desugarBlock (block block' : List Term) (h : desugarBlock file block = .ok block') :
    blockExpanded block' :=
  closed_expandedExpansion.of_desugarBlock block block' h

/-! ## Files -/

theorem TopLevel.Expanded.desugar_eq {d : TopLevel} (h : d.Expanded) :
    desugarTopLevel file d = .ok d := by
  cases d with
  | declaration d =>
    obtain ⟨name, type, _ | _, value, span⟩ := d
    · rw [desugarTopLevel, desugarTopDeclaration, desugarDeclaration, Term.Expanded.desugar_eq h.2]
      rfl
    · cases h.1
  | _ => rfl

theorem expanded_desugarTopLevel {d d' : TopLevel} (h : desugarTopLevel file d = .ok d') :
    d'.Expanded := by
  cases d with
  | declaration d =>
    obtain ⟨e, he, rfl⟩ := map_eq_ok.1 h
    obtain ⟨name, type, _ | _, value, span⟩ := d
    · rw [desugarTopDeclaration, desugarDeclaration, bind_eq_ok] at he
      obtain ⟨value', hvalue, he⟩ := he
      cases he
      exact ⟨rfl, expanded_desugarTerm value value' hvalue⟩
    · cases he
  | _ => cases h; trivial

/-- **Removing sugar twice is removing it once**, from files, from blocks and from terms. -/
theorem desugarFile_idempotent (file file' : String) :
    (∀ tree tree', desugarFile file tree = .ok tree' → desugarFile file' tree' = .ok tree') ∧
    (∀ block block', desugarBlock file block = .ok block' →
      desugarBlock file' block' = .ok block') ∧
    ∀ t t', desugarTerm file t = .ok t' → desugarTerm file' t' = .ok t' := by
  refine ⟨fun tree tree' h => ?_, fun block block' h => ?_, fun t t' h => ?_⟩
  · simp only [desugarFile, bind_eq_ok] at h
    obtain ⟨declarations, hdeclarations, h⟩ := h
    cases h
    have hfixed : declarations.mapM (desugarTopLevel file') = .ok declarations :=
      mapM_eq_self fun d hd => by
        obtain ⟨_, -, hd⟩ := exists_of_mem_mapM hdeclarations d hd
        exact (expanded_desugarTopLevel hd).desugar_eq
    rw [desugarFile, hfixed]
    rfl
  · exact (expanded_desugarBlock block block' h).desugar_eq
  · exact (expanded_desugarTerm t t' h).desugar_eq

/-- Two short circuits and three arrows are gone after the first time. -/
theorem desugarFile_idempotent_twice :
    desugarFile "twice" twiceFile = .ok twiceExpanded ∧
      desugarFile "twice" twiceExpanded = .ok twiceExpanded :=
  ⟨desugarFile_twiceFile, (desugarFile_idempotent "twice" "twice").1 _ _ desugarFile_twiceFile⟩

end UnionChecker.Syntax
