import UnionChecker.Proofs.Syntax.Expansion
import UnionChecker.Syntax.Construct
/-!
# What is left of sugar

Arrow links are removed wherever a chain stands. Short circuits are removed by the block that they
are a statement of, and by nothing else: as an argument, an item of a list, a condition, the value of
a declaration, the subject of a `when` or the receiver of an arrow call a short circuit is *stray*,
and the block that it should leave never sees it.

`Within` says what sugar a tree may have, at any depth and in any position. What comes out of
`desugarFile` has no sugar but stray short circuits, and none at all exactly when none went in
(`desugarFile_leaves_strays`).
-/

namespace UnionChecker.Syntax

/-- Whether a link is an arrow. -/
def Link.isArrow (link : Link) : Bool := link.access.any (·.arrow)

/-- Whether a chain has an arrow, which takes everything before it as its receiver. -/
def hasArrow (chain : List Link) : Bool := chain.any Link.isArrow

/-- What sugar a tree may have. -/
structure Sugar where
  /-- Whether links may be arrows. -/
  arrows : Prop
  /-- Whether statements of blocks may be short circuits. Nothing is asked of the links of such a
  statement then, since they go with it. -/
  statements : Prop
  /-- Whether short circuits may stand elsewhere. -/
  strays : Prop

namespace Sugar

/-- What may be written: arrows, short circuits that are statements, and strays or not. -/
def written (strays : Prop) : Sugar := ⟨True, True, strays⟩

/-- What may be left: strays or not. -/
def left (strays : Prop) : Sugar := ⟨False, False, strays⟩

/-- What the sugar allows as the head of a term. -/
def AllowsHead (S : Sugar) (head : Expr) : Prop := head.isShortCircuit = true → S.strays

/-- What the sugar allows as the head of a statement: a short circuit only where an arrow behind it
makes it a receiver. -/
def AllowsStatement (S : Sugar) (head : Expr) (chain : List Link) : Prop :=
  head.isShortCircuit = true → S.strays ∧ hasArrow chain = true

/-- What the sugar allows as an access. -/
def AllowsAccess (S : Sugar) (access : Option Member) : Prop :=
  ∀ m ∈ access, m.arrow = true → S.arrows

/-- Whether a statement goes to the `when` that it stands for. -/
def Expands (S : Sugar) (head : Expr) (chain : List Link) : Prop :=
  S.statements ∧ head.isShortCircuit = true ∧ hasArrow chain = false

end Sugar

/-! ## Trees with no other sugar -/

mutual

/-- A term has no sugar but what is allowed. -/
def Term.Within (S : Sugar) : Term → Prop
  | ⟨head, chain, _⟩ => S.AllowsHead head ∧ Expr.Within S head ∧ linksWithin S chain

def linksWithin (S : Sugar) : List Link → Prop
  | [] => True
  | ⟨access, none, _⟩ :: links => S.AllowsAccess access ∧ linksWithin S links
  | ⟨access, some args, _⟩ :: links =>
    S.AllowsAccess access ∧ Arguments.Within S args ∧ linksWithin S links

def Arguments.Within (S : Sugar) : Arguments → Prop
  | ⟨_, items, _⟩ => itemsWithin S items

def itemsWithin (S : Sugar) : List Argument → Prop
  | [] => True
  | ⟨_, value, _⟩ :: items => Term.Within S value ∧ itemsWithin S items

/-- What stands inside a head has no sugar but what is allowed. -/
def Expr.Within (S : Sugar) : Expr → Prop
  | .literal _ _ => True
  | .reference _ none _ => True
  | .reference _ (some args) _ => Arguments.Within S args
  | .lambda ⟨_, _, _, body, _⟩ => blockWithin S body
  | .declaration ⟨_, _, _, value, _⟩ => Term.Within S value
  | .conditional ⟨condition, thenBlock, elseIfs, elseBlock, _⟩ =>
    Term.Within S condition ∧ blockWithin S thenBlock ∧ elseIfsWithin S elseIfs ∧
      blockWithin S elseBlock
  | .list _ items _ => termsWithin S items
  | .when ⟨subject, arms, none, _⟩ => Term.Within S subject ∧ armsWithin S arms
  | .when ⟨subject, arms, some ⟨_, body, _, _⟩, _⟩ =>
    Term.Within S subject ∧ armsWithin S arms ∧ blockWithin S body

def blockWithin (S : Sugar) : List Term → Prop
  | [] => True
  | ⟨head, chain, _⟩ :: rest =>
    Expr.Within S head ∧
      (S.Expands head chain ∨ S.AllowsStatement head chain ∧ linksWithin S chain) ∧
      blockWithin S rest

def termsWithin (S : Sugar) : List Term → Prop
  | [] => True
  | t :: ts => Term.Within S t ∧ termsWithin S ts

def elseIfsWithin (S : Sugar) : List ElseIf → Prop
  | [] => True
  | ⟨condition, thenBlock, _⟩ :: branches =>
    Term.Within S condition ∧ blockWithin S thenBlock ∧ elseIfsWithin S branches

def armsWithin (S : Sugar) : List Arm → Prop
  | [] => True
  | ⟨_, _, body, _, _⟩ :: arms => blockWithin S body ∧ armsWithin S arms

end

/-- A declaration of a file has no sugar but what is allowed. -/
def TopLevel.Within (S : Sugar) : TopLevel → Prop
  | .declaration d => S.AllowsHead (.declaration d) ∧ (Expr.declaration d).Within S
  | _ => True

/-- A file has no sugar but what is allowed. -/
def File.Within (S : Sugar) (file : File) : Prop := ∀ d ∈ file.declarations, d.Within S

/-! ## Small steps -/

variable {S : Sugar} {file : String}

theorem linksWithin_append {links more : List Link} :
    linksWithin S (links ++ more) ↔ linksWithin S links ∧ linksWithin S more := by
  induction links with
  | nil => exact (and_iff_right trivial).symm
  | cons link links ih =>
    obtain ⟨access, _ | args, span⟩ := link
    · exact (and_congr_right' ih).trans and_assoc.symm
    · exact (and_congr_right' ((and_congr_right' ih).trans and_assoc.symm)).trans and_assoc.symm

theorem within_ofExpr {head : Expr} (h : head.isShortCircuit = false) :
    (Term.ofExpr head).Within S ↔ head.Within S := by
  show S.AllowsHead head ∧ head.Within S ∧ True ↔ _
  simp [Sugar.AllowsHead, h]

theorem within_ofName (name : Name) : (Term.ofName name).Within S :=
  (within_ofExpr rfl).2 trivial

/-! ## Removing sugar

Strays are followed through, whether they are allowed or not. -/

variable {strays : Prop}

theorem hasArrow_of_linksWithin {chain : List Link} (h : linksWithin (.left strays) chain) :
    hasArrow chain = false := by
  induction chain with
  | nil => rfl
  | cons link links ih =>
    obtain ⟨haccess, hlinks⟩ : (Sugar.left strays).AllowsAccess link.access ∧
        linksWithin (.left strays) links := by
      obtain ⟨access, _ | args, span⟩ := link
      · exact h
      · exact ⟨h.1, h.2.2⟩
    have harrow : link.isArrow = false := by
      simpa [Link.isArrow, Sugar.AllowsAccess, Sugar.left, Option.any_eq_false] using haccess
    show (link.isArrow || hasArrow links) = false
    rw [harrow, ih hlinks]
    rfl

/-- No statement of what is left is a short circuit. -/
theorem blockWithin_cons {t : Term} {ts : List Term} : blockWithin (.left strays) (t :: ts) ↔
    t.head.isShortCircuit = false ∧ t.Within (.left strays) ∧ blockWithin (.left strays) ts := by
  obtain ⟨head, chain, span⟩ := t
  have hstatement :
      (Sugar.left strays).AllowsStatement head chain ∧ linksWithin (.left strays) chain ↔
      head.isShortCircuit = false ∧ linksWithin (.left strays) chain := by
    refine and_congr_left fun hchain => ?_
    simp [Sugar.AllowsStatement, hasArrow_of_linksWithin hchain]
  simp only [blockWithin, Term.Within, Sugar.Expands, Sugar.left, false_and, false_or] at hstatement ⊢
  rw [hstatement]
  constructor
  · rintro ⟨hhead, ⟨hplain, hchain⟩, hrest⟩
    exact ⟨hplain, ⟨fun h => (Bool.false_ne_true (hplain.symm.trans h)).elim, hhead, hchain⟩, hrest⟩
  · rintro ⟨hplain, ⟨-, hhead, hchain⟩, hrest⟩
    exact ⟨hhead, ⟨hplain, hchain⟩, hrest⟩

theorem allowsAccess_written (access : Option Member) :
    (Sugar.written strays).AllowsAccess access := fun _ _ _ => trivial

theorem within_applyLink {start : Span} {current t : Term} {access : Option Member}
    {args : Option Arguments} {span : Span}
    (h : applyLink file start current ⟨access, args, span⟩ = .ok t) :
    t.Within (.left strays) ↔
      current.Within (.left strays) ∧ ∀ a ∈ args, a.Within (.left strays) := by
  obtain ⟨name, ⟨generics, items, _⟩, rfl, rfl, rfl⟩ | ⟨hplain, rfl⟩ := applyLink_cases h
  · rw [within_ofExpr rfl]
    simp [Expr.Within, Arguments.Within, itemsWithin]
  · obtain ⟨head, chain, _⟩ := current
    have haccess : (Sugar.left strays).AllowsAccess access := fun m hm harrow =>
      Bool.false_ne_true ((hplain m hm).symm.trans harrow)
    cases args <;> simp [Term.Within, linksWithin_append, linksWithin, haccess, and_assoc]

/-- An arrow makes a call of everything before it; without one the head stays. -/
theorem head_applyLink {start : Span} {current t : Term} {link : Link}
    (h : applyLink file start current link = .ok t) :
    (link.isArrow = true → t.head.isShortCircuit = false) ∧
      (link.isArrow = false → t.head = current.head) := by
  obtain ⟨access, args, span⟩ := link
  obtain ⟨name, args', rfl, rfl, rfl⟩ | ⟨hplain, rfl⟩ := applyLink_cases h
  · exact ⟨fun _ => rfl, fun h => (Bool.false_ne_true h.symm).elim⟩
  · have harrow : Link.isArrow ⟨access, args, span⟩ = false := by
      simpa only [Link.isArrow, Option.any_eq_false, Option.mem_def, Bool.not_eq_true] using hplain
    exact ⟨fun h => (Bool.false_ne_true (harrow.symm.trans h)).elim, fun _ => rfl⟩

/-- What the links of a chain do to the head of the term in front of them. -/
def TakesHead (links : List Link) (t t' : Term) : Prop :=
  (hasArrow links = true → t'.head.isShortCircuit = false) ∧
    (hasArrow links = false → t'.head = t.head)

theorem takesHead_cons {start : Span} {access : Option Member} {args args' : Option Arguments}
    {span : Span} {links : List Link} {t next t' : Term}
    (hnext : applyLink file start t ⟨access, args', span⟩ = .ok next)
    (h : TakesHead links next t') : TakesHead (⟨access, args, span⟩ :: links) t t' := by
  obtain ⟨harrow, hplain⟩ := head_applyLink hnext
  have hcons : hasArrow (⟨access, args, span⟩ :: links) =
      ((⟨access, args', span⟩ : Link).isArrow || hasArrow links) := rfl
  rw [TakesHead, hcons, Bool.or_eq_true, Bool.or_eq_false_iff]
  refine ⟨fun hany => ?_, fun hnone => (h.2 hnone.2).trans (hplain hnone.1)⟩
  -- the last arrow makes the call that the term ends up with
  cases hlinks : hasArrow links with
  | true => exact h.1 hlinks
  | false =>
    rw [h.2 hlinks]
    exact harrow (hany.resolve_right (by simp [hlinks]))

theorem head_shortCircuitTerm {name : Name} {success residual : Option TypeExpr} {value t : Term}
    {rest : List Term} {span : Span}
    (h : shortCircuitTerm file name success residual value rest span = .ok t) :
    t.head.isShortCircuit = false := by
  rcases success with _ | success <;> rcases residual with _ | residual <;> cases h <;> rfl

theorem within_shortCircuitTerm {name : Name} {success residual : Option TypeExpr} {value t : Term}
    {rest : List Term} {span : Span}
    (h : shortCircuitTerm file name success residual value rest span = .ok t) :
    t.Within (.left strays) ↔ value.Within (.left strays) ∧ blockWithin (.left strays) rest := by
  have hexit : ∀ name : Name, blockWithin (.left strays) [Term.ofName name] :=
    fun name => blockWithin_cons.2 ⟨rfl, within_ofName name, trivial⟩
  rcases success with _ | success <;> rcases residual with _ | residual <;> cases h <;>
    simp [Term.Within, Expr.Within, Sugar.AllowsHead, Expr.isShortCircuit, linksWithin, armsWithin,
      hexit]

/-- A statement that is a short circuit takes the rest of its block in. -/
theorem prependStatement_of_isShortCircuit {statement : Term} {rest block : List Term}
    (hstatement : statement.head.isShortCircuit = true)
    (h : prependStatement file statement rest = .ok block) :
    blockWithin (.left strays) block ↔
      statement.head.Within (.left strays) ∧ blockWithin (.left strays) rest := by
  obtain ⟨hplain, -⟩ | ⟨_, _, _, _, _, t, hhead, ht, rfl⟩ := prependStatement_cases h
  · cases hplain.symm.trans hstatement
  · rw [blockWithin_cons, within_shortCircuitTerm ht, hhead]
    simp [Expr.Within, blockWithin, head_shortCircuitTerm ht]

/-- What is left of a tree has no sugar but strays, and these only if the tree had them. -/
def straysExpansion (strays : Prop) : Expansion where
  term t t' := (t'.Within (.left strays) ↔ t.Within (.written strays)) ∧
    (hasArrow t.chain = true → t'.head.isShortCircuit = false) ∧
    (hasArrow t.chain = false → t'.head.isShortCircuit = t.head.isShortCircuit ∧
      (t'.head.Within (.left strays) ↔ t.head.Within (.written strays)))
  links links t t' := (t'.Within (.left strays) ↔
    t.Within (.left strays) ∧ linksWithin (.written strays) links) ∧ TakesHead links t t'
  arguments args args' := args'.Within (.left strays) ↔ args.Within (.written strays)
  items items items' := itemsWithin (.left strays) items' ↔ itemsWithin (.written strays) items
  expr e e' := e'.isShortCircuit = e.isShortCircuit ∧
    (e'.Within (.left strays) ↔ e.Within (.written strays))
  block block block' := blockWithin (.left strays) block' ↔ blockWithin (.written strays) block
  terms ts ts' := termsWithin (.left strays) ts' ↔ termsWithin (.written strays) ts
  elseIfs branches branches' :=
    elseIfsWithin (.left strays) branches' ↔ elseIfsWithin (.written strays) branches
  arms arms arms' := armsWithin (.left strays) arms' ↔ armsWithin (.written strays) arms

theorem strays_statement {t t' : Term} {rest rest' block : List Term}
    (ht : (straysExpansion strays).term t t') (hrest : (straysExpansion strays).block rest rest')
    (h : prependStatement file t' rest' = .ok block) :
    (straysExpansion strays).block (t :: rest) block := by
  obtain ⟨head, chain, span⟩ := t
  obtain ⟨hterm, harrow, hplain⟩ := ht
  have hrest : blockWithin (.left strays) rest' ↔ blockWithin (.written strays) rest := hrest
  show blockWithin (.left strays) block ↔ _
  by_cases hexpands : head.isShortCircuit = true ∧ hasArrow chain = false
  · -- the statement is a short circuit still, and becomes a `when`
    obtain ⟨hsame, hwithin⟩ := hplain hexpands.2
    rw [prependStatement_of_isShortCircuit (hsame.trans hexpands.1) h, hwithin, hrest]
    simp [blockWithin, Sugar.Expands, Sugar.written, hexpands]
  · have hnot : t'.head.isShortCircuit = false := by
      cases hchain : hasArrow chain with
      | true => exact harrow hchain
      | false =>
        rw [(hplain hchain).1]
        simpa [hchain] using hexpands
    rw [prependStatement_of_plain hnot] at h
    cases h
    have hallows : (Sugar.written strays).AllowsStatement head chain ↔
        (Sugar.written strays).AllowsHead head := by
      refine imp_congr_right fun hcircuit => and_iff_left ?_
      simpa [hcircuit] using hexpands
    rw [blockWithin_cons, and_iff_right hnot, hterm, hrest]
    simp only [Term.Within, blockWithin, Sugar.Expands, hexpands, and_false, false_or, hallows,
      and_assoc]
    exact and_left_comm

theorem closed_straysExpansion : (straysExpansion strays).Closed file where
  term {head head' chain span t} hhead hchain := by
    obtain ⟨hsame, hwithin⟩ := hhead
    obtain ⟨hterm, harrow, hplain⟩ := hchain
    refine ⟨?_, harrow, fun h => ?_⟩
    · rw [hterm]
      simp only [Term.Within, Sugar.AllowsHead, hsame, hwithin, linksWithin, and_true, and_assoc]
      rfl
    · rw [hplain h]
      exact ⟨hsame, hwithin⟩
  links_nil := ⟨(and_iff_left trivial).symm, fun h => (Bool.false_ne_true h).elim, fun _ => rfl⟩
  member hnext hlinks := by
    refine ⟨?_, takesHead_cons hnext hlinks.2⟩
    rw [hlinks.1, within_applyLink hnext]
    simp [linksWithin, allowsAccess_written]
  call {start access args args' span links t next t'} hargs hnext hlinks := by
    have hargs : args'.Within (.left strays) ↔ args.Within (.written strays) := hargs
    refine ⟨?_, takesHead_cons hnext hlinks.2⟩
    rw [hlinks.1, within_applyLink hnext]
    simp [linksWithin, allowsAccess_written, hargs, and_assoc]
  arguments hitems := hitems
  items_nil := Iff.rfl
  items_cons hvalue hitems := and_congr hvalue.1 hitems
  literal := ⟨rfl, Iff.rfl⟩
  name := ⟨rfl, Iff.rfl⟩
  reference hargs := ⟨rfl, hargs⟩
  lambda hbody := ⟨rfl, hbody⟩
  declaration hvalue := ⟨rfl, hvalue.1⟩
  conditional hcondition hthen helseIfs helse :=
    ⟨rfl, and_congr hcondition.1 (and_congr hthen (and_congr helseIfs helse))⟩
  list hitems := ⟨rfl, hitems⟩
  whenAll hsubject harms := ⟨rfl, and_congr hsubject.1 harms⟩
  whenOther hsubject harms hbody := ⟨rfl, and_congr hsubject.1 (and_congr harms hbody)⟩
  block_nil := Iff.rfl
  statement ht hrest h := strays_statement ht hrest h
  terms_nil := Iff.rfl
  terms_cons ht hts := and_congr ht.1 hts
  elseIfs_nil := Iff.rfl
  elseIfs_cons hcondition hthen hbranches := and_congr hcondition.1 (and_congr hthen hbranches)
  arms_nil := Iff.rfl
  arms_cons hbody harms := and_congr hbody harms

/-! ## Everything may be written -/

theorem statement_any (head : Expr) (chain : List Link) (h : linksWithin (.written True) chain) :
    (Sugar.written True).Expands head chain ∨
      (Sugar.written True).AllowsStatement head chain ∧ linksWithin (.written True) chain := by
  by_cases hexpands : head.isShortCircuit = true ∧ hasArrow chain = false
  · exact .inl ⟨trivial, hexpands⟩
  · exact .inr ⟨fun hcircuit => ⟨trivial, by simpa [hcircuit] using hexpands⟩, h⟩

mutual

theorem Term.within_any : ∀ t : Term, t.Within (.written True)
  | ⟨head, chain, _⟩ => ⟨fun _ => trivial, head.within_any, linksWithin_any chain⟩

theorem linksWithin_any : ∀ links : List Link, linksWithin (.written True) links
  | [] => trivial
  | ⟨access, none, _⟩ :: links => ⟨allowsAccess_written access, linksWithin_any links⟩
  | ⟨access, some args, _⟩ :: links =>
    ⟨allowsAccess_written access, args.within_any, linksWithin_any links⟩

theorem Arguments.within_any : ∀ args : Arguments, args.Within (.written True)
  | ⟨_, items, _⟩ => itemsWithin_any items

theorem itemsWithin_any : ∀ items : List Argument, itemsWithin (.written True) items
  | [] => trivial
  | ⟨_, value, _⟩ :: items => ⟨value.within_any, itemsWithin_any items⟩

theorem Expr.within_any : ∀ e : Expr, e.Within (.written True)
  | .literal _ _ => trivial
  | .reference _ none _ => trivial
  | .reference _ (some args) _ => args.within_any
  | .lambda ⟨_, _, _, body, _⟩ => blockWithin_any body
  | .declaration ⟨_, _, _, value, _⟩ => value.within_any
  | .conditional ⟨condition, thenBlock, elseIfs, elseBlock, _⟩ =>
    ⟨condition.within_any, blockWithin_any thenBlock, elseIfsWithin_any elseIfs,
      blockWithin_any elseBlock⟩
  | .list _ items _ => termsWithin_any items
  | .when ⟨subject, arms, none, _⟩ => ⟨subject.within_any, armsWithin_any arms⟩
  | .when ⟨subject, arms, some ⟨_, body, _, _⟩, _⟩ =>
    ⟨subject.within_any, armsWithin_any arms, blockWithin_any body⟩

theorem blockWithin_any : ∀ block : List Term, blockWithin (.written True) block
  | [] => trivial
  | ⟨head, chain, _⟩ :: rest =>
    ⟨head.within_any, statement_any head chain (linksWithin_any chain), blockWithin_any rest⟩

theorem termsWithin_any : ∀ ts : List Term, termsWithin (.written True) ts
  | [] => trivial
  | t :: ts => ⟨t.within_any, termsWithin_any ts⟩

theorem elseIfsWithin_any : ∀ branches : List ElseIf, elseIfsWithin (.written True) branches
  | [] => trivial
  | ⟨condition, thenBlock, _⟩ :: branches =>
    ⟨condition.within_any, blockWithin_any thenBlock, elseIfsWithin_any branches⟩

theorem armsWithin_any : ∀ arms : List Arm, armsWithin (.written True) arms
  | [] => trivial
  | ⟨_, _, body, _, _⟩ :: arms => ⟨blockWithin_any body, armsWithin_any arms⟩

end

/-! ## Files -/

theorem within_desugarTopLevel {d d' : TopLevel} (h : desugarTopLevel file d = .ok d') :
    d'.Within (.left strays) ↔ d.Within (.written strays) := by
  cases d with
  | declaration d =>
    obtain ⟨e, he, rfl⟩ := map_eq_ok.1 h
    have hd : desugarDeclaration file d = .ok e := by
      unfold desugarTopDeclaration at he
      split at he
      · cases he
      · exact he
    obtain ⟨hsame, hwithin⟩ := (@closed_straysExpansion file strays).of_desugarDeclaration hd
    simp only [TopLevel.Within, Sugar.AllowsHead, hsame, hwithin]
    rfl
  | _ => cases h; exact Iff.rfl

theorem within_desugarFile {tree tree' : File} (h : desugarFile file tree = .ok tree') :
    tree'.Within (.left strays) ↔ tree.Within (.written strays) := by
  simp only [desugarFile, bind_eq_ok] at h
  obtain ⟨declarations, hdeclarations, h⟩ := h
  cases h
  have hmap : declarations.map (TopLevel.Within (.left strays)) =
      tree.declarations.map (TopLevel.Within (.written strays)) :=
    map_eq_map_of_mapM (fun _ _ hd => propext (within_desugarTopLevel hd)) hdeclarations
  have hall := congrArg (fun ps : List Prop => ∀ p ∈ ps, p) hmap
  simpa only [List.forall_mem_map, File.Within, eq_iff_iff] using hall

/-- **Only short circuits are left, and only because of strays.** A file without its sugar has no arrow
at any depth, and no statement of a block in it is a short circuit. It has no short circuit at all
exactly when every short circuit of the file is a statement of a block without an arrow behind it. -/
theorem desugarFile_leaves_strays {tree tree' : File} (h : desugarFile file tree = .ok tree') :
    tree'.Within (.left True) ∧ (tree'.Within (.left False) ↔ tree.Within (.written False)) := by
  refine ⟨(within_desugarFile h).2 fun d _ => ?_, within_desugarFile h⟩
  cases d with
  | declaration d => exact ⟨fun _ => trivial, Expr.within_any _⟩
  | _ => trivial

/-! ## Short circuits in their place, and one that is not -/

section

/-- `f := () => x: Int ? String = a->g(); y :? String = h(x)->k(x); y`, with two short circuits in one
block. -/
def twiceFile : File :=
  ⟨⟨[.plain "main"], .zero⟩, [],
    [.declaration (.plain "f" none (.lambda [] [] none
      [.shortCircuit "x" (some (.named "Int" [])) (some (.named "String" []))
          (.arrow (.var "a") "g" []),
        .shortCircuit "y" none (some (.named "String" []))
          (.arrow (.call "h" [] [.var "x"]) "k" [.var "x"]),
        .var "y"]))]⟩

/-- The same as one `when` inside another. -/
def twiceExpanded : File :=
  ⟨⟨[.plain "main"], .zero⟩, [],
    [.declaration (.plain "f" none (.lambda [] [] none
      [.choose (.call "g" [] [.var "a"])
        [⟨some (.plain "x"), .named "String" [], [.var "x"], .zero, .shortCircuitResidual⟩,
          .plain (some "x") (.named "Int" [])
            [.choose (.call "k" [] [.call "h" [] [.var "x"], .var "x"])
              [⟨some (.plain "y"), .named "String" [], [.var "y"], .zero, .shortCircuitResidual⟩]
              (some (.plain (some "y") [.var "y"]))]]
        none]))]⟩

theorem desugarFile_twiceFile : desugarFile "twice" twiceFile = .ok twiceExpanded := by
  with_unfolding_all rfl

theorem within_twiceFile : twiceFile.Within (.written False) := by
  have hvar : ∀ x, (Term.var x).Within (.written False) := fun _ =>
    (within_ofExpr rfl).2 trivial
  have hfirst : ((Term.var "a").arrow "g" []).Within (.written False) :=
    ⟨(hvar "a").1, trivial, allowsAccess_written _, trivial, trivial⟩
  have hcall : (Term.call "h" [] [.var "x"]).Within (.written False) :=
    (within_ofExpr rfl).2 ⟨hvar "x", trivial⟩
  have hsecond : ((Term.call "h" [] [.var "x"]).arrow "k" [.var "x"]).Within (.written False) :=
    ⟨hcall.1, hcall.2.1, allowsAccess_written _, ⟨hvar "x", trivial⟩, trivial⟩
  intro d hd
  rw [List.mem_singleton.1 hd]
  refine ⟨fun h => (Bool.false_ne_true h).elim, (within_ofExpr rfl).2 ?_⟩
  exact ⟨hfirst, Or.inl ⟨trivial, rfl, rfl⟩, hsecond, Or.inl ⟨trivial, rfl, rfl⟩,
    trivial, Or.inr ⟨fun h => (Bool.false_ne_true h).elim, trivial⟩, trivial⟩

theorem desugarFile_leaves_strays_twice :
    desugarFile "twice" twiceFile = .ok twiceExpanded ∧ twiceExpanded.Within (.left False) :=
  ⟨desugarFile_twiceFile, (desugarFile_leaves_strays desugarFile_twiceFile).2.2 within_twiceFile⟩

/-- `x := [y: Int ?= 1]`, with a short circuit outside of any block. -/
def strayFile : File :=
  ⟨⟨[.plain "main"], .zero⟩, [],
    [.declaration (.plain "x" none (.list none
      [.shortCircuit "y" (some (.named "Int" [])) none (.literal (.int 1))]))]⟩

/-- A short circuit that is an item of a list is left as it is. -/
theorem desugarFile_keeps_stray_item :
    desugarFile "stray" strayFile = .ok strayFile ∧ ¬ strayFile.Within (.left False) := by
  refine ⟨by with_unfolding_all rfl, fun h => ?_⟩
  have hlist : termsWithin (.left False)
      [.shortCircuit "y" (some (.named "Int" [])) none (.literal (.int 1))] :=
    (within_ofExpr rfl).1 (h _ List.mem_cons_self).2
  exact hlist.1.1 rfl

end

end UnionChecker.Syntax
