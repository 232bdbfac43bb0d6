import UnionChecker.Proofs.Syntax.Blocks
/-!
# What holds between a tree and its expansion

Every part of a tree is expanded by itself, and the parts that come out are put together as they were.
Only a link may make a call of the term in front of it, and only a statement may take in the rest of its
block. So a relation that can be seen node by node (`Expansion.Closed`) holds between every tree and
what it is expanded to (`Expansion.Closed.of_desugarTerm`).
-/

namespace UnionChecker.Syntax

/-- An arrow makes a call of the term in front of it, any other link is added to it. -/
theorem applyLink_cases {file : String} {start : Span} {t t' : Term} {access : Option Member}
    {args : Option Arguments} {span : Span} (h : applyLink file start t ⟨access, args, span⟩ = .ok t') :
    (∃ name args', access = some ⟨name, true⟩ ∧ args = some args' ∧
      t' = .ofExpr (.reference name (some { args' with items := ⟨none, t, t.span⟩ :: args'.items })
        (start.merge span))) ∨
      (∀ m ∈ access, m.arrow = false) ∧ t' = { t with chain := t.chain ++ [⟨access, args, span⟩] } := by
  obtain _ | ⟨name, _ | _⟩ := access
  · cases h
    exact .inr ⟨by simp, rfl⟩
  · cases h
    exact .inr ⟨by simp, rfl⟩
  · cases args with
    | none => cases h
    | some args =>
      cases h
      exact .inl ⟨name, args, rfl, rfl, rfl⟩

/-- A relation between trees as they are written and as they are expanded, for each kind of tree. -/
structure Expansion where
  term : Term → Term → Prop
  /-- Between the links of a chain, the term in front of them and the term that has them. -/
  links : List Link → Term → Term → Prop
  arguments : Arguments → Arguments → Prop
  items : List Argument → List Argument → Prop
  expr : Expr → Expr → Prop
  block : List Term → List Term → Prop
  terms : List Term → List Term → Prop
  elseIfs : List ElseIf → List ElseIf → Prop
  arms : List Arm → List Arm → Prop

/-- The relation holds for a node if it holds for its parts. -/
structure Expansion.Closed (file : String) (R : Expansion) : Prop where
  term : ∀ {head head' chain span t}, R.expr head head' → R.links chain ⟨head', [], span⟩ t →
    R.term ⟨head, chain, span⟩ t
  links_nil : ∀ {t}, R.links [] t t
  member : ∀ {start access span links t next t'},
    applyLink file start t ⟨access, none, span⟩ = .ok next → R.links links next t' →
    R.links (⟨access, none, span⟩ :: links) t t'
  call : ∀ {start access args args' span links t next t'}, R.arguments args args' →
    applyLink file start t ⟨access, some args', span⟩ = .ok next → R.links links next t' →
    R.links (⟨access, some args, span⟩ :: links) t t'
  arguments : ∀ {generics items items' span}, R.items items items' →
    R.arguments ⟨generics, items, span⟩ ⟨generics, items', span⟩
  items_nil : R.items [] []
  items_cons : ∀ {label value value' span items items'}, R.term value value' →
    R.items items items' → R.items (⟨label, value, span⟩ :: items) (⟨label, value', span⟩ :: items')
  literal : ∀ {value span}, R.expr (.literal value span) (.literal value span)
  name : ∀ {name span}, R.expr (.reference name none span) (.reference name none span)
  reference : ∀ {name args args' span}, R.arguments args args' →
    R.expr (.reference name (some args) span) (.reference name (some args') span)
  lambda : ∀ {generics params result body body' span}, R.block body body' →
    R.expr (.lambda ⟨generics, params, result, body, span⟩)
      (.lambda ⟨generics, params, result, body', span⟩)
  declaration : ∀ {name type shortCircuit value value' span}, R.term value value' →
    R.expr (.declaration ⟨name, type, shortCircuit, value, span⟩)
      (.declaration ⟨name, type, shortCircuit, value', span⟩)
  conditional : ∀ {condition condition' thenBlock then' elseIfs elseIfs' elseBlock else' span},
    R.term condition condition' → R.block thenBlock then' → R.elseIfs elseIfs elseIfs' →
    R.block elseBlock else' →
    R.expr (.conditional ⟨condition, thenBlock, elseIfs, elseBlock, span⟩)
      (.conditional ⟨condition', then', elseIfs', else', span⟩)
  list : ∀ {generics items items' span}, R.terms items items' →
    R.expr (.list generics items span) (.list generics items' span)
  whenAll : ∀ {subject subject' arms arms' span}, R.term subject subject' → R.arms arms arms' →
    R.expr (.when ⟨subject, arms, none, span⟩) (.when ⟨subject', arms', none, span⟩)
  whenOther : ∀ {subject subject' arms arms' name body body' place origin span},
    R.term subject subject' → R.arms arms arms' → R.block body body' →
    R.expr (.when ⟨subject, arms, some ⟨name, body, place, origin⟩, span⟩)
      (.when ⟨subject', arms', some ⟨name, body', place, origin⟩, span⟩)
  block_nil : R.block [] []
  statement : ∀ {t t' rest rest' block}, R.term t t' → R.block rest rest' →
    prependStatement file t' rest' = .ok block → R.block (t :: rest) block
  terms_nil : R.terms [] []
  terms_cons : ∀ {t t' ts ts'}, R.term t t' → R.terms ts ts' → R.terms (t :: ts) (t' :: ts')
  elseIfs_nil : R.elseIfs [] []
  elseIfs_cons : ∀ {condition condition' thenBlock then' span branches branches'},
    R.term condition condition' → R.block thenBlock then' → R.elseIfs branches branches' →
    R.elseIfs (⟨condition, thenBlock, span⟩ :: branches) (⟨condition', then', span⟩ :: branches')
  arms_nil : R.arms [] []
  arms_cons : ∀ {name type body body' span origin arms arms'}, R.block body body' →
    R.arms arms arms' →
    R.arms (⟨name, type, body, span, origin⟩ :: arms) (⟨name, type, body', span, origin⟩ :: arms')

namespace Expansion.Closed

variable {file : String} {R : Expansion} (hR : R.Closed file)
include hR

mutual

theorem of_desugarTerm : ∀ t t' : Term, desugarTerm file t = .ok t' → R.term t t'
  | ⟨head, chain, span⟩ => by
    intro t' h
    rw [desugarTerm, bind_eq_ok] at h
    obtain ⟨head', hhead, h⟩ := h
    exact hR.term (of_desugarExpr head head' hhead) (of_desugarLinks span chain _ t' h)

theorem of_desugarLinks (start : Span) : ∀ (links : List Link) (t t' : Term),
    desugarLinks file start links t = .ok t' → R.links links t t'
  | [] => by
    intro t t' h
    cases h
    exact hR.links_nil
  | ⟨access, none, span⟩ :: links => by
    intro t t' h
    simp only [desugarLinks, bind_eq_ok] at h
    obtain ⟨_, hargs, next, hnext, h⟩ := h
    cases hargs
    exact hR.member hnext (of_desugarLinks start links next t' h)
  | ⟨access, some args, span⟩ :: links => by
    intro t t' h
    simp only [desugarLinks, bind_eq_ok, map_eq_ok] at h
    obtain ⟨_, ⟨args', hargs, rfl⟩, next, hnext, h⟩ := h
    exact hR.call (of_desugarArguments args args' hargs) hnext (of_desugarLinks start links next t' h)

theorem of_desugarArguments : ∀ args args' : Arguments,
    desugarArguments file args = .ok args' → R.arguments args args'
  | ⟨generics, items, span⟩ => by
    intro args' h
    simp only [desugarArguments, bind_eq_ok] at h
    obtain ⟨items', hitems, h⟩ := h
    cases h
    exact hR.arguments (of_desugarItems items items' hitems)

theorem of_desugarItems : ∀ items items' : List Argument,
    desugarItems file items = .ok items' → R.items items items'
  | [] => by
    intro items' h
    cases h
    exact hR.items_nil
  | ⟨label, value, span⟩ :: items => by
    intro items' h
    simp only [desugarItems, bind_eq_ok] at h
    obtain ⟨value', hvalue, rest, hrest, h⟩ := h
    cases h
    exact hR.items_cons (of_desugarTerm value value' hvalue) (of_desugarItems items rest hrest)

theorem of_desugarExpr : ∀ e e' : Expr, desugarExpr file e = .ok e' → R.expr e e'
  | .literal value span => by
    intro e' h
    cases h
    exact hR.literal
  | .reference name none span => by
    intro e' h
    cases h
    exact hR.name
  | .reference name (some args) span => by
    intro e' h
    simp only [desugarExpr, bind_eq_ok, map_eq_ok] at h
    obtain ⟨_, ⟨args', hargs, rfl⟩, h⟩ := h
    cases h
    exact hR.reference (of_desugarArguments args args' hargs)
  | .lambda ⟨generics, params, result, body, span⟩ => by
    intro e' h
    simp only [desugarExpr, bind_eq_ok] at h
    obtain ⟨body', hbody, h⟩ := h
    cases h
    exact hR.lambda (of_desugarBlock body body' hbody)
  | .declaration ⟨name, type, shortCircuit, value, span⟩ => by
    intro e' h
    simp only [desugarExpr, desugarDeclaration, map_eq_ok, bind_eq_ok] at h
    obtain ⟨d', ⟨value', hvalue, hd⟩, rfl⟩ := h
    cases hd
    exact hR.declaration (of_desugarTerm value value' hvalue)
  | .conditional ⟨condition, thenBlock, elseIfs, elseBlock, span⟩ => by
    intro e' h
    simp only [desugarExpr, bind_eq_ok] at h
    obtain ⟨elseIfs', helseIfs, condition', hcondition, then', hthen, else', helse, h⟩ := h
    cases h
    exact hR.conditional (of_desugarTerm condition condition' hcondition)
      (of_desugarBlock thenBlock then' hthen) (of_desugarElseIfs elseIfs elseIfs' helseIfs)
      (of_desugarBlock elseBlock else' helse)
  | .list generics items span => by
    intro e' h
    simp only [desugarExpr, bind_eq_ok] at h
    obtain ⟨items', hitems, h⟩ := h
    cases h
    exact hR.list (of_desugarTerms items items' hitems)
  | .when ⟨subject, arms, none, span⟩ => by
    intro e' h
    simp only [desugarExpr, bind_eq_ok] at h
    obtain ⟨arms', harms, _, hother, subject', hsubject, h⟩ := h
    cases hother
    cases h
    exact hR.whenAll (of_desugarTerm subject subject' hsubject) (of_desugarArms arms arms' harms)
  | .when ⟨subject, arms, some ⟨name, body, place, origin⟩, span⟩ => by
    intro e' h
    simp only [desugarExpr, bind_eq_ok] at h
    obtain ⟨arms', harms, _, ⟨body', hbody, hother⟩, subject', hsubject, h⟩ := h
    cases hother
    cases h
    exact hR.whenOther (of_desugarTerm subject subject' hsubject) (of_desugarArms arms arms' harms)
      (of_desugarBlock body body' hbody)

theorem of_desugarBlock : ∀ block block' : List Term,
    desugarBlock file block = .ok block' → R.block block block'
  | [] => by
    intro block' h
    cases h
    exact hR.block_nil
  | t :: rest => by
    intro block' h
    simp only [desugarBlock_cons, bind_eq_ok] at h
    obtain ⟨rest', hrest, t', ht, h⟩ := h
    exact hR.statement (of_desugarTerm t t' ht) (of_desugarBlock rest rest' hrest) h

theorem of_desugarTerms : ∀ ts ts' : List Term, desugarTerms file ts = .ok ts' → R.terms ts ts'
  | [] => by
    intro ts' h
    cases h
    exact hR.terms_nil
  | t :: ts => by
    intro ts' h
    simp only [desugarTerms, bind_eq_ok] at h
    obtain ⟨t', ht, rest, hrest, h⟩ := h
    cases h
    exact hR.terms_cons (of_desugarTerm t t' ht) (of_desugarTerms ts rest hrest)

theorem of_desugarElseIfs : ∀ branches branches' : List ElseIf,
    desugarElseIfs file branches = .ok branches' → R.elseIfs branches branches'
  | [] => by
    intro branches' h
    cases h
    exact hR.elseIfs_nil
  | ⟨condition, thenBlock, span⟩ :: branches => by
    intro branches' h
    simp only [desugarElseIfs, bind_eq_ok] at h
    obtain ⟨condition', hcondition, then', hthen, rest, hrest, h⟩ := h
    cases h
    exact hR.elseIfs_cons (of_desugarTerm condition condition' hcondition)
      (of_desugarBlock thenBlock then' hthen) (of_desugarElseIfs branches rest hrest)

theorem of_desugarArms : ∀ arms arms' : List Arm,
    desugarArms file arms = .ok arms' → R.arms arms arms'
  | [] => by
    intro arms' h
    cases h
    exact hR.arms_nil
  | ⟨name, type, body, span, origin⟩ :: arms => by
    intro arms' h
    simp only [desugarArms, bind_eq_ok] at h
    obtain ⟨body', hbody, rest, hrest, h⟩ := h
    cases h
    exact hR.arms_cons (of_desugarBlock body body' hbody) (of_desugarArms arms rest hrest)

end

/-- A declaration is expanded as the head that it is. -/
theorem of_desugarDeclaration {d d' : Declaration} (h : desugarDeclaration file d = .ok d') :
    R.expr (.declaration d) (.declaration d') :=
  hR.of_desugarExpr _ _ (by rw [desugarExpr, h]; rfl)

end Expansion.Closed

end UnionChecker.Syntax
