import UnionChecker.Proofs.Syntax.Expansion
/-!
# What terms bind and call

Parameters of lambdas, arms of a `when` and short circuits bind names (`Term.binders`). Plain
declarations are left out: their names are checked on their own. When sugar is removed, a short
circuit becomes arms under its name, or under `unusedBinding` if it is called `_`; nothing else is
bound (`binders_desugarTerm`).

The calls in a term, at any depth, are known by their arguments (`Term.calls`).
-/

namespace UnionChecker.Syntax

/-- A name that stands for a literal. -/
def Reserved (name : String) : Prop := name = "true" ∨ name = "false"

/-- The name that an arm binds, if there is one. -/
def boundName (name : Option Name) : List String := (name.map (·.text)).toList

mutual

/-- All names that parameters, arms and short circuits in a term bind. -/
def Term.binders : Term → List String
  | ⟨head, chain, _⟩ => Expr.binders head ++ linksBinders chain

def linksBinders : List Link → List String
  | [] => []
  | ⟨_, none, _⟩ :: links => linksBinders links
  | ⟨_, some args, _⟩ :: links => Arguments.binders args ++ linksBinders links

def Arguments.binders : Arguments → List String
  | ⟨_, items, _⟩ => itemsBinders items

def itemsBinders : List Argument → List String
  | [] => []
  | ⟨_, value, _⟩ :: items => Term.binders value ++ itemsBinders items

def Expr.binders : Expr → List String
  | .literal _ _ => []
  | .reference _ none _ => []
  | .reference _ (some args) _ => Arguments.binders args
  | .lambda function => Lambda.binders function
  | .declaration d => Declaration.binders d
  | .conditional ⟨condition, thenBlock, elseIfs, elseBlock, _⟩ =>
    Term.binders condition ++ termsBinders thenBlock ++ elseIfsBinders elseIfs ++
      termsBinders elseBlock
  | .list _ items _ => termsBinders items
  | .when ⟨subject, arms, none, _⟩ => Term.binders subject ++ armsBinders arms
  | .when ⟨subject, arms, some ⟨name, body, _, _⟩, _⟩ =>
    Term.binders subject ++ armsBinders arms ++ boundName name ++ termsBinders body

def Lambda.binders : Lambda → List String
  | ⟨_, params, _, body, _⟩ => params.map (·.name.text) ++ termsBinders body

def Declaration.binders : Declaration → List String
  | ⟨_, _, none, value, _⟩ => Term.binders value
  | ⟨name, _, some _, value, _⟩ => name.text :: Term.binders value

def termsBinders : List Term → List String
  | [] => []
  | t :: ts => Term.binders t ++ termsBinders ts

def elseIfsBinders : List ElseIf → List String
  | [] => []
  | ⟨condition, thenBlock, _⟩ :: branches =>
    Term.binders condition ++ termsBinders thenBlock ++ elseIfsBinders branches

def armsBinders : List Arm → List String
  | [] => []
  | ⟨name, _, body, _, _⟩ :: arms => boundName name ++ termsBinders body ++ armsBinders arms

end

theorem Declaration.value_binders_subset (d : Declaration) : d.value.binders ⊆ d.binders := by
  obtain ⟨name, type, _ | circuit, value, span⟩ := d
  · exact fun _ hx => hx
  · exact List.subset_cons_self _ _

/-! ## Calls -/

mutual

/-- The arguments of all calls in a term. -/
def Term.calls : Term → List Arguments
  | ⟨head, chain, _⟩ => Expr.calls head ++ linksCalls chain

def linksCalls : List Link → List Arguments
  | [] => []
  | ⟨_, none, _⟩ :: links => linksCalls links
  | ⟨_, some args, _⟩ :: links => Arguments.calls args ++ linksCalls links

/-- The arguments of a call, and those of the calls in them. -/
def Arguments.calls : Arguments → List Arguments
  | ⟨generics, items, span⟩ => ⟨generics, items, span⟩ :: itemsCalls items

def itemsCalls : List Argument → List Arguments
  | [] => []
  | ⟨_, value, _⟩ :: items => Term.calls value ++ itemsCalls items

def Expr.calls : Expr → List Arguments
  | .literal _ _ => []
  | .reference _ none _ => []
  | .reference _ (some args) _ => Arguments.calls args
  | .lambda function => Lambda.calls function
  | .declaration ⟨_, _, _, value, _⟩ => Term.calls value
  | .conditional ⟨condition, thenBlock, elseIfs, elseBlock, _⟩ =>
    Term.calls condition ++ termsCalls thenBlock ++ elseIfsCalls elseIfs ++ termsCalls elseBlock
  | .list _ items _ => termsCalls items
  | .when ⟨subject, arms, none, _⟩ => Term.calls subject ++ armsCalls arms
  | .when ⟨subject, arms, some ⟨_, body, _, _⟩, _⟩ =>
    Term.calls subject ++ armsCalls arms ++ termsCalls body

def Lambda.calls : Lambda → List Arguments
  | ⟨_, _, _, body, _⟩ => termsCalls body

def termsCalls : List Term → List Arguments
  | [] => []
  | t :: ts => Term.calls t ++ termsCalls ts

def elseIfsCalls : List ElseIf → List Arguments
  | [] => []
  | ⟨condition, thenBlock, _⟩ :: branches =>
    Term.calls condition ++ termsCalls thenBlock ++ elseIfsCalls branches

def armsCalls : List Arm → List Arguments
  | [] => []
  | ⟨_, _, body, _, _⟩ :: arms => termsCalls body ++ armsCalls arms

end

/-! ## Removing sugar -/

variable {file : String} {names : List String}

theorem linksBinders_append (links more : List Link) :
    linksBinders (links ++ more) = linksBinders links ++ linksBinders more := by
  induction links with
  | nil => rfl
  | cons link links ih =>
    obtain ⟨access, _ | args, span⟩ := link
    · exact ih
    · exact (congrArg (args.binders ++ ·) ih).trans (List.append_assoc _ _ _).symm

theorem binders_ofName (name : Name) : (Term.ofName name).binders = [] := rfl

/-- The arms of a short circuit are called as it is, or `unusedBinding`. -/
theorem binders_shortCircuitTerm (hunused : unusedBinding ∈ names) {name : Name}
    {success residual : Option TypeExpr} {value t : Term} {rest : List Term} {span : Span}
    (hname : name.text ∈ names) (hvalue : value.binders ⊆ names) (hrest : termsBinders rest ⊆ names)
    (h : shortCircuitTerm file name success residual value rest span = .ok t) :
    t.binders ⊆ names := by
  have hbound : (if name.text == "_" then { name with text := unusedBinding } else name).text ∈
      names := by
    split
    · exact hunused
    · exact hname
  rcases success with _ | success <;> rcases residual with _ | residual <;> cases h <;>
    simp only [Term.binders, Expr.binders, armsBinders, linksBinders, termsBinders, boundName,
      binders_ofName, Option.map_some, Option.toList_some, List.append_nil, List.append_subset,
      List.cons_subset, List.nil_subset, hbound, hvalue, hrest, and_self]

theorem binders_prependStatement (hunused : unusedBinding ∈ names) {statement : Term}
    {rest block : List Term} (hstatement : statement.binders ⊆ names)
    (hrest : termsBinders rest ⊆ names) (h : prependStatement file statement rest = .ok block) :
    termsBinders block ⊆ names := by
  obtain ⟨-, rfl⟩ | ⟨_, _, _, _, _, t, hhead, ht, rfl⟩ := prependStatement_cases h
  · exact List.append_subset.2 ⟨hstatement, hrest⟩
  · obtain ⟨head, chain, _⟩ := statement
    obtain rfl : head = _ := hhead
    simp only [Term.binders, Expr.binders, Declaration.binders, List.append_subset,
      List.cons_subset] at hstatement
    obtain ⟨⟨hname, hvalue⟩, -⟩ := hstatement
    rw [termsBinders, termsBinders, List.append_nil]
    exact binders_shortCircuitTerm hunused hname hvalue hrest ht

theorem binders_applyLink {start : Span} {current t : Term} {access : Option Member}
    {args : Option Arguments} {span : Span} (hcurrent : current.binders ⊆ names)
    (hargs : ∀ a ∈ args, a.binders ⊆ names)
    (h : applyLink file start current ⟨access, args, span⟩ = .ok t) : t.binders ⊆ names := by
  obtain ⟨name, ⟨generics, items, _⟩, rfl, rfl, rfl⟩ | ⟨-, rfl⟩ := applyLink_cases h
  · have hitems : itemsBinders items ⊆ names := hargs _ rfl
    simp only [Term.ofExpr, Term.binders, Expr.binders, Arguments.binders, itemsBinders,
      linksBinders, List.append_nil]
    exact List.append_subset.2 ⟨hcurrent, hitems⟩
  · obtain ⟨head, chain, _⟩ := current
    simp only [Term.binders, linksBinders_append, List.append_subset] at hcurrent ⊢
    refine ⟨hcurrent.1, hcurrent.2, ?_⟩
    cases args with
    | none => exact List.nil_subset _
    | some args =>
      rw [linksBinders, linksBinders, List.append_nil]
      exact hargs args rfl

/-- What is bound is among some names. -/
def bindersExpansion (names : List String) : Expansion where
  term t t' := t.binders ⊆ names → t'.binders ⊆ names
  links links t t' := linksBinders links ⊆ names → t.binders ⊆ names → t'.binders ⊆ names
  arguments args args' := args.binders ⊆ names → args'.binders ⊆ names
  items items items' := itemsBinders items ⊆ names → itemsBinders items' ⊆ names
  expr e e' := e.binders ⊆ names → e'.binders ⊆ names
  block block block' := termsBinders block ⊆ names → termsBinders block' ⊆ names
  terms ts ts' := termsBinders ts ⊆ names → termsBinders ts' ⊆ names
  elseIfs branches branches' := elseIfsBinders branches ⊆ names → elseIfsBinders branches' ⊆ names
  arms arms arms' := armsBinders arms ⊆ names → armsBinders arms' ⊆ names

theorem append_subset_imp {as as' bs bs' : List String} (ha : as ⊆ names → as' ⊆ names)
    (hb : bs ⊆ names → bs' ⊆ names) (h : as ++ bs ⊆ names) : as' ++ bs' ⊆ names :=
  List.append_subset.2 ⟨ha (List.append_subset.1 h).1, hb (List.append_subset.1 h).2⟩

theorem closed_bindersExpansion (hunused : unusedBinding ∈ names) :
    (bindersExpansion names).Closed file where
  term {head head' chain span t} hhead hchain ht := by
    obtain ⟨hexpr, hlinks⟩ := List.append_subset.1 ht
    refine hchain hlinks ?_
    rw [Term.binders, linksBinders, List.append_nil]
    exact hhead hexpr
  links_nil _ ht := ht
  member hnext hlinks h ht := hlinks h (binders_applyLink ht (by simp) hnext)
  call hargs hnext hlinks h ht := by
    obtain ⟨hcall, hrest⟩ := List.append_subset.1 h
    exact hlinks hrest (binders_applyLink ht (fun _ ha => Option.some.inj ha ▸ hargs hcall) hnext)
  arguments hitems := hitems
  items_nil := id
  items_cons hvalue hitems := append_subset_imp hvalue hitems
  literal := id
  name := id
  reference hargs := hargs
  lambda hbody := append_subset_imp id hbody
  declaration {name type shortCircuit value value' span} hvalue := by
    cases shortCircuit with
    | none => exact hvalue
    | some circuit =>
      intro h
      obtain ⟨hname, hd⟩ := List.cons_subset.1 h
      exact List.cons_subset.2 ⟨hname, hvalue hd⟩
  conditional hcondition hthen helseIfs helse :=
    append_subset_imp (append_subset_imp (append_subset_imp hcondition hthen) helseIfs) helse
  list hitems := hitems
  whenAll hsubject harms := append_subset_imp hsubject harms
  whenOther hsubject harms hbody :=
    append_subset_imp (append_subset_imp (append_subset_imp hsubject harms) id) hbody
  block_nil := id
  statement ht hrest hblock h := by
    obtain ⟨hstatement, hothers⟩ := List.append_subset.1 h
    exact binders_prependStatement hunused (ht hstatement) (hrest hothers) hblock
  terms_nil := id
  terms_cons ht hts := append_subset_imp ht hts
  elseIfs_nil := id
  elseIfs_cons hcondition hthen hbranches :=
    append_subset_imp (append_subset_imp hcondition hthen) hbranches
  arms_nil := id
  arms_cons hbody harms := append_subset_imp (append_subset_imp id hbody) harms

/-- What removing sugar binds is bound before, or is `unusedBinding`. -/
theorem binders_desugarTerm (hunused : unusedBinding ∈ names) {t t' : Term}
    (ht : t.binders ⊆ names) (h : desugarTerm file t = .ok t') : t'.binders ⊆ names :=
  (closed_bindersExpansion hunused).of_desugarTerm t t' h ht

end UnionChecker.Syntax
