import UnionChecker.Proofs.Syntax.Expansion
/-!
# The names of types in syntax trees

A name stands for a type where it is written in an annotation, and for a generic where a lambda, a
record, an alias or a function type binds it. `Uses` says that all these names are of some kind, and
`respell` gives them other names; names of variables, fields and parameters stay. Both go along with
the removal of sugar (`desugarTerm_respell`, `uses_desugarDeclaration`).
-/

namespace UnionChecker.Syntax

/-- What generics may be called, and what names of types may be written. -/
structure Wording where
  bound : String → Prop
  written : String → Prop

/-- Another name, at the same place. -/
def Name.respell (f : String → String) (name : Name) : Name := { name with text := f name.text }

@[simp] theorem Name.text_respell (f : String → String) (name : Name) :
    (name.respell f).text = f name.text := rfl

/-- All generics that are bound here may be called so. -/
def Wording.Binds (W : Wording) (names : List Name) : Prop := ∀ name ∈ names, W.bound name.text

/-! ## Written types -/

mutual

/-- All names in a written type are as the wording wants. -/
def TypeExpr.Uses (W : Wording) : TypeExpr → Prop
  | ⟨alternatives, _⟩ => alternativesUse W alternatives

def Alternative.Uses (W : Wording) : Alternative → Prop
  | .hole _ => True
  | .named name args => W.written name.text ∧ typesUse W args
  | .fn bound params result _ => W.Binds bound ∧ paramsUse W params ∧ TypeExpr.Uses W result

def alternativesUse (W : Wording) : List Alternative → Prop
  | [] => True
  | a :: as => Alternative.Uses W a ∧ alternativesUse W as

def typesUse (W : Wording) : List TypeExpr → Prop
  | [] => True
  | t :: ts => TypeExpr.Uses W t ∧ typesUse W ts

def paramsUse (W : Wording) : List (Option Name × TypeExpr) → Prop
  | [] => True
  | (_, t) :: ps => TypeExpr.Uses W t ∧ paramsUse W ps

end

mutual

/-- A written type with other names. -/
def TypeExpr.respell (f : String → String) : TypeExpr → TypeExpr
  | ⟨alternatives, span⟩ => ⟨respellAlternatives f alternatives, span⟩

def Alternative.respell (f : String → String) : Alternative → Alternative
  | .hole span => .hole span
  | .named name args => .named (name.respell f) (respellTypes f args)
  | .fn bound params result span =>
    .fn (bound.map (·.respell f)) (respellParams f params) (TypeExpr.respell f result) span

def respellAlternatives (f : String → String) : List Alternative → List Alternative
  | [] => []
  | a :: as => Alternative.respell f a :: respellAlternatives f as

def respellTypes (f : String → String) : List TypeExpr → List TypeExpr
  | [] => []
  | t :: ts => TypeExpr.respell f t :: respellTypes f ts

def respellParams (f : String → String) :
    List (Option Name × TypeExpr) → List (Option Name × TypeExpr)
  | [] => []
  | (name, t) :: ps => (name, TypeExpr.respell f t) :: respellParams f ps

end

/-! ## Terms -/

/-- A written type that may be missing. -/
def optionUses (W : Wording) (type : Option TypeExpr) : Prop := ∀ t ∈ type, t.Uses W

def Parameter.respell (f : String → String) (p : Parameter) : Parameter :=
  ⟨p.name, p.type.map (·.respell f)⟩

mutual

/-- All names of types in a term are as the wording wants. -/
def Term.Uses (W : Wording) : Term → Prop
  | ⟨head, chain, _⟩ => Expr.Uses W head ∧ linksUse W chain

def linksUse (W : Wording) : List Link → Prop
  | [] => True
  | ⟨_, none, _⟩ :: links => linksUse W links
  | ⟨_, some args, _⟩ :: links => Arguments.Uses W args ∧ linksUse W links

def Arguments.Uses (W : Wording) : Arguments → Prop
  | ⟨generics, items, _⟩ => typesUse W generics ∧ itemsUse W items

def itemsUse (W : Wording) : List Argument → Prop
  | [] => True
  | ⟨_, value, _⟩ :: items => Term.Uses W value ∧ itemsUse W items

def Expr.Uses (W : Wording) : Expr → Prop
  | .literal _ _ => True
  | .reference _ none _ => True
  | .reference _ (some args) _ => Arguments.Uses W args
  | .lambda function => Lambda.Uses W function
  | .declaration declaration => Declaration.Uses W declaration
  | .conditional ⟨condition, thenBlock, elseIfs, elseBlock, _⟩ =>
    Term.Uses W condition ∧ termsUse W thenBlock ∧ elseIfsUse W elseIfs ∧ termsUse W elseBlock
  | .list generics items _ => typesUse W generics ∧ termsUse W items
  | .when ⟨subject, arms, none, _⟩ => Term.Uses W subject ∧ armsUse W arms
  | .when ⟨subject, arms, some ⟨_, body, _, _⟩, _⟩ =>
    Term.Uses W subject ∧ armsUse W arms ∧ termsUse W body

def Lambda.Uses (W : Wording) : Lambda → Prop
  | ⟨generics, params, result, body, _⟩ =>
    W.Binds generics ∧ (∀ p ∈ params, optionUses W p.type) ∧ optionUses W result ∧ termsUse W body

def Declaration.Uses (W : Wording) : Declaration → Prop
  | ⟨_, type, shortCircuit, value, _⟩ =>
    optionUses W type ∧ (∀ s ∈ shortCircuit, optionUses W s.residual) ∧ Term.Uses W value

def termsUse (W : Wording) : List Term → Prop
  | [] => True
  | t :: ts => Term.Uses W t ∧ termsUse W ts

def elseIfsUse (W : Wording) : List ElseIf → Prop
  | [] => True
  | ⟨condition, thenBlock, _⟩ :: branches =>
    Term.Uses W condition ∧ termsUse W thenBlock ∧ elseIfsUse W branches

def armsUse (W : Wording) : List Arm → Prop
  | [] => True
  | ⟨_, type, body, _, _⟩ :: arms => TypeExpr.Uses W type ∧ termsUse W body ∧ armsUse W arms

end

mutual

/-- A term with other names for types. -/
def Term.respell (f : String → String) : Term → Term
  | ⟨head, chain, span⟩ => ⟨Expr.respell f head, respellLinks f chain, span⟩

def respellLinks (f : String → String) : List Link → List Link
  | [] => []
  | ⟨access, none, span⟩ :: links => ⟨access, none, span⟩ :: respellLinks f links
  | ⟨access, some args, span⟩ :: links =>
    ⟨access, some (Arguments.respell f args), span⟩ :: respellLinks f links

def Arguments.respell (f : String → String) : Arguments → Arguments
  | ⟨generics, items, span⟩ => ⟨respellTypes f generics, respellItems f items, span⟩

def respellItems (f : String → String) : List Argument → List Argument
  | [] => []
  | ⟨label, value, span⟩ :: items => ⟨label, Term.respell f value, span⟩ :: respellItems f items

def Expr.respell (f : String → String) : Expr → Expr
  | .literal value span => .literal value span
  | .reference name none span => .reference name none span
  | .reference name (some args) span => .reference name (some (Arguments.respell f args)) span
  | .lambda function => .lambda (Lambda.respell f function)
  | .declaration declaration => .declaration (Declaration.respell f declaration)
  | .conditional ⟨condition, thenBlock, elseIfs, elseBlock, span⟩ =>
    .conditional ⟨Term.respell f condition, respellTerms f thenBlock, respellElseIfs f elseIfs,
      respellTerms f elseBlock, span⟩
  | .list generics items span => .list (respellTypes f generics) (respellTerms f items) span
  | .when ⟨subject, arms, none, span⟩ =>
    .when ⟨Term.respell f subject, respellArms f arms, none, span⟩
  | .when ⟨subject, arms, some ⟨name, body, otherSpan, origin⟩, span⟩ =>
    .when ⟨Term.respell f subject, respellArms f arms,
      some ⟨name, respellTerms f body, otherSpan, origin⟩, span⟩

def Lambda.respell (f : String → String) : Lambda → Lambda
  | ⟨generics, params, result, body, span⟩ =>
    ⟨generics.map (·.respell f), params.map (·.respell f), result.map (·.respell f),
      respellTerms f body, span⟩

def Declaration.respell (f : String → String) : Declaration → Declaration
  | ⟨name, type, shortCircuit, value, span⟩ =>
    ⟨name, type.map (·.respell f), shortCircuit.map fun s => ⟨s.residual.map (·.respell f), s.span⟩,
      Term.respell f value, span⟩

def respellTerms (f : String → String) : List Term → List Term
  | [] => []
  | t :: ts => Term.respell f t :: respellTerms f ts

def respellElseIfs (f : String → String) : List ElseIf → List ElseIf
  | [] => []
  | ⟨condition, thenBlock, span⟩ :: branches =>
    ⟨Term.respell f condition, respellTerms f thenBlock, span⟩ :: respellElseIfs f branches

def respellArms (f : String → String) : List Arm → List Arm
  | [] => []
  | ⟨name, type, body, span, origin⟩ :: arms =>
    ⟨name, TypeExpr.respell f type, respellTerms f body, span, origin⟩ :: respellArms f arms

end

/-! ## Declarations of files -/

def Record.Uses (W : Wording) (record : Record) : Prop :=
  W.Binds record.generics ∧ ∀ field ∈ record.fields, field.2.Uses W

def TypeAlias.Uses (W : Wording) (typeAlias : TypeAlias) : Prop :=
  W.Binds typeAlias.generics ∧ typeAlias.type.Uses W

mutual

/-- Without a wish for names, all of them will do. -/
theorem TypeExpr.uses_any : ∀ t : TypeExpr, t.Uses ⟨fun _ => True, fun _ => True⟩
  | ⟨alternatives, _⟩ => alternativesUse_any alternatives

theorem Alternative.uses_any : ∀ a : Alternative, a.Uses ⟨fun _ => True, fun _ => True⟩
  | .hole _ => trivial
  | .named _ args => ⟨trivial, typesUse_any args⟩
  | .fn _ params result _ =>
    ⟨fun _ _ => trivial, paramsUse_any params, TypeExpr.uses_any result⟩

theorem alternativesUse_any : ∀ as : List Alternative,
    alternativesUse ⟨fun _ => True, fun _ => True⟩ as
  | [] => trivial
  | a :: as => ⟨a.uses_any, alternativesUse_any as⟩

theorem typesUse_any : ∀ ts : List TypeExpr, typesUse ⟨fun _ => True, fun _ => True⟩ ts
  | [] => trivial
  | t :: ts => ⟨t.uses_any, typesUse_any ts⟩

theorem paramsUse_any : ∀ ps : List (Option Name × TypeExpr),
    paramsUse ⟨fun _ => True, fun _ => True⟩ ps
  | [] => trivial
  | (_, t) :: ps => ⟨t.uses_any, paramsUse_any ps⟩

end

theorem Record.uses_any (record : Record) : record.Uses ⟨fun _ => True, fun _ => True⟩ :=
  ⟨fun _ _ => trivial, fun field _ => field.2.uses_any⟩

theorem TypeAlias.uses_any (typeAlias : TypeAlias) :
    typeAlias.Uses ⟨fun _ => True, fun _ => True⟩ :=
  ⟨fun _ _ => trivial, typeAlias.type.uses_any⟩

/-! ## Removing sugar -/

section

variable {ε α β γ : Type}

theorem map_bind_except (x : Except ε α) (g : α → β) (k : β → Except ε γ) :
    x.map g >>= k = x >>= fun a => k (g a) := by
  cases x <;> rfl

theorem bind_map_except (x : Except ε α) (k : α → Except ε β) (g : β → γ) :
    (x >>= k).map g = x >>= fun a => (k a).map g := by
  cases x <;> rfl

end

variable {file : String} {f : String → String} {W : Wording}

theorem respellLinks_append (links more : List Link) :
    respellLinks f (links ++ more) = respellLinks f links ++ respellLinks f more := by
  induction links with
  | nil => rfl
  | cons link links ih =>
    obtain ⟨access, _ | args, span⟩ := link <;> simp [respellLinks, ih]

theorem linksUse_append {links more : List Link} :
    linksUse W (links ++ more) ↔ linksUse W links ∧ linksUse W more := by
  induction links with
  | nil => simp [linksUse]
  | cons link links ih =>
    obtain ⟨access, _ | args, span⟩ := link <;> simp [linksUse, ih, and_assoc]

theorem shortCircuitTerm_respell (name : Name) (success residual : Option TypeExpr) (value : Term)
    (rest : List Term) (span : Span) :
    shortCircuitTerm file name (success.map (·.respell f)) (residual.map (·.respell f))
        (value.respell f) (respellTerms f rest) span =
      (shortCircuitTerm file name success residual value rest span).map (Term.respell f) := by
  cases success <;> cases residual <;>
    simp [shortCircuitTerm, Except.map, Term.respell, Expr.respell, respellArms, respellTerms,
      respellLinks, Term.ofName, Term.ofExpr, Expr.span]

theorem prependStatement_respell (statement : Term) (rest : List Term) :
    prependStatement file (statement.respell f) (respellTerms f rest) =
      (prependStatement file statement rest).map (respellTerms f) := by
  obtain ⟨head, chain, span⟩ := statement
  cases head with
  | declaration d =>
    obtain ⟨name, type, _ | ⟨residual, _⟩, value, _⟩ := d
    · rfl
    · simp only [prependStatement, Term.respell, Expr.respell, Declaration.respell, Option.map_some]
      rw [shortCircuitTerm_respell]
      cases shortCircuitTerm file name type residual value rest _ <;> rfl
  | reference name args _ => cases args <;> rfl
  | when choice => obtain ⟨_, _, _ | ⟨_, _, _, _⟩, _⟩ := choice <;> rfl
  | conditional branches => obtain ⟨_, _, _, _, _⟩ := branches; rfl
  | literal | lambda | list => rfl

theorem applyLink_respell (start : Span) (current : Term) (access : Option Member)
    (args : Option Arguments) (span : Span) :
    applyLink file start (current.respell f) ⟨access, args.map (·.respell f), span⟩ =
      (applyLink file start current ⟨access, args, span⟩).map (Term.respell f) := by
  have hlast : ∀ args : Option Arguments,
      respellLinks f [⟨access, args, span⟩] = [⟨access, args.map (·.respell f), span⟩] := by
    intro args
    cases args <;> simp [respellLinks]
  obtain ⟨head, chain, whole⟩ := current
  rcases access with _ | ⟨name, _ | _⟩
  · simp [applyLink, Except.map, Term.respell, respellLinks_append, hlast]
  · simp [applyLink, Except.map, Term.respell, respellLinks_append, hlast]
  · cases args with
    | none => rfl
    | some args =>
      obtain ⟨generics, items, _⟩ := args
      simp [applyLink, Except.map, Term.respell, Expr.respell, Arguments.respell, respellItems,
        respellLinks, Term.ofExpr, Expr.span]

mutual

/-- **Sugar is removed in the same way whatever types are called.** -/
theorem desugarTerm_respell : ∀ t : Term,
    desugarTerm file (t.respell f) = (desugarTerm file t).map (Term.respell f)
  | ⟨head, chain, span⟩ => by
    rw [Term.respell, desugarTerm, desugarTerm, desugarExpr_respell head, map_bind_except,
      bind_map_except]
    exact bind_congr fun h => desugarLinks_respell span chain ⟨h, [], span⟩

theorem desugarLinks_respell (start : Span) : ∀ (links : List Link) (current : Term),
    desugarLinks file start (respellLinks f links) (current.respell f) =
      (desugarLinks file start links current).map (Term.respell f)
  | [], current => rfl
  | ⟨access, none, span⟩ :: links, current => by
    simp only [respellLinks, desugarLinks]
    show applyLink file start _ ⟨access, none, span⟩ >>= _ = (applyLink file start _ _ >>= _).map _
    rw [show applyLink file start (current.respell f) ⟨access, none, span⟩ = _ from
      applyLink_respell start current access none span, map_bind_except, bind_map_except]
    exact bind_congr fun c => desugarLinks_respell start links c
  | ⟨access, some args, span⟩ :: links, current => by
    simp only [respellLinks, desugarLinks, desugarArguments_respell args]
    cases desugarArguments file args with
    | error e => rfl
    | ok args =>
      show applyLink file start _ ⟨access, some (args.respell f), span⟩ >>= _ =
        (applyLink file start _ _ >>= _).map _
      rw [show applyLink file start (current.respell f) ⟨access, some (args.respell f), span⟩ = _ from
        applyLink_respell start current access (some args) span, map_bind_except, bind_map_except]
      exact bind_congr fun c => desugarLinks_respell start links c

theorem desugarArguments_respell : ∀ args : Arguments,
    desugarArguments file (args.respell f) = (desugarArguments file args).map (Arguments.respell f)
  | ⟨generics, items, span⟩ => by
    simp only [Arguments.respell, desugarArguments, desugarItems_respell items]
    cases desugarItems file items <;> rfl

theorem desugarItems_respell : ∀ items : List Argument,
    desugarItems file (respellItems f items) = (desugarItems file items).map (respellItems f)
  | [] => rfl
  | ⟨label, value, span⟩ :: items => by
    simp only [respellItems, desugarItems, desugarTerm_respell value, desugarItems_respell items]
    cases desugarTerm file value <;> cases desugarItems file items <;> rfl

theorem desugarExpr_respell : ∀ e : Expr,
    desugarExpr file (e.respell f) = (desugarExpr file e).map (Expr.respell f)
  | .literal _ _ => rfl
  | .reference name none span => rfl
  | .reference name (some args) span => by
    simp only [Expr.respell, desugarExpr, desugarArguments_respell args]
    cases desugarArguments file args <;> rfl
  | .lambda ⟨generics, params, result, body, span⟩ => by
    simp only [Expr.respell, Lambda.respell, desugarExpr, map_reverse_desugarBackwards,
      desugarBlock_respell body]
    cases desugarBlock file body <;> rfl
  | .declaration d => by
    simp only [Expr.respell, desugarExpr, desugarDeclaration_respell d]
    cases desugarDeclaration file d <;> rfl
  | .conditional ⟨condition, thenBlock, elseIfs, elseBlock, span⟩ => by
    simp only [Expr.respell, desugarExpr, desugarElseIfs_respell elseIfs,
      desugarTerm_respell condition, map_reverse_desugarBackwards, desugarBlock_respell thenBlock,
      desugarBlock_respell elseBlock]
    cases desugarElseIfs file elseIfs <;> cases desugarTerm file condition <;>
      cases desugarBlock file thenBlock <;> cases desugarBlock file elseBlock <;> rfl
  | .list generics items span => by
    simp only [Expr.respell, desugarExpr, desugarTerms_respell items]
    cases desugarTerms file items <;> rfl
  | .when ⟨subject, arms, none, span⟩ => by
    simp only [Expr.respell, desugarExpr, desugarArms_respell arms, desugarTerm_respell subject]
    cases desugarArms file arms <;> cases desugarTerm file subject <;> rfl
  | .when ⟨subject, arms, some ⟨name, body, otherSpan, origin⟩, span⟩ => by
    simp only [Expr.respell, desugarExpr, desugarArms_respell arms, desugarTerm_respell subject,
      map_reverse_desugarBackwards, desugarBlock_respell body]
    cases desugarArms file arms <;> cases desugarTerm file subject <;>
      cases desugarBlock file body <;> rfl

theorem desugarDeclaration_respell : ∀ d : Declaration,
    desugarDeclaration file (d.respell f) = (desugarDeclaration file d).map (Declaration.respell f)
  | ⟨name, type, shortCircuit, value, span⟩ => by
    simp only [Declaration.respell, desugarDeclaration, desugarTerm_respell value]
    cases desugarTerm file value <;> rfl

theorem desugarBlock_respell : ∀ block : List Term,
    desugarBlock file (respellTerms f block) = (desugarBlock file block).map (respellTerms f)
  | [] => rfl
  | t :: ts => by
    simp only [respellTerms, desugarBlock_cons, desugarBlock_respell ts, desugarTerm_respell t]
    cases desugarBlock file ts with
    | error e => rfl
    | ok rest =>
      cases desugarTerm file t with
      | error e => rfl
      | ok statement => exact prependStatement_respell statement rest

theorem desugarTerms_respell : ∀ ts : List Term,
    desugarTerms file (respellTerms f ts) = (desugarTerms file ts).map (respellTerms f)
  | [] => rfl
  | t :: ts => by
    simp only [respellTerms, desugarTerms, desugarTerm_respell t, desugarTerms_respell ts]
    cases desugarTerm file t <;> cases desugarTerms file ts <;> rfl

theorem desugarElseIfs_respell : ∀ branches : List ElseIf,
    desugarElseIfs file (respellElseIfs f branches) =
      (desugarElseIfs file branches).map (respellElseIfs f)
  | [] => rfl
  | ⟨condition, thenBlock, span⟩ :: branches => by
    simp only [respellElseIfs, desugarElseIfs, desugarTerm_respell condition,
      map_reverse_desugarBackwards, desugarBlock_respell thenBlock, desugarElseIfs_respell branches]
    cases desugarTerm file condition <;> cases desugarBlock file thenBlock <;>
      cases desugarElseIfs file branches <;> rfl

theorem desugarArms_respell : ∀ arms : List Arm,
    desugarArms file (respellArms f arms) = (desugarArms file arms).map (respellArms f)
  | [] => rfl
  | ⟨name, type, body, span, origin⟩ :: arms => by
    simp only [respellArms, desugarArms, map_reverse_desugarBackwards, desugarBlock_respell body,
      desugarArms_respell arms]
    cases desugarBlock file body <;> cases desugarArms file arms <;> rfl

end

theorem uses_ofName (name : Name) : (Term.ofName name).Uses W := ⟨trivial, trivial⟩

theorem uses_shortCircuitTerm {name : Name} {success residual : Option TypeExpr} {value t : Term}
    {rest : List Term} {span : Span} (hsuccess : optionUses W success)
    (hresidual : optionUses W residual) (hvalue : value.Uses W) (hrest : termsUse W rest)
    (h : shortCircuitTerm file name success residual value rest span = .ok t) : t.Uses W := by
  rcases success with _ | success <;> rcases residual with _ | residual <;> cases h <;>
    simp_all [Term.Uses, Expr.Uses, linksUse, armsUse, termsUse, optionUses, uses_ofName]

theorem uses_prependStatement {statement : Term} {rest block : List Term}
    (hstatement : statement.Uses W) (hrest : termsUse W rest)
    (h : prependStatement file statement rest = .ok block) : termsUse W block := by
  obtain ⟨-, rfl⟩ | ⟨_, _, _, _, _, t, hhead, ht, rfl⟩ := prependStatement_cases h
  · exact ⟨hstatement, hrest⟩
  · obtain ⟨head, chain, _⟩ := statement
    obtain rfl : head = _ := hhead
    obtain ⟨⟨htype, hresidual, hvalue⟩, -⟩ := hstatement
    exact ⟨uses_shortCircuitTerm htype (hresidual _ rfl) hvalue hrest ht, trivial⟩

theorem uses_applyLink {start : Span} {current t : Term} {access : Option Member}
    {args : Option Arguments} {span : Span} (hcurrent : current.Uses W)
    (hargs : ∀ a ∈ args, a.Uses W)
    (h : applyLink file start current ⟨access, args, span⟩ = .ok t) : t.Uses W := by
  obtain ⟨name, ⟨generics, items, _⟩, rfl, rfl, rfl⟩ | ⟨-, rfl⟩ := applyLink_cases h
  · obtain ⟨hgenerics, hitems⟩ := hargs _ rfl
    exact ⟨⟨hgenerics, hcurrent, hitems⟩, trivial⟩
  · obtain ⟨head, chain, _⟩ := current
    refine ⟨hcurrent.1, linksUse_append.2 ⟨hcurrent.2, ?_⟩⟩
    cases args with
    | none => trivial
    | some args => exact ⟨hargs args rfl, trivial⟩

/-- Names of some kind stay of that kind. -/
def usesExpansion (W : Wording) : Expansion where
  term t t' := t.Uses W → t'.Uses W
  links links t t' := linksUse W links → t.Uses W → t'.Uses W
  arguments args args' := args.Uses W → args'.Uses W
  items items items' := itemsUse W items → itemsUse W items'
  expr e e' := e.Uses W → e'.Uses W
  block block block' := termsUse W block → termsUse W block'
  terms ts ts' := termsUse W ts → termsUse W ts'
  elseIfs branches branches' := elseIfsUse W branches → elseIfsUse W branches'
  arms arms arms' := armsUse W arms → armsUse W arms'

theorem closed_usesExpansion : (usesExpansion W).Closed file where
  term hhead hchain ht := hchain ht.2 ⟨hhead ht.1, trivial⟩
  links_nil _ ht := ht
  member hnext hlinks h ht := hlinks h (uses_applyLink ht (by simp) hnext)
  call hargs hnext hlinks h ht :=
    hlinks h.2 (uses_applyLink ht (fun _ ha => Option.some.inj ha ▸ hargs h.1) hnext)
  arguments hitems h := ⟨h.1, hitems h.2⟩
  items_nil := id
  items_cons hvalue hitems h := ⟨hvalue h.1, hitems h.2⟩
  literal := id
  name := id
  reference hargs := hargs
  lambda hbody h := ⟨h.1, h.2.1, h.2.2.1, hbody h.2.2.2⟩
  declaration hvalue h := ⟨h.1, h.2.1, hvalue h.2.2⟩
  conditional hcondition hthen helseIfs helse h :=
    ⟨hcondition h.1, hthen h.2.1, helseIfs h.2.2.1, helse h.2.2.2⟩
  list hitems h := ⟨h.1, hitems h.2⟩
  whenAll hsubject harms h := ⟨hsubject h.1, harms h.2⟩
  whenOther hsubject harms hbody h := ⟨hsubject h.1, harms h.2.1, hbody h.2.2⟩
  block_nil := id
  statement ht hrest hblock h := uses_prependStatement (ht h.1) (hrest h.2) hblock
  terms_nil := id
  terms_cons ht hts h := ⟨ht h.1, hts h.2⟩
  elseIfs_nil := id
  elseIfs_cons hcondition hthen hbranches h :=
    ⟨hcondition h.1, hthen h.2.1, hbranches h.2.2⟩
  arms_nil := id
  arms_cons hbody harms h := ⟨h.1, hbody h.2.1, harms h.2.2⟩

/-- Removing sugar brings in no other names. -/
theorem uses_desugarDeclaration {d d' : Declaration} (hd : d.Uses W)
    (h : desugarDeclaration file d = .ok d') : d'.Uses W :=
  closed_usesExpansion.of_desugarDeclaration h hd

/-! ## Declarations -/

theorem Declaration.name_respell (f : String → String) (d : Declaration) :
    (d.respell f).name = d.name := by
  obtain ⟨name, type, shortCircuit, value, span⟩ := d
  rfl

theorem Declaration.type_respell (f : String → String) (d : Declaration) :
    (d.respell f).type = d.type.map (·.respell f) := by
  obtain ⟨name, type, shortCircuit, value, span⟩ := d
  rfl

theorem Declaration.uses_type {d : Declaration} (hd : d.Uses W) : optionUses W d.type := by
  obtain ⟨name, type, shortCircuit, value, span⟩ := d
  exact hd.1

theorem desugarTopDeclaration_respell (f : String → String) (d : Declaration) :
    desugarTopDeclaration file (d.respell f) =
      (desugarTopDeclaration file d).map (Declaration.respell f) := by
  have hd : desugarDeclaration file (d.respell f) =
      (desugarDeclaration file d).map (Declaration.respell f) := desugarDeclaration_respell d
  obtain ⟨name, type, shortCircuit, value, span⟩ := d
  cases shortCircuit with
  | none => exact hd
  | some shortCircuit => rfl

theorem uses_desugarTopDeclaration {d d' : Declaration} (hd : d.Uses W)
    (h : desugarTopDeclaration file d = .ok d') : d'.Uses W := by
  unfold desugarTopDeclaration at h
  split at h
  · cases h
  · exact uses_desugarDeclaration hd h

/-! ## Files -/

/-- A declaration of a file with other names for the types in its value. Struct, interfaces and type
aliases stay as they are. -/
def TopLevel.respell (f : String → String) : TopLevel → TopLevel
  | .declaration d => .declaration (d.respell f)
  | other => other

/-- A file with other names for the types in the values that it declares. -/
def SourceFile.respell (f : String → String) (file : SourceFile) : SourceFile :=
  ⟨file.name, { file.tree with declarations := file.tree.declarations.map (TopLevel.respell f) }⟩

end UnionChecker.Syntax
