import UnionChecker.Proofs.Value.Names
/-!
# Other names for generics, and the order of types

`Ty.respell` gives the generics of a type other names. Members of a union are sorted by their names,
so a type with other names is the same type only if its unions stay sorted. A `Respelling` keeps the
order of generics in every text where they occur, and therefore the order of types (`le_respell`).

The argument reads two names from the left. As long as they agree, both readings are at the same
place of a name (`TokenState`), so at the first difference either two characters or two generics stand
against each other.
-/

namespace UnionChecker

namespace Ty

mutual

/-- The type with other names for its generics, also where it binds them. -/
def respell (f : String → String) : Ty → Ty
  | .var x => .var (f x)
  | .named decl args => .named decl (respellAll f args)
  | .fn generics params result => .fn (generics.map f) (respellParams f params) (respell f result)
  | .union ms => .union (respellAll f ms)

def respellAll (f : String → String) : List Ty → List Ty
  | [] => []
  | t :: ts => respell f t :: respellAll f ts

def respellParams (f : String → String) : List (String × Ty) → List (String × Ty)
  | [] => []
  | (x, t) :: ps => (x, respell f t) :: respellParams f ps

end

section

variable {f : String → String}

theorem respellAll_eq_map : ∀ ts : List Ty, respellAll f ts = ts.map (respell f)
  | [] => rfl
  | t :: ts => by simp [respellAll, respellAll_eq_map ts]

theorem respellParams_eq_map :
    ∀ ps : List (String × Ty), respellParams f ps = ps.map fun p => (p.1, respell f p.2)
  | [] => rfl
  | (x, t) :: ps => by simp [respellParams, respellParams_eq_map ps]

@[simp] theorem respell_var {x : String} : respell f (.var x) = .var (f x) := by rw [respell]

@[simp] theorem respell_named {decl : Nominal} {args : List Ty} :
    respell f (.named decl args) = .named decl (args.map (respell f)) := by
  rw [respell, respellAll_eq_map]

@[simp] theorem respell_fn {gs : List String} {ps : List (String × Ty)} {r : Ty} :
    respell f (.fn gs ps r) =
      .fn (gs.map f) (ps.map fun p => (p.1, respell f p.2)) (respell f r) := by
  rw [respell, respellParams_eq_map]

@[simp] theorem respell_union {ms : List Ty} :
    respell f (.union ms) = .union (ms.map (respell f)) := by
  rw [respell, respellAll_eq_map]

end

end Ty

/-! ## Vocabularies -/

/-- The names that types are made of. -/
structure Vocabulary where
  generic : String → Prop
  decl : Nominal → Prop

namespace Ty

/-- All names in a type are of a vocabulary. -/
inductive Over (V : Vocabulary) : Ty → Prop
  | var {x : String} (h : V.generic x) : Over V (.var x)
  | named {decl : Nominal} {args : List Ty} (hdecl : V.decl decl) (h : ∀ t ∈ args, Over V t) :
      Over V (.named decl args)
  | fn {gs : List String} {ps : List (String × Ty)} {r : Ty} (hgs : ∀ g ∈ gs, V.generic g)
      (hps : ∀ p ∈ ps, Over V p.2) (hr : Over V r) : Over V (.fn gs ps r)
  | union {ms : List Ty} (h : ∀ m ∈ ms, Over V m) : Over V (.union ms)

section

variable {V : Vocabulary}

@[simp] theorem over_var {x : String} : Over V (.var x) ↔ V.generic x :=
  ⟨fun h => by cases h; assumption, .var⟩

@[simp] theorem over_named {decl : Nominal} {args : List Ty} :
    Over V (.named decl args) ↔ V.decl decl ∧ ∀ t ∈ args, Over V t :=
  ⟨fun h => by cases h with | named hdecl h => exact ⟨hdecl, h⟩, fun h => .named h.1 h.2⟩

@[simp] theorem over_fn {gs : List String} {ps : List (String × Ty)} {r : Ty} :
    Over V (.fn gs ps r) ↔ (∀ g ∈ gs, V.generic g) ∧ (∀ p ∈ ps, Over V p.2) ∧ Over V r :=
  ⟨fun h => by cases h with | fn hgs hps hr => exact ⟨hgs, hps, hr⟩, fun h => .fn h.1 h.2.1 h.2.2⟩

@[simp] theorem over_union {ms : List Ty} : Over V (.union ms) ↔ ∀ m ∈ ms, Over V m :=
  ⟨fun h => by cases h; assumption, .union⟩

end

end Ty

/-- In every text where a comma or a bracket follows, `x` and `y` are in the same order as `x'` and
`y'`. -/
def SameOrder (x y x' y' : String) : Prop :=
  ∀ c ∈ [',', '>'], ∀ d ∈ [',', '>'],
    (x.toList ++ [c] < y.toList ++ [d] ↔ x'.toList ++ [c] < y'.toList ++ [d])

/-- A text without commas and brackets. -/
def Bare (x : String) : Prop := ',' ∉ x.toList ∧ '>' ∉ x.toList

/-- Other names for the generics of a vocabulary, in the same order. The positional names that the
comparison of function types uses stay. Of the other names that are written where types are, only
the difference from generics counts. -/
structure Respelling extends Vocabulary where
  spell : String → String
  written : String → Prop
  written_of_generic {x : String} : generic x → written x
  spell_inj {x y : String} : written x → written y → spell x = spell y → x = y
  positional (depth index : Nat) : generic (Ty.positional depth index)
  spell_positional (depth index : Nat) :
    spell (Ty.positional depth index) = Ty.positional depth index
  bare {x : String} : generic x → Bare x ∧ Bare (spell x)
  order {x y : String} : generic x → generic y → x ≠ y → SameOrder x y (spell x) (spell y)
  legible {d : Nominal} : decl d → d.ref.Legible
  builtin {t : Nominal × List Ty} : t ∈ Library.defaultTypes → decl t.1

/-! ## Names as sequences of characters and generics -/

/-- A character of a name, or a generic in it. -/
abbrev Token := Char ⊕ String

namespace Token

def chars : Token → List Char
  | .inl c => [c]
  | .inr x => x.toList

/-- The characters of a text. -/
def letters (text : String) : List Token := text.toList.map .inl

theorem chars_letters (text : String) : (letters text).flatMap chars = text.toList := by
  simp [letters, List.flatMap_map, chars]

end Token

/-- Sequences with a separator between them. -/
def joined {α : Type} (sep : List α) : List (List α) → List α
  | [] => []
  | w :: ws => w ++ ws.flatMap (sep ++ ·)

theorem flatMap_joined {α β : Type} (f : α → List β) (sep : List α) (ws : List (List α)) :
    (joined sep ws).flatMap f = joined (sep.flatMap f) (ws.map (List.flatMap f)) := by
  cases ws with
  | nil => rfl
  | cons w ws => simp [joined, List.flatMap_assoc, List.flatMap_map]

theorem map_joined {α β : Type} (f : α → β) (sep : List α) (ws : List (List α)) :
    (joined sep ws).map f = joined (sep.map f) (ws.map (List.map f)) := by
  cases ws with
  | nil => rfl
  | cons w ws => simp [joined, List.map_flatMap, List.flatMap_map]

theorem toList_intercalate_eq_joined (sep : String) (texts : List String) :
    (sep.intercalate texts).toList = joined sep.toList (texts.map String.toList) := by
  rw [String.toList_intercalate]
  cases texts with
  | nil => rfl
  | cons text texts => rw [List.map_cons, Ty.intercalate_cons, joined]

namespace Ty

open Token

/-- What stands between angle brackets, with the brackets, or nothing. -/
def bracketTokens : List (List Token) → List Token
  | [] => []
  | ws => letters "<" ++ joined (letters ", ") ws ++ letters ">"

mutual

/-- The name of a type as a sequence of characters and generics. -/
def tokens : Ty → List Token
  | .var x => letters "<" ++ [.inr x] ++ letters ">"
  | .named decl args => letters decl.ref.display ++ bracketTokens (tokensAll args)
  | .fn generics params result =>
    bracketTokens (generics.map fun g => [.inr g]) ++ letters "(" ++
      joined (letters ", ") (tokensParams params) ++ letters ") ~> " ++ tokens result
  | .union ms => joined (letters " | ") (tokensAll ms)

def tokensAll : List Ty → List (List Token)
  | [] => []
  | t :: ts => tokens t :: tokensAll ts

def tokensParams : List (String × Ty) → List (List Token)
  | [] => []
  | (_, t) :: ps => tokens t :: tokensParams ps

end

theorem tokensAll_eq_map : ∀ ts : List Ty, tokensAll ts = ts.map tokens
  | [] => rfl
  | t :: ts => by simp [tokensAll, tokensAll_eq_map ts]

theorem tokensParams_eq_map : ∀ ps : List (String × Ty), tokensParams ps = ps.map fun p => tokens p.2
  | [] => rfl
  | (_, t) :: ps => by simp [tokensParams, tokensParams_eq_map ps]

theorem nameParams_eq_map : ∀ ps : List (String × Ty), nameParams ps = ps.map fun p => name p.2
  | [] => rfl
  | (_, t) :: ps => by simp [nameParams, nameParams_eq_map ps]

theorem toList_bracketed {names : List String} {ws : List (List Token)}
    (h : names.map String.toList = ws.map (List.flatMap chars)) :
    (bracketed names).toList = (bracketTokens ws).flatMap chars := by
  cases names with
  | nil => cases ws with
    | nil => rfl
    | cons w ws => simp at h
  | cons name names => cases ws with
    | nil => simp at h
    | cons w ws =>
      simp only [bracketed, bracketTokens, String.toList_append, toList_intercalate_eq_joined, h,
        List.flatMap_append, flatMap_joined, chars_letters]

theorem toList_name (t : Ty) : t.name.toList = t.tokens.flatMap chars := by
  induction t with
  | var x => simp [name, tokens, letters, chars]
  | named decl args ih =>
    rw [name, tokens, String.toList_append, List.flatMap_append, chars_letters]
    refine congrArg (decl.ref.display.toList ++ ·) (toList_bracketed ?_)
    rw [nameAll_eq_map, tokensAll_eq_map, List.map_map, List.map_map]
    exact List.map_congr_left ih
  | fn gs ps r ihp ihr =>
    have hgs : (bracketed gs).toList = (bracketTokens (gs.map fun g => [.inr g])).flatMap chars :=
      toList_bracketed (by simp [Function.comp_def, chars])
    have hps : (nameParams ps).map String.toList = (tokensParams ps).map (List.flatMap chars) := by
      rw [nameParams_eq_map, tokensParams_eq_map, List.map_map, List.map_map]
      exact List.map_congr_left ihp
    simp only [name, tokens, String.toList_append, List.flatMap_append, chars_letters, flatMap_joined,
      toList_intercalate_eq_joined, hgs, hps, ihr]
  | union ms ih =>
    have hms : (nameAll ms).map String.toList = (tokensAll ms).map (List.flatMap chars) := by
      rw [nameAll_eq_map, tokensAll_eq_map, List.map_map, List.map_map]
      exact List.map_congr_left ih
    rw [name, tokens, toList_intercalate_eq_joined, flatMap_joined, chars_letters, hms]

theorem map_letters (f : String → String) (text : String) :
    (letters text).map (Sum.map id f) = letters text := by
  simp [letters]

theorem map_bracketTokens (f : String → String) (ws : List (List Token)) :
    (bracketTokens ws).map (Sum.map id f) = bracketTokens (ws.map (List.map (Sum.map id f))) := by
  cases ws with
  | nil => rfl
  | cons w ws => simp [bracketTokens, map_joined, map_letters]

/-- Other names for the generics change the generics of the name, and nothing else. -/
theorem tokens_respell (f : String → String) (t : Ty) :
    (t.respell f).tokens = t.tokens.map (Sum.map id f) := by
  induction t with
  | var x => simp [tokens, map_letters]
  | named decl args ih =>
    have hargs : (args.map (respell f)).map tokens =
        (args.map tokens).map (List.map (Sum.map id f)) := by
      rw [List.map_map, List.map_map]
      exact List.map_congr_left ih
    rw [respell_named, tokens, tokens, tokensAll_eq_map, tokensAll_eq_map, hargs, List.map_append,
      map_letters, map_bracketTokens]
  | fn gs ps r ihp ihr =>
    have hps : (ps.map fun p => (p.1, respell f p.2)).map (fun p => tokens p.2) =
        (ps.map fun p => tokens p.2).map (List.map (Sum.map id f)) := by
      rw [List.map_map, List.map_map]
      exact List.map_congr_left ihp
    rw [respell_fn, tokens, tokens, tokensParams_eq_map, tokensParams_eq_map, hps]
    simp only [List.map_append, map_letters, map_joined, map_bracketTokens, ihr, List.map_map,
      Function.comp_def, List.map_cons, List.map_nil, Sum.map_inr]
  | union ms ih =>
    have hms : (ms.map (respell f)).map tokens =
        (ms.map tokens).map (List.map (Sum.map id f)) := by
      rw [List.map_map, List.map_map]
      exact List.map_congr_left ih
    rw [respell_union, tokens, tokens, tokensAll_eq_map, tokensAll_eq_map, hms, map_joined, map_letters]

theorem mem_joined {sep : List Token} {token : Token} {ws : List (List Token)}
    (h : token ∈ joined sep ws) : token ∈ sep ∨ ∃ w ∈ ws, token ∈ w := by
  cases ws with
  | nil => cases h
  | cons w ws =>
    simp only [joined, List.mem_append, List.mem_flatMap] at h
    rcases h with h | ⟨v, hv, h | h⟩
    · exact .inr ⟨w, by simp, h⟩
    · exact .inl h
    · exact .inr ⟨v, by simp [hv], h⟩

theorem inr_not_mem_letters {x text : String} : .inr x ∉ letters text := by
  simp [letters]

theorem mem_bracketTokens {x : String} {ws : List (List Token)} (h : .inr x ∈ bracketTokens ws) :
    ∃ w ∈ ws, .inr x ∈ w := by
  cases ws with
  | nil => cases h
  | cons w ws =>
    simp only [bracketTokens, List.mem_append, inr_not_mem_letters, false_or, or_false] at h
    exact (mem_joined h).resolve_left inr_not_mem_letters

theorem generic_of_mem_tokens {V : Vocabulary} {t : Ty} {x : String} (ht : t.Over V)
    (h : .inr x ∈ t.tokens) : V.generic x := by
  induction t with
  | var y =>
    obtain rfl : x = y := by simpa [tokens, letters] using h
    exact over_var.1 ht
  | named decl args ih =>
    rw [tokens, List.mem_append, or_iff_right inr_not_mem_letters, tokensAll_eq_map] at h
    obtain ⟨w, hw, hx⟩ := mem_bracketTokens h
    obtain ⟨t, hmem, rfl⟩ := List.mem_map.1 hw
    exact ih t hmem ((over_named.1 ht).2 t hmem) hx
  | fn gs ps r ihp ihr =>
    obtain ⟨hgs, hps, hr⟩ := over_fn.1 ht
    simp only [tokens, List.mem_append, inr_not_mem_letters, or_false, tokensParams_eq_map] at h
    rcases h with (h | h) | h
    · obtain ⟨w, hw, hx⟩ := mem_bracketTokens h
      obtain ⟨g, hg, rfl⟩ := List.mem_map.1 hw
      obtain rfl : x = g := by simpa using hx
      exact hgs x hg
    · obtain ⟨w, hw, hx⟩ := (mem_joined h).resolve_left inr_not_mem_letters
      obtain ⟨p, hp, rfl⟩ := List.mem_map.1 hw
      exact ihp p hp (hps p hp) hx
    · exact ihr hr h
  | union ms ih =>
    rw [tokens, tokensAll_eq_map] at h
    obtain ⟨w, hw, hx⟩ := (mem_joined h).resolve_left inr_not_mem_letters
    obtain ⟨m, hm, rfl⟩ := List.mem_map.1 hw
    exact ih m hm (over_union.1 ht m hm) hx

end Ty

/-! ## Places of a name -/

/-- Where one is in a name: in a word, before or after a generic, after the comma between two
generics, or somewhere else. -/
inductive TokenState where
  | text
  | word
  | generic
  | named
  | comma

namespace TokenState

open Token

/-- Where one is after a character or a generic. Nowhere can both of them follow. -/
def next : TokenState → Token → Option TokenState
  | .text, .inl c => some (if c = '<' then .generic else if isWordChar c then .word else .text)
  | .word, .inl c => some (if isWordChar c then .word else .text)
  | .generic, .inr _ => some .named
  | .named, .inl c => if c = ',' then some .comma else if c = '>' then some .text else none
  | .comma, .inl c => if c = ' ' then some .generic else none
  | _, _ => none

/-- Where a type may end. -/
def AtEnd (p : TokenState) : Prop := p = .text ∨ p = .word

/-- A sequence that can stand where a type does. -/
def Reads (w : List Token) : Prop := ∃ p, AtEnd p ∧ w.foldlM next .text = some p

/-- A text that ends a word and a type. -/
def Separates (w : List Token) : Prop := ∀ p, AtEnd p → w.foldlM next p = some .text

theorem separates_comma : Separates (letters ", ") := by
  rintro p (rfl | rfl) <;> rfl

theorem separates_bar : Separates (letters " | ") := by
  rintro p (rfl | rfl) <;> rfl

theorem separates_bracket : Separates (letters ">") := by
  rintro p (rfl | rfl) <;> rfl

theorem separates_arrow : Separates (letters ") ~> ") := by
  rintro p (rfl | rfl) <;> rfl

theorem foldlM_append_of {w v : List Token} {p q : TokenState} (h : w.foldlM next p = some q) :
    (w ++ v).foldlM next p = v.foldlM next q := by
  rw [List.foldlM_append, h]
  rfl

theorem Reads.separated {w sep : List Token} (h : Reads w) (hsep : Separates sep) :
    (w ++ sep).foldlM next .text = some .text := by
  obtain ⟨p, hp, hw⟩ := h
  rw [foldlM_append_of hw, hsep p hp]

theorem reads_following {sep : List Token} (hsep : Separates sep) : ∀ {ws : List (List Token)}
    {p : TokenState}, AtEnd p → (∀ w ∈ ws, Reads w) →
    ∃ q, AtEnd q ∧ (ws.flatMap (sep ++ ·)).foldlM next p = some q
  | [], p, hp, _ => ⟨p, hp, rfl⟩
  | w :: ws, p, hp, h => by
    rw [List.forall_mem_cons] at h
    obtain ⟨q, hq, hw⟩ := h.1
    obtain ⟨q', hq', hws⟩ := reads_following hsep hq h.2
    refine ⟨q', hq', ?_⟩
    rw [List.flatMap_cons, List.append_assoc, foldlM_append_of (hsep p hp), foldlM_append_of hw, hws]

theorem reads_joined {sep : List Token} (hsep : Separates sep) {ws : List (List Token)}
    (h : ∀ w ∈ ws, Reads w) : Reads (joined sep ws) := by
  cases ws with
  | nil => exact ⟨.text, .inl rfl, rfl⟩
  | cons w ws =>
    rw [List.forall_mem_cons] at h
    obtain ⟨p, hp, hw⟩ := h.1
    obtain ⟨q, hq, hws⟩ := reads_following hsep hp h.2
    exact ⟨q, hq, by rw [joined, foldlM_append_of hw, hws]⟩

/-- After a word, brackets hold types. -/
theorem reads_brackets {ws : List (List Token)} (h : ∀ w ∈ ws, Reads w) :
    ∃ p, AtEnd p ∧ (Ty.bracketTokens ws).foldlM next .word = some p := by
  cases ws with
  | nil => exact ⟨.word, .inr rfl, rfl⟩
  | cons w ws =>
    have hopen : (letters "<").foldlM next .word = some .text := rfl
    refine ⟨.text, .inl rfl, ?_⟩
    rw [Ty.bracketTokens, List.append_assoc, foldlM_append_of hopen]
    · exact (reads_joined separates_comma h).separated separates_bracket
    · simp

/-- At the start of a type, brackets hold generics. -/
theorem reads_generics (gs : List String) :
    (Ty.bracketTokens (gs.map fun g => [.inr g])).foldlM next .text = some .text := by
  cases gs with
  | nil => rfl
  | cons g gs =>
    have hmore : ∀ gs : List String,
        (((gs.map fun g => [Sum.inr g]).flatMap (letters ", " ++ ·)).foldlM next .named) =
          some TokenState.named := by
      intro gs
      induction gs with
      | nil => rfl
      | cons g gs ih =>
        have hg : (letters ", " ++ [Sum.inr g]).foldlM next .named = some .named := rfl
        rw [List.map_cons, List.flatMap_cons, foldlM_append_of hg, ih]
    have hopen : (letters "<" ++ [Sum.inr g]).foldlM next .text = some .named := rfl
    rw [List.map_cons, Ty.bracketTokens, joined, List.append_assoc, List.append_assoc,
      ← List.append_assoc, foldlM_append_of hopen, foldlM_append_of (hmore gs)]
    · rfl
    · simp

theorem reads_word : ∀ {cs : List Char}, cs ≠ [] → (∀ c ∈ cs, isWordChar c = true) → ∀ {p : TokenState},
    AtEnd p → (cs.map Sum.inl).foldlM next p = some .word
  | c :: cs, _, h, p, hp => by
    have hc : isWordChar c = true := h c (by simp)
    have hlt : c ≠ '<' := by
      rintro rfl
      exact absurd hc (by decide)
    have hnext : next p (.inl c) = some .word := by
      rcases hp with rfl | rfl <;> simp [next, hc, hlt]
    rw [List.map_cons, List.foldlM_cons, hnext]
    cases cs with
    | nil => rfl
    | cons d cs => exact reads_word (by simp) (fun x hx => h x (by simp [hx])) (.inr rfl)

theorem reads_tokens {V : Vocabulary} (hV : ∀ {d}, V.decl d → d.ref.Legible) {t : Ty}
    (h : t.Over V) : Reads t.tokens := by
  induction t with
  | var x => exact ⟨.text, .inl rfl, rfl⟩
  | named decl args ih =>
    obtain ⟨hdecl, hargs⟩ := Ty.over_named.1 h
    have hword := reads_word (hV hdecl).display_ne (hV hdecl).isWordChar (.inl rfl : AtEnd .text)
    obtain ⟨p, hp, hbrackets⟩ := reads_brackets (List.forall_mem_map.2 fun t ht =>
      ih t ht (hargs t ht))
    exact ⟨p, hp, by rw [Ty.tokens, letters, foldlM_append_of hword, Ty.tokensAll_eq_map, hbrackets]⟩
  | fn gs ps r ihp ihr =>
    obtain ⟨-, hps, hr⟩ := Ty.over_fn.1 h
    have hopen : (letters "(").foldlM next .text = some .text := rfl
    have hparams : Reads (joined (letters ", ") (Ty.tokensParams ps)) := by
      rw [Ty.tokensParams_eq_map]
      exact reads_joined separates_comma (List.forall_mem_map.2 fun p hp => ihp p hp (hps p hp))
    obtain ⟨p, hp, hresult⟩ := ihr hr
    refine ⟨p, hp, ?_⟩
    rw [Ty.tokens, List.append_assoc, List.append_assoc, List.append_assoc,
      foldlM_append_of (reads_generics gs), foldlM_append_of hopen, ← List.append_assoc,
      foldlM_append_of (hparams.separated separates_arrow), hresult]
  | union ms ih =>
    rw [Ty.tokens, Ty.tokensAll_eq_map]
    exact reads_joined separates_bar (List.forall_mem_map.2 fun m hm =>
      ih m hm (Ty.over_union.1 h m hm))

end TokenState

/-! ## The order of names -/

theorem append_lt_append_iff {cs ds : List Char} : ∀ (as : List Char),
    as ++ cs < as ++ ds ↔ cs < ds
  | [] => Iff.rfl
  | a :: as => by
    rw [List.cons_append, List.cons_append, List.cons_lt_cons_self]
    exact append_lt_append_iff as

/-- Where neither text goes on as the other, what comes later does not count. -/
theorem append_lt_iff {cs ds : List Char} : ∀ {as bs : List Char}, ¬ as <+: bs → ¬ bs <+: as →
    (as ++ cs < bs ++ ds ↔ as < bs)
  | [], _, h, _ => (h (List.nil_prefix)).elim
  | _ :: _, [], _, h => (h (List.nil_prefix)).elim
  | a :: as, b :: bs, h, h' => by
    rw [List.cons_append, List.cons_append, List.cons_lt_cons_iff, List.cons_lt_cons_iff]
    refine or_congr_right (and_congr_right ?_)
    rintro rfl
    exact append_lt_iff (by simpa using h) (by simpa using h')

theorem not_prefix_of_bare {x y : String} {c d : Char} (hy : c ∉ y.toList) (hxy : x ≠ y) :
    ¬ x.toList ++ [c] <+: y.toList ++ [d] := by
  intro h
  rcases List.prefix_concat_iff.1 h with h | h
  · exact hxy (String.toList_inj.1 (List.append_inj' h rfl).1)
  · exact hy (h.subset (by simp))

namespace Respelling

open Token TokenState

variable (S : Respelling)

/-- Two generics before a comma or a bracket. -/
theorem order_append {x y : String} (hx : S.generic x) (hy : S.generic y) (hxy : x ≠ y) {c d : Char}
    (hc : c ∈ [',', '>']) (hd : d ∈ [',', '>']) {u v u' v' : List Char} :
    x.toList ++ c :: u < y.toList ++ d :: v ↔
      (S.spell x).toList ++ c :: u' < (S.spell y).toList ++ d :: v' := by
  have hne : S.spell x ≠ S.spell y := fun h =>
    hxy (S.spell_inj (S.written_of_generic hx) (S.written_of_generic hy) h)
  have hbare : ∀ {c : Char} {x : String}, c ∈ [',', '>'] → Bare x → c ∉ x.toList := by
    rintro c x hc ⟨h, h'⟩
    rcases List.mem_pair.1 hc with rfl | rfl
    · exact h
    · exact h'
  rw [List.append_cons x.toList, List.append_cons y.toList, List.append_cons (S.spell x).toList,
    List.append_cons (S.spell y).toList,
    append_lt_iff (not_prefix_of_bare (hbare hc (S.bare hy).1) hxy)
      (not_prefix_of_bare (hbare hd (S.bare hx).1) hxy.symm),
    append_lt_iff (not_prefix_of_bare (hbare hc (S.bare hy).2) hne)
      (not_prefix_of_bare (hbare hd (S.bare hx).2) hne.symm)]
  exact S.order hx hy hxy c hc d hd

/-- After a generic there is a comma or a bracket. -/
theorem exists_of_named {w : List Token} {q : TokenState} (h : w.foldlM next .named = some q)
    (hq : AtEnd q) : ∃ c w', w = .inl c :: w' ∧ c ∈ [',', '>'] := by
  cases w with
  | nil =>
    cases h
    rcases hq with hq | hq <;> cases hq
  | cons token w =>
    rw [List.foldlM_cons] at h
    cases token with
    | inr x => cases h
    | inl c =>
      refine ⟨c, w, rfl, ?_⟩
      by_contra hc
      have hnone : next .named (.inl c) = none := by
        simp only [List.mem_cons, List.not_mem_nil, or_false, not_or] at hc
        simp [next, hc]
      rw [hnone] at h
      cases h

/-- Two readings from the same place are in the same order whatever generics are called. -/
theorem chars_lt_iff : ∀ {w v : List Token} {p q q' : TokenState}, w.foldlM next p = some q →
    v.foldlM next p = some q' → AtEnd q → AtEnd q' → (∀ x, .inr x ∈ w → S.generic x) →
    (∀ x, .inr x ∈ v → S.generic x) →
    (w.flatMap chars < v.flatMap chars ↔
      (w.map (Sum.map id S.spell)).flatMap chars < (v.map (Sum.map id S.spell)).flatMap chars)
  | [], [], _, _, _, _, _, _, _, _, _ => Iff.rfl
  | [], .inl c :: v, _, _, _, _, _, _, _, _, _ => by
    simp [chars]
  | .inl c :: w, [], _, _, _, _, _, _, _, _, _ => by
    simp [chars]
  | [], .inr y :: v, p, q, q', hw, hv, hq, _, _, _ => by
    cases hw
    rw [List.foldlM_cons] at hv
    rcases hq with rfl | rfl <;> cases hv
  | .inr x :: w, [], p, q, q', hw, hv, _, hq', _, _ => by
    cases hv
    rw [List.foldlM_cons] at hw
    rcases hq' with rfl | rfl <;> cases hw
  | .inl c :: w, .inr y :: v, p, q, q', hw, hv, _, _, _, _ => by
    rw [List.foldlM_cons] at hw hv
    -- no state reads both a character and a generic
    cases p <;> first | cases hw | cases hv
  | .inr x :: w, .inl c :: v, p, q, q', hw, hv, _, _, _, _ => by
    rw [List.foldlM_cons] at hw hv
    cases p <;> first | cases hw | cases hv
  | .inl c :: w, .inl d :: v, p, q, q', hw, hv, hq, hq', hgw, hgv => by
    simp only [List.map_cons, Sum.map_inl, id, List.flatMap_cons, chars, List.singleton_append,
      List.cons_lt_cons_iff]
    refine or_congr_right (and_congr_right ?_)
    rintro rfl
    rw [List.foldlM_cons, Option.bind_eq_bind, Option.bind_eq_some_iff] at hw hv
    obtain ⟨r, hr, hw⟩ := hw
    obtain ⟨r', hr', hv⟩ := hv
    obtain rfl : r = r' := Option.some.inj (hr.symm.trans hr')
    exact chars_lt_iff hw hv hq hq' (fun x hx => hgw x (by simp [hx])) fun x hx => hgv x (by simp [hx])
  | .inr x :: w, .inr y :: v, p, q, q', hw, hv, hq, hq', hgw, hgv => by
    have hp : p = .generic := by
      rw [List.foldlM_cons] at hw
      cases p <;> first | rfl | cases hw
    subst hp
    have hw : w.foldlM next .named = some q := hw
    have hv : v.foldlM next .named = some q' := hv
    simp only [List.map_cons, Sum.map_inr, List.flatMap_cons, chars]
    by_cases hxy : x = y
    · subst hxy
      rw [append_lt_append_iff, append_lt_append_iff]
      exact chars_lt_iff hw hv hq hq' (fun x hx => hgw x (by simp [hx]))
        fun x hx => hgv x (by simp [hx])
    -- if one generic starts with the other, what follows the shorter one decides
    · obtain ⟨c, w, rfl, hc⟩ := exists_of_named hw hq
      obtain ⟨d, v, rfl, hd⟩ := exists_of_named hv hq'
      exact S.order_append (hgw x (by simp)) (hgv y (by simp)) hxy hc hd

/-- **The order of types does not depend on what their generics are called.** -/
theorem name_lt_iff {t u : Ty} (ht : t.Over S.toVocabulary) (hu : u.Over S.toVocabulary) :
    t.name < u.name ↔ (t.respell S.spell).name < (u.respell S.spell).name := by
  obtain ⟨p, hp, htokens⟩ := reads_tokens S.legible ht
  obtain ⟨q, hq, hutokens⟩ := reads_tokens S.legible hu
  rw [String.lt_iff, String.lt_iff, Ty.toList_name, Ty.toList_name,
    Ty.toList_name, Ty.toList_name, Ty.tokens_respell, Ty.tokens_respell]
  exact S.chars_lt_iff htokens hutokens hp hq (fun x hx => Ty.generic_of_mem_tokens ht hx)
    fun x hx => Ty.generic_of_mem_tokens hu hx

theorem le_respell {t u : Ty} (ht : t.Over S.toVocabulary) (hu : u.Over S.toVocabulary) :
    (t.respell S.spell).le (u.respell S.spell) = t.le u := by
  simp only [Ty.le, textLe, S.name_lt_iff hu ht]

end Respelling

end UnionChecker
