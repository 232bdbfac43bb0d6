import UnionChecker.Check.Expr
import UnionChecker.Proofs.Ty.Hereditary
import UnionChecker.Proofs.Ty.Positions
/-!
# Types that are known by their names

Types are ordered by their names, and so are the members of unions and the cases of choices. The name of
a type does not say everything about it: function types of different meaning can have one name, and a
text could be read in two ways if names had brackets or commas in them. But without function types, and
with names that are words, a name belongs to one type only, and equal types in normal form have one name
(`name_identifies`).

That a name belongs to one type is the argument of a prefix code. After the name of a member of a union
comes nothing, or a character that is no part of a word; which ones can come depends on whether the type
stands in a union, among generics or alone (`afterMember`, `afterType`, `afterGenerics`). So reading a
text from the left can go in only one way (`reads_members`).
-/

namespace UnionChecker

/-! ## Identifiers -/

/-- A character without a meaning of its own in the name of a type. -/
def isNameChar (c : Char) : Bool := !" <>,.|()~$".toList.contains c

def isIdentifier (text : String) : Bool := text != "" && text.toList.all isNameChar

/-- Identifiers with dots between them are such a text. -/
def isDotted (text : String) : Bool :=
  text != "" && text.toList.all fun c => isNameChar c || c == '.'

/-- A character that does not stand around or between words in the name of a type. -/
def isPlainChar (c : Char) : Bool := !" <>,.|()~".toList.contains c

/-- What is read as one word in the name of a type. -/
def isWordChar (c : Char) : Bool := isPlainChar c || c == '.'

theorem isPlainChar_dot : isPlainChar '.' = false := by decide

theorem isPlainChar_of_isNameChar {c : Char} (h : isNameChar c = true) : isPlainChar c = true := by
  simp_all [isNameChar, isPlainChar]

theorem append_inj_of_head {p : Char → Bool} : ∀ {as bs xs ys : List Char},
    (∀ c ∈ as, p c = true) → (∀ c ∈ bs, p c = true) → (∀ c ∈ xs.head?, p c = false) →
    (∀ c ∈ ys.head?, p c = false) → as ++ xs = bs ++ ys → as = bs ∧ xs = ys
  | [], [], _, _, _, _, _, _, h => ⟨rfl, h⟩
  | [], b :: bs, _, _, _, hb, hx, _, h => by
    rw [List.nil_append] at h
    have := hx b (by simp [h])
    simp [hb b (by simp)] at this
  | a :: as, [], _, _, ha, _, _, hy, h => by
    rw [List.nil_append] at h
    have := hy a (by simp [← h])
    simp [ha a (by simp)] at this
  | a :: as, b :: bs, xs, ys, ha, hb, hx, hy, h => by
    rw [List.cons_append, List.cons_append, List.cons.injEq] at h
    obtain ⟨rfl, rfl⟩ := append_inj_of_head (fun c hc => ha c (by simp [hc]))
      (fun c hc => hb c (by simp [hc])) hx hy h.2
    exact ⟨by rw [h.1], rfl⟩

namespace Ref

/-- The name is a word without dots, and the package can be told from it. -/
structure Legible (r : Ref) : Prop where
  name_ne : r.name ≠ ""
  name : ∀ c ∈ r.name.toList, isPlainChar c = true
  package : ∀ c ∈ r.package.toList, isWordChar c = true

variable {r s : Ref}

theorem legible_of_isIdentifier (hname : isIdentifier r.name = true)
    (hpackage : r.package = "" ∨ isDotted r.package = true) : r.Legible := by
  simp only [isIdentifier, Bool.and_eq_true, bne_iff_ne, List.all_eq_true] at hname
  refine ⟨hname.1, fun c hc => isPlainChar_of_isNameChar (hname.2 c hc), fun c hc => ?_⟩
  rcases hpackage with h | h
  · simp [h] at hc
  · simp only [isDotted, Bool.and_eq_true, Bool.or_eq_true, List.all_eq_true] at h
    rw [isWordChar, Bool.or_eq_true]
    exact (h.2 c hc).imp_left isPlainChar_of_isNameChar

theorem Legible.dot_not_mem (h : r.Legible) : '.' ∉ r.name.toList := fun hdot => by
  have := h.name _ hdot
  simp [isPlainChar_dot] at this

theorem toList_display (h : r.package ≠ "") :
    r.display.toList = r.package.toList ++ '.' :: r.name.toList := by
  simp [display, h]

theorem display_of_builtin (h : r.package = "") : r.display = r.name := by
  simp [display, h]

theorem Legible.isWordChar (h : r.Legible) : ∀ c ∈ r.display.toList, isWordChar c = true := by
  have hname : ∀ c ∈ r.name.toList, UnionChecker.isWordChar c = true := fun c hc => by
    simp [UnionChecker.isWordChar, h.name c hc]
  by_cases hp : r.package = ""
  · rwa [display_of_builtin hp]
  · rw [toList_display hp]
    simp only [List.mem_append, List.mem_cons]
    rintro c (hc | rfl | hc)
    · exact h.package c hc
    · rfl
    · exact hname c hc

theorem Legible.display_ne (h : r.Legible) : r.display.toList ≠ [] := by
  by_cases hp : r.package = ""
  · rw [display_of_builtin hp]
    simpa using h.name_ne
  · rw [toList_display hp]
    simp

theorem eq_of_display_eq (hr : r.Legible) (hs : s.Legible) (h : r.display = s.display) : r = s := by
  have hdot : ∀ {r s : Ref}, r.Legible → s.package ≠ "" → r.package = "" → r.display ≠ s.display := by
    intro r s hr hs hp h
    have hmem : '.' ∈ r.name.toList := by
      rw [← display_of_builtin hp, h, toList_display hs]
      simp
    exact hr.dot_not_mem hmem
  by_cases hpr : r.package = ""
  · by_cases hps : s.package = ""
    · rw [display_of_builtin hpr, display_of_builtin hps] at h
      cases r
      cases s
      simp_all
    · exact absurd h (hdot hr hps hpr)
  · by_cases hps : s.package = ""
    · exact absurd h.symm (hdot hs hpr hps)
    · -- read from the right, the name ends at the first dot
      have hrev := congrArg (fun d : String => d.toList.reverse) h
      simp only [toList_display hpr, toList_display hps, List.reverse_append, List.reverse_cons,
        List.append_assoc, List.singleton_append] at hrev
      obtain ⟨hname, hpackage⟩ := Ty.append_mark_inj (by simpa using hr.dot_not_mem)
        (by simpa using hs.dot_not_mem) hrev
      rw [List.reverse_inj, String.toList_inj] at hname hpackage
      cases r
      cases s
      simp_all

end Ref

namespace Ty

/-! ## Reading names -/

/-- There is no function type in the type, and names in it are words. -/
inductive Worded : Ty → Prop
  | var {x : String} (hx : ∀ c ∈ x.toList, isPlainChar c = true) : Worded (.var x)
  | named {decl : Nominal} {args : List Ty} (hdecl : decl.ref.Legible) (h : ∀ t ∈ args, Worded t) :
      Worded (.named decl args)
  | union {ms : List Ty} (h : ∀ m ∈ ms, Worded m) : Worded (.union ms)

theorem Worded.of_mem_args {decl : Nominal} {args : List Ty} (h : Worded (.named decl args)) :
    ∀ t ∈ args, Worded t := by
  cases h with
  | named _ h => exact h

theorem Worded.of_mem_members {t m : Ty} (h : Worded t) (hm : m ∈ t.members) : Worded m := by
  cases h with
  | union h => exact h m hm
  | var hx => rw [List.mem_singleton.1 hm]; exact .var hx
  | named hdecl h => rw [List.mem_singleton.1 hm]; exact .named hdecl h

/-- A worded type in which no union stands directly in a union. -/
structure Readable (t : Ty) : Prop where
  worded : Worded t
  flat : Flat t

/-- A readable type that is no union, as members of unions are. -/
structure ReadableMember (t : Ty) : Prop extends Readable t where
  not_union : t.isUnion = false

theorem Readable.member {t m : Ty} (h : Readable t) (hm : m ∈ t.members) : ReadableMember m :=
  ⟨⟨h.worded.of_mem_members hm, (h.flat.of_mem_members hm).1⟩, (h.flat.of_mem_members hm).2⟩

theorem Readable.of_mem_args {decl : Nominal} {args : List Ty} (h : Readable (.named decl args)) :
    ∀ t ∈ args, Readable t := fun t ht => ⟨h.worded.of_mem_args t ht, flat_named.1 h.flat t ht⟩

theorem readable_of_members {t : Ty} (h : ∀ m ∈ t.members, ReadableMember m) : Readable t := by
  cases t with
  | union ms =>
    exact ⟨.union fun m hm => (h m hm).worded,
      .union (fun m hm => (h m hm).flat) fun m hm => (h m hm).not_union⟩
  | var | named | fn => exact (h _ List.mem_cons_self).toReadable

/-- Nothing, or something that starts with one of the characters. -/
def StopsAt (stops text : List Char) : Prop := ∀ c ∈ text.head?, c ∈ stops

/-- What may follow the name of a member of a union. -/
def afterMember : List Char := ['>', ',', ' ']

/-- What may follow the name of a type. -/
def afterType : List Char := ['>', ',']

/-- What may follow the names of all generics. -/
def afterGenerics : List Char := ['>']

/-- Of the types with a property, only those equal to `a` have a name that can be read off a text as
the name of `a` is, and then the same rest is left. -/
def Reads (stops : List Char) (P : Ty → Prop) (a : Ty) : Prop :=
  ∀ (b : Ty) (u v : List Char), P b → StopsAt stops u → StopsAt stops v →
    a.name.toList ++ u = b.name.toList ++ v → a.equal b = true ∧ u = v

theorem StopsAt.mono {stops stops' u : List Char} (h : StopsAt stops u) (hsub : stops ⊆ stops') :
    StopsAt stops' u := fun c hc => hsub (h c hc)

/-! ## Sequences of names -/

theorem intercalate_cons (sep text : List Char) : ∀ texts : List (List Char),
    sep.intercalate (text :: texts) = text ++ texts.flatMap (sep ++ ·)
  | [] => by simp [List.intercalate]
  | next :: texts => by
    rw [List.intercalate_cons_cons, intercalate_cons sep next texts]
    simp

/-- The names of further elements of a sequence. -/
def following (sep : List Char) (ts : List Ty) : List Char :=
  ts.flatMap fun t => sep ++ t.name.toList

/-- The names of a sequence, with separators between. -/
def sequence (sep : List Char) (ts : List Ty) : List Char :=
  sep.intercalate (ts.map fun t => t.name.toList)

section

variable {c : Char} {sep inner outer : List Char} {P : Ty → Prop}

theorem sequence_cons (t : Ty) (ts : List Ty) :
    sequence sep (t :: ts) = t.name.toList ++ following sep ts := by
  rw [sequence, List.map_cons, intercalate_cons, following, List.flatMap_map]

/-- A separator: it may follow an element, but not the whole sequence. -/
structure Separates (c : Char) (inner outer : List Char) : Prop where
  mem : c ∈ inner
  not_mem : c ∉ outer
  sub : outer ⊆ inner

theorem stopsAt_following (hc : Separates c inner outer) {ts : List Ty} {u : List Char}
    (hu : StopsAt outer u) : StopsAt inner (following (c :: sep) ts ++ u) := by
  cases ts with
  | nil => exact hu.mono hc.sub
  | cons t ts =>
    intro x hx
    obtain rfl : c = x := by simpa [following] using hx
    exact hc.mem

theorem following_inj (hc : Separates c inner outer) : ∀ {as bs : List Ty} {u v : List Char},
    (∀ a ∈ as, Reads inner P a) → (∀ b ∈ bs, P b) → StopsAt outer u → StopsAt outer v →
    following (c :: sep) as ++ u = following (c :: sep) bs ++ v →
    List.Forall₂ (fun a b => a.equal b = true) as bs ∧ u = v
  | [], [], u, v, _, _, _, _, h => ⟨.nil, h⟩
  | [], b :: bs, u, v, _, _, hu, _, h => by
    exact (hc.not_mem (hu c (by simp [show u = _ from h, following]))).elim
  | a :: as, [], u, v, _, _, _, hv, h => by
    exact (hc.not_mem (hv c (by simp [← show _ = v from h, following]))).elim
  | a :: as, b :: bs, u, v, has, hbs, hu, hv, h => by
    simp only [following, List.flatMap_cons, List.append_assoc, List.cons_append,
      List.cons.injEq, true_and, List.append_cancel_left_eq] at h
    rw [List.forall_mem_cons] at has hbs
    obtain ⟨hab, h⟩ := has.1 _ _ _ hbs.1 (stopsAt_following hc hu) (stopsAt_following hc hv) h
    obtain ⟨hrest, huv⟩ := following_inj hc has.2 hbs.2 hu hv h
    exact ⟨.cons hab hrest, huv⟩

/-- Sequences that are not empty can be read element by element. -/
theorem sequence_inj (hc : Separates c inner outer) {a b : Ty} {as bs : List Ty} {u v : List Char}
    (has : ∀ t ∈ a :: as, Reads inner P t) (hbs : ∀ t ∈ b :: bs, P t) (hu : StopsAt outer u)
    (hv : StopsAt outer v)
    (h : sequence (c :: sep) (a :: as) ++ u = sequence (c :: sep) (b :: bs) ++ v) :
    List.Forall₂ (fun x y => x.equal y = true) (a :: as) (b :: bs) ∧ u = v := by
  rw [List.forall_mem_cons] at has hbs
  rw [sequence_cons, sequence_cons, List.append_assoc, List.append_assoc] at h
  obtain ⟨hab, h⟩ := has.1 _ _ _ hbs.1 (stopsAt_following hc hu) (stopsAt_following hc hv) h
  obtain ⟨hrest, huv⟩ := following_inj hc has.2 hbs.2 hu hv h
  exact ⟨.cons hab hrest, huv⟩

end

/-! ## Unions -/

theorem toList_name_var (x : String) : (name (.var x)).toList = '<' :: (x.toList ++ ['>']) := by
  simp [name]

theorem toList_name_members (t : Ty) : t.name.toList = sequence [' ', '|', ' '] t.members := by
  cases t with
  | union ms =>
    simp [sequence, name, members, nameAll_eq_map, String.toList_intercalate, Function.comp_def]
  | var | named | fn => simp [sequence, members]

/-- The characters of the generics in a name. -/
def bracketChars (args : List Ty) : List Char := (bracketed (nameAll args)).toList

theorem toList_name_named (decl : Nominal) (args : List Ty) :
    (name (.named decl args)).toList = decl.ref.display.toList ++ bracketChars args := by
  simp [name, bracketChars]

theorem isWordChar_of_afterMember : ∀ c ∈ afterMember, isWordChar c = false := by
  simp [afterMember, isWordChar, isPlainChar]

/-- The name of a member starts with a word or a bracket. -/
theorem ReadableMember.not_stopsAt {t : Ty} (h : ReadableMember t) (u : List Char) :
    ¬ StopsAt afterMember (t.name.toList ++ u) := by
  intro hstops
  obtain ⟨⟨hworded, -⟩, hunion⟩ := h
  cases hworded with
  | union => cases hunion
  | var => exact absurd (hstops '<' (by simp [toList_name_var])) (by decide)
  | named hdecl =>
    obtain ⟨c, word, hword⟩ := List.exists_cons_of_ne_nil hdecl.display_ne
    have hc : isWordChar c = true := hdecl.isWordChar c (by simp [hword])
    have hstop : c ∈ afterMember := hstops c (by simp [toList_name_named, hword])
    simp [isWordChar_of_afterMember c hstop] at hc

theorem equal_of_members {a b : Ty}
    (h : List.Forall₂ (fun x y => x.equal y = true) a.members b.members) : a.equal b = true :=
  (equal_iff_members a b).2 ⟨fun _ => forall₂_mem_left h, fun _ => forall₂_mem_right h⟩

theorem separates_members : Separates ' ' afterMember afterType :=
  ⟨by decide, by decide, by decide⟩

/-- A type is read member by member. -/
theorem members_inj {a b : Ty} {u v : List Char}
    (hreads : ∀ m ∈ a.members, Reads afterMember ReadableMember m)
    (ha : Readable a) (hb : Readable b) (hu : StopsAt afterType u) (hv : StopsAt afterType v)
    (h : a.name.toList ++ u = b.name.toList ++ v) :
    List.Forall₂ (fun x y => x.equal y = true) a.members b.members ∧ u = v := by
  -- a type that has members does not start with what may follow a type
  have hstart : ∀ {t : Ty} {w w' : List Char}, Readable t → t.members ≠ [] → StopsAt afterType w →
      w ≠ t.name.toList ++ w' := by
    intro t w w' ht hne hw hsame
    obtain ⟨m, ms, hms⟩ := List.exists_cons_of_ne_nil hne
    refine (ht.member (hms ▸ List.mem_cons_self)).not_stopsAt
      (following [' ', '|', ' '] ms ++ w') ?_
    rw [← List.append_assoc, ← sequence_cons, ← hms, ← toList_name_members, ← hsame]
    exact hw.mono separates_members.sub
  cases has : a.members with
  | nil =>
    cases hbs : b.members with
    | nil =>
      rw [toList_name_members a, toList_name_members b, has, hbs] at h
      exact ⟨.nil, h⟩
    | cons y ys =>
      rw [toList_name_members a, has] at h
      exact (hstart hb (by simp [hbs]) hu h).elim
  | cons x xs =>
    cases hbs : b.members with
    | nil =>
      rw [toList_name_members b, hbs] at h
      exact (hstart ha (by simp [has]) hv h.symm).elim
    | cons y ys =>
      rw [toList_name_members a, toList_name_members b, has, hbs] at h
      exact sequence_inj separates_members (has ▸ hreads)
        (fun m hm => hb.member (hbs ▸ hm)) hu hv h

theorem reads_of_members {a : Ty} (ha : Readable a)
    (hreads : ∀ m ∈ a.members, Reads afterMember ReadableMember m) : Reads afterType Readable a := by
  intro b u v hb hu hv h
  obtain ⟨hmembers, huv⟩ := members_inj hreads ha hb hu hv h
  exact ⟨equal_of_members hmembers, huv⟩

/-! ## Generics -/

theorem bracketChars_cons (t : Ty) (ts : List Ty) (u : List Char) :
    bracketChars (t :: ts) ++ u = '<' :: (sequence [',', ' '] (t :: ts) ++ '>' :: u) := by
  simp [bracketChars, sequence, nameAll, bracketed, nameAll_eq_map, String.toList_intercalate,
    Function.comp_def]

theorem bracketChars_head {args : List Ty} {u : List Char} (hu : StopsAt afterMember u) :
    ∀ c ∈ (bracketChars args ++ u).head?, isWordChar c = false := by
  intro c hc
  cases args with
  | nil =>
    exact isWordChar_of_afterMember c (hu c hc)
  | cons t ts =>
    rw [bracketChars_cons] at hc
    cases hc
    decide

theorem not_stopsAt_bracketChars (t : Ty) (ts : List Ty) (u : List Char) :
    ¬ StopsAt afterMember (bracketChars (t :: ts) ++ u) := fun h => by
  rw [bracketChars_cons] at h
  exact absurd (h '<' rfl) (by decide)

theorem separates_generics : Separates ',' afterType afterGenerics :=
  ⟨by decide, by decide, by decide⟩

theorem stopsAt_bracket (u : List Char) : StopsAt afterGenerics ('>' :: u) := by
  rintro c ⟨⟩
  decide

/-- Generics are read one by one. A type without generics has no brackets, so that it is not taken for
one whose only generic is the empty union. -/
theorem bracketChars_inj {as bs : List Ty} {u v : List Char} (has : ∀ a ∈ as, Reads afterType Readable a)
    (hbs : ∀ b ∈ bs, Readable b) (hu : StopsAt afterMember u) (hv : StopsAt afterMember v)
    (h : bracketChars as ++ u = bracketChars bs ++ v) :
    List.Forall₂ (fun a b => a.equal b = true) as bs ∧ u = v := by
  cases as with
  | nil =>
    cases bs with
    | nil => exact ⟨.nil, h⟩
    | cons b bs => exact (not_stopsAt_bracketChars b bs v (h ▸ hu)).elim
  | cons a as =>
    cases bs with
    | nil => exact (not_stopsAt_bracketChars a as u (h ▸ hv)).elim
    | cons b bs =>
      rw [bracketChars_cons, bracketChars_cons, List.cons.injEq] at h
      obtain ⟨hargs, huv⟩ := sequence_inj separates_generics has hbs (stopsAt_bracket u)
        (stopsAt_bracket v) h.2
      exact ⟨hargs, (List.cons.inj huv).2⟩

/-- After the word at its start, a name goes on with the generics. -/
theorem ref_eq_of_name_eq {d e : Nominal} {as bs : List Ty} {u v : List Char} (hd : d.ref.Legible)
    (he : e.ref.Legible) (hu : StopsAt afterMember u) (hv : StopsAt afterMember v)
    (h : (name (.named d as)).toList ++ u = (name (.named e bs)).toList ++ v) :
    d.ref = e.ref ∧ bracketChars as ++ u = bracketChars bs ++ v := by
  rw [toList_name_named, toList_name_named, List.append_assoc, List.append_assoc] at h
  obtain ⟨hdisplay, h⟩ := append_inj_of_head hd.isWordChar he.isWordChar (bracketChars_head hu)
    (bracketChars_head hv) h
  exact ⟨Ref.eq_of_display_eq hd he (String.toList_inj.1 hdisplay), h⟩

/-- A generic parameter starts with a bracket, a declared type with a word. -/
theorem name_var_ne_named {x : String} {decl : Nominal} {args : List Ty} {u v : List Char}
    (hdecl : decl.ref.Legible) :
    (name (.var x)).toList ++ u ≠ (name (.named decl args)).toList ++ v := by
  intro h
  obtain ⟨c, word, hword⟩ := List.exists_cons_of_ne_nil hdecl.display_ne
  rw [toList_name_var, toList_name_named, hword, List.cons_append, List.cons_append,
    List.cons_append, List.cons.injEq] at h
  have hc : isWordChar c = true := hdecl.isWordChar c (by simp [hword])
  rw [← h.1] at hc
  exact absurd hc (by decide)

theorem reads_var {x : String} (hx : ∀ c ∈ x.toList, isPlainChar c = true) :
    Reads afterMember ReadableMember (.var x) := by
  intro b u v hb hu hv h
  obtain ⟨⟨hworded, -⟩, hunion⟩ := hb
  cases hworded with
  | union => cases hunion
  | named hdecl => exact (name_var_ne_named hdecl h).elim
  | @var y hy =>
    rw [toList_name_var, toList_name_var, List.cons_append, List.cons_append, List.cons.injEq,
      List.append_assoc, List.append_assoc] at h
    obtain ⟨hxy, huv⟩ := append_inj_of_head hx hy (by simp [isPlainChar]) (by simp [isPlainChar]) h.2
    exact ⟨equal_var.2 (String.toList_inj.1 hxy), (List.cons.inj huv).2⟩

theorem reads_named {decl : Nominal} {args : List Ty} (hdecl : decl.ref.Legible)
    (hargs : ∀ t ∈ args, Reads afterType Readable t) :
    Reads afterMember ReadableMember (.named decl args) := by
  intro b u v hb hu hv h
  cases hb.worded with
  | union => cases hb.not_union
  | var => exact (name_var_ne_named hdecl h.symm).elim
  | named hdecl' =>
    obtain ⟨href, h⟩ := ref_eq_of_name_eq hdecl hdecl' hu hv h
    obtain ⟨hequal, huv⟩ := bracketChars_inj hargs hb.toReadable.of_mem_args hu hv h
    exact ⟨equal_named.2 ⟨href, hequal⟩, huv⟩

/-- **Names can be read off a text in only one way.** -/
theorem reads_members (t : Ty) : Readable t → ∀ m ∈ t.members, Reads afterMember ReadableMember m := by
  induction t with
  | var x =>
    intro ht m hm
    obtain rfl := List.mem_singleton.1 hm
    cases ht.worded with
    | var hx => exact reads_var hx
  | fn gs ps r => exact fun ht => nomatch ht.worded
  | named decl args ih =>
    intro ht m hm
    obtain rfl := List.mem_singleton.1 hm
    cases ht.worded with
    | named hdecl =>
      exact reads_named hdecl fun t hmem =>
        reads_of_members (ht.of_mem_args t hmem) (ih t hmem (ht.of_mem_args t hmem))
  | union ms ih =>
    intro ht m hm
    have hmember := ht.member hm
    refine ih m hm hmember.toReadable m ?_
    simp [members_of_not_isUnion hmember.not_union]

/-- Types of one name have equal members, in the same order. -/
theorem Readable.members_of_name_eq {a b : Ty} (ha : Readable a) (hb : Readable b) (h : a.name = b.name) :
    List.Forall₂ (fun x y => x.equal y = true) a.members b.members :=
  (members_inj (u := []) (v := []) (reads_members a ha) ha hb (by simp [StopsAt]) (by simp [StopsAt])
    (by rw [h])).1

/-! ## Equal types have one name -/

/-- Equal types in normal form have one name if equal members of them do. -/
theorem Normal.name_eq {a b : Ty} (ha : Normal a) (hb : Normal b) (h : a.equal b = true)
    (hnames : ∀ x ∈ a.members, ∀ y ∈ b.members, x.equal y = true → x.name = y.name) :
    a.name = b.name := by
  obtain ⟨hleft, hright⟩ := (equal_iff_members a b).1 h
  rw [name_eq_intercalate a, name_eq_intercalate b]
  congr 1
  refine map_name_eq ha.distinct_members hb.distinct_members ha.sorted_members hb.sorted_members
    (fun x hx => ?_) fun y hy => ?_
  · obtain ⟨y, hy, hxy⟩ := hleft x hx
    exact Agree.standsFor ⟨equal_symm hxy, (hnames x hx y hy hxy).symm⟩ hy
  · obtain ⟨x, hx, hxy⟩ := hright y hy
    exact Agree.standsFor ⟨hxy, hnames x hx y hy hxy⟩ hx

/-- Equal types that are no unions have one name if equal generics of them do. -/
theorem name_eq_of_not_isUnion {t u : Ty} (ht : Worded t) (hu : Worded u) (htu : t.isUnion = false)
    (huu : u.isUnion = false) (h : t.equal u = true)
    (hargs : ∀ d e as bs, t = .named d as → u = .named e bs → ∀ a ∈ as, ∀ b ∈ bs,
      a.equal b = true → a.name = b.name) : t.name = u.name := by
  cases ht with
  | union => cases htu
  | var =>
    cases hu with
    | union => cases huu
    | named => simp [equal_eq_compareWith, compareWith] at h
    | var => rw [equal_var.1 h]
  | @named d as =>
    cases hu with
    | union => cases huu
    | var => simp [equal_eq_compareWith, compareWith] at h
    | @named e bs =>
      obtain ⟨href, hequal⟩ := equal_named.1 h
      have hnames : as.map name = bs.map name :=
        map_eq_map_of_forall₂ hequal (hargs d e as bs rfl rfl)
      rw [name, name, nameAll_eq_map, nameAll_eq_map, hnames, href]

/-- **Equal types in normal form have one name.** -/
theorem Worded.name_eq (t : Ty) : ∀ {u : Ty}, Worded t → Worded u → Normal t → Normal u →
    t.equal u = true → t.name = u.name := by
  induction t with
  | fn gs ps r => exact fun ht => nomatch ht
  | var x =>
    intro u ht hu hnt hnu h
    refine hnt.name_eq hnu h fun x' hx' y hy hxy => ?_
    obtain rfl := List.mem_singleton.1 hx'
    refine name_eq_of_not_isUnion ht (hu.of_mem_members hy) rfl (hnu.flat.of_mem_members hy).2 hxy ?_
    simp
  | named decl args ih =>
    intro u ht hu hnt hnu h
    refine hnt.name_eq hnu h fun x hx y hy hxy => ?_
    obtain rfl := List.mem_singleton.1 hx
    have hy' := hnu.of_mem_members hy
    refine name_eq_of_not_isUnion ht (hu.of_mem_members hy) rfl (hnu.flat.of_mem_members hy).2 hxy ?_
    rintro d e as bs ⟨⟩ rfl a ha b hb hab
    exact ih a ha (ht.of_mem_args a ha) ((hu.of_mem_members hy).of_mem_args b hb)
      (hnt.of_mem_args a ha) (hy'.of_mem_args b hb) hab
  | union ms ih =>
    intro u ht hu hnt hnu h
    exact hnt.name_eq hnu h fun m hm y hy => ih m hm (ht.of_mem_members hm) (hu.of_mem_members hy)
      (hnt.of_mem_members hm) (hnu.of_mem_members hy)

/-! ## The order by names -/

section

variable {a b : Ty}

theorem name_eq_iff_equal (ha : Worded a) (hb : Worded b) (hna : Normal a) (hnb : Normal b) :
    a.name = b.name ↔ a.equal b = true :=
  ⟨fun h => equal_of_members (Readable.members_of_name_eq ⟨ha, hna.flat⟩ ⟨hb, hnb.flat⟩ h),
    ha.name_eq a hb hna hnb⟩

theorem le_antisymm_iff_equal (ha : Worded a) (hb : Worded b) (hna : Normal a) (hnb : Normal b) :
    (a.le b = true ∧ b.le a = true) ↔ a.equal b = true := by
  rw [← name_eq_iff_equal ha hb hna hnb]
  constructor
  · rintro ⟨hab, hba⟩
    exact name_eq_of_le hab hba
  · intro h
    rw [le, le, h]
    exact ⟨le_refl b, le_refl b⟩

theorem name_lt_of_le (hle : a.le b = true) (hne : a.name ≠ b.name) : a.name < b.name := by
  by_contra hlt
  exact hne (String.le_antisymm (textLe_iff.1 hle) (String.not_lt.1 hlt))

end

/-- What is sorted by types has no two places of one name with different types. -/
theorem pairwise_sort_type {α : Type} (type : α → Ty) {le : α → α → Bool}
    (hle : ∀ x y, le x y = (type x).le (type y)) {xs : List α}
    (hxs : ∀ x ∈ xs, (type x).Worded ∧ (type x).Normal) :
    (sortOrdered le xs).Pairwise fun x y =>
      (type x).equal (type y) = true ∨ (type x).name < (type y).name := by
  have hsorted : (sortOrdered le xs).Pairwise (le · · = true) :=
    pairwise_sortOrdered (fun x y => by rw [hle, hle]; exact le_total _ _)
      (fun x y z => by rw [hle, hle, hle]; exact le_trans _ _ _) xs
  refine hsorted.imp_of_mem fun {x y} hx hy hxy => ?_
  obtain ⟨hwx, hnx⟩ := hxs x (mem_sortOrdered.1 hx)
  obtain ⟨hwy, hny⟩ := hxs y (mem_sortOrdered.1 hy)
  by_cases hname : (type x).name = (type y).name
  · exact .inl ((name_eq_iff_equal hwx hwy hnx hny).1 hname)
  · exact .inr (name_lt_of_le (hle x y ▸ hxy) hname)

/-- The members of a built union have names in strictly increasing order. -/
theorem strict_members_join {ts : List Ty} (hts : ∀ t ∈ ts, t.Worded ∧ t.Normal) :
    (join ts).members.Pairwise fun a b => a.name < b.name := by
  have hmem : ∀ m ∈ (join ts).members, m.Worded ∧ m.Normal := by
    intro m hm
    have hm := mem_members_join hm
    rw [flattenAll_eq_flatMap] at hm
    obtain ⟨t, ht, hm⟩ := List.mem_flatMap.1 hm
    rw [(hts t ht).2.flatten_eq] at hm
    exact ⟨(hts t ht).1.of_mem_members hm, (hts t ht).2.of_mem_members hm⟩
  have hboth := (pairwise_members_join ts).and (sorted_members_join ts)
  refine hboth.imp_of_mem fun {a b} ha hb hab => name_lt_of_le hab.2 fun hname => ?_
  obtain ⟨hwa, hna⟩ := hmem a ha
  obtain ⟨hwb, hnb⟩ := hmem b hb
  rw [(name_eq_iff_equal hwa hwb hna hnb).1 hname] at hab
  cases hab.1

/-- **Types without functions are known by their names**, as long as the names in them are words and
their unions are in normal form: two of them have one name exactly when they are equal, and so they
come at the same place in the order of types exactly when they are equal. When the members of a union
or the cases of a choice are sorted, different types never come at the same place. -/
theorem name_identifies :
    (∀ a b : Ty, a.Worded → b.Worded → a.Normal → b.Normal →
      (a.name = b.name ↔ a.equal b = true) ∧
      ((a.le b = true ∧ b.le a = true) ↔ a.equal b = true)) ∧
    (∀ ts : List Ty, (∀ t ∈ ts, t.Worded ∧ t.Normal) →
      (sortOrdered le ts).Pairwise (fun a b => a.equal b = true ∨ a.name < b.name) ∧
      (join ts).members.Pairwise fun a b => a.name < b.name) ∧
    ∀ cases : List TypedCase, (∀ c ∈ cases, c.type.Worded ∧ c.type.Normal) →
      (sortOrdered Check.caseLe cases).Pairwise fun c d =>
        c.type.equal d.type = true ∨ c.type.name < d.type.name :=
  ⟨fun _ _ ha hb hna hnb =>
      ⟨name_eq_iff_equal ha hb hna hnb, le_antisymm_iff_equal ha hb hna hnb⟩,
    fun _ hts => ⟨pairwise_sort_type id (fun _ _ => rfl) hts, strict_members_join hts⟩,
    fun _ hcases => pairwise_sort_type TypedCase.type (fun _ _ => rfl) hcases⟩

/-- A box with the given generics. How its own generic is called, and whether it can be stored, is not
part of its name. -/
def crate (generic : String) (storable : Bool) (args : List Ty) : Ty :=
  .named ⟨⟨"demo", "Crate"⟩, [generic], storable⟩ args

theorem worded_crate (generic : String) (storable : Bool) {args : List Ty}
    (h : ∀ t ∈ args, t.Worded) : (crate generic storable args).Worded := by
  have href : Ref.Legible ⟨"demo", "Crate"⟩ :=
    Ref.legible_of_isIdentifier (by decide) (.inr (by decide))
  exact .named href h

/-- `demo.Crate<<T> | Int>` is one type, and not `demo.Crate<<T>, Int>`; `demo.Crate<>` holds the empty
union, and `demo.Crate` nothing. -/
theorem name_identifies_crates :
    (crate "T" true [.union [.var "T", .int]]).equal (crate "U" false [.union [.var "T", .int]]) =
      true ∧
    (crate "T" true [.union [.var "T", .int]]).equal (crate "T" true [.var "T", .int]) = false ∧
    (crate "T" true [.nothing]).equal (crate "T" true []) = false ∧
    (join [crate "T" true [.nothing], .int, crate "T" true []]).members.Pairwise
      (fun a b => a.name < b.name) := by
  have hint : Worded int := .named (Ref.legible_of_isIdentifier (by decide) (.inl rfl)) (by simp)
  have hvar : Worded (.var "T") := .var (by simp [isPlainChar])
  have hnothing : Worded nothing := .union (by simp)
  have hnint : Normal int := .named (by simp)
  have hnnothing : Normal nothing := .union (by simp) (by simp) .nil (by simp) .nil
  have hunion : Worded (.union [.var "T", .int]) := .union (by simp [hvar, hint])
  have hnunion : Normal (.union [.var "T", .int]) :=
    .union (by simp [hnint, Normal.var]) (by decide) (by decide) (by decide) (by decide)
  have hpair : ∀ generic storable, (crate generic storable [.union [.var "T", .int]]).Worded ∧
      (crate generic storable [.union [.var "T", .int]]).Normal := fun generic storable =>
    ⟨worded_crate generic storable (by simp [hunion]), .named (by simp [hnunion])⟩
  have hempty : (crate "T" true []).Worded ∧ (crate "T" true []).Normal :=
    ⟨worded_crate "T" true (by simp), .named (by simp)⟩
  have hhollow : (crate "T" true [.nothing]).Worded ∧ (crate "T" true [.nothing]).Normal :=
    ⟨worded_crate "T" true (by simp [hnothing]), .named (by simp [hnnothing])⟩
  refine ⟨?_, ?_, ?_, ?_⟩
  · exact (name_identifies.1 _ _ (hpair "T" true).1 (hpair "U" false).1 (hpair "T" true).2
      (hpair "U" false).2).1.1 (by decide)
  · refine Bool.eq_false_iff.2 fun h => ?_
    have hname := (name_identifies.1 _ _ (hpair "T" true).1
      (worded_crate "T" true (by simp [hvar, hint])) (hpair "T" true).2
      (.named (by simp [hnint, Normal.var]))).1.2 h
    exact absurd hname (by decide)
  · refine Bool.eq_false_iff.2 fun h => ?_
    have hname := (name_identifies.1 _ _ hhollow.1 hempty.1 hhollow.2 hempty.2).1.2 h
    exact absurd hname (by decide)
  · exact (name_identifies.2.1 _ (by simp [hhollow, hempty, hint, hnint])).2

end Ty

end UnionChecker
