import UnionChecker.Proofs.Steps
import UnionChecker.Proofs.Ty.Substitution
import UnionChecker.Ty.Inference
/-!
# Where inferred types come from

An inference goes down the parameter and the argument side by side, and what it finds for the
generic stands in the argument at a place where the parameter has the generic (`Found`). Merging
keeps one of the types found. So a property of inferred types is proved by induction on the way down.
-/

namespace UnionChecker

/-- A merge keeps the new type, which has to contain the earlier one. -/
theorem mergeInference_eq_ok {g : String} {found : Option Ty} {t u : Ty} :
    mergeInference g found t = .ok u ↔ u = t ∧ ∀ previous ∈ found, previous.containedIn t = true := by
  cases found with
  | none => simp [mergeInference, @eq_comm _ t]
  | some previous =>
    rw [mergeInference]
    split <;> simp [*, @eq_comm _ t]

theorem mergeOptional_eq_some {g : String} {found next : Option Ty} {t : Ty}
    (h : mergeOptional g found next = .ok (some t)) : next = some t ∨ found = some t := by
  cases next with
  | none => exact Or.inr (by simpa [mergeOptional] using h)
  | some u =>
    rw [mergeOptional] at h
    obtain ⟨v, hv, h⟩ := map_eq_ok.1 h
    exact Or.inl (h.trans (congrArg some (mergeInference_eq_ok.1 hv).1)).symm

namespace Ty

/-- The type `t` stands in the argument where the parameter has the generic `g`. Of a union argument
it may be a union of some members. -/
inductive Found (g : String) : (parameter argument t : Ty) → Prop
  | var {a : Ty} : Found g (.var g) a a
  | arg {d e : Nominal} {ps as : List Ty} {i : Nat} {p a t : Ty} (hp : ps[i]? = some p)
      (ha : as[i]? = some a) (h : Found g p a t) : Found g (.named d ps) (.named e as) t
  | param {gs hs : List String} {ps as : List (String × Ty)} {r s : Ty} {i : Nat}
      {p a : String × Ty} {t : Ty} (hg : g ∉ gs) (hp : ps[i]? = some p) (ha : as[i]? = some a)
      (h : Found g p.2 a.2 t) : Found g (.fn gs ps r) (.fn hs as s) t
  | result {gs hs : List String} {ps as : List (String × Ty)} {r s t : Ty} (hg : g ∉ gs)
      (h : Found g r s t) : Found g (.fn gs ps r) (.fn hs as s) t
  | member {ms rest : List Ty} {p a t : Ty} (hp : p ∈ ms) (hrest : ∀ m ∈ rest, m ∈ a.members)
      (h : Found g p (join rest) t) : Found g (.union ms) a t

theorem inferParams_eq {g : String} {ps as : List (String × Ty)} {found : Option Ty} :
    inferParams g ps as found = inferAll g (ps.map (·.2)) (as.map (·.2)) found := by
  induction ps generalizing as found with
  | nil => simp [inferParams, inferAll]
  | cons p ps ih =>
    cases as with
    | nil => simp only [inferParams, List.map_cons, List.map_nil, inferAll]
    | cons a as => rw [inferParams.eq_def]; simp only [List.map_cons, inferAll, ih]

theorem inferEach_eq {g : String} {ps : List Ty} {a : Ty} {found : Option Ty} :
    inferEach g ps a found = inferAll g ps (ps.map fun _ => a) found := by
  induction ps generalizing found with
  | nil => simp [inferEach, inferAll]
  | cons p ps ih => simp only [inferEach, List.map_cons, inferAll, ih]

theorem inferAll_eq_some {g : String} {t : Ty} : ∀ {ps as : List Ty} {found : Option Ty},
    inferAll g ps as found = .ok (some t) → found = some t ∨
      ∃ (i : Nat) (p a : Ty), ps[i]? = some p ∧ as[i]? = some a ∧ infer g p a = .ok (some t)
  | [], _, _, h => by
    simp only [inferAll] at h
    exact Or.inl (by simpa using h)
  | _ :: _, [], _, h => by
    simp only [inferAll] at h
    exact Or.inl (by simpa using h)
  | p :: ps, a :: as, found, h => by
    rw [inferAll] at h
    obtain ⟨next, hnext, h⟩ := bind_eq_ok.1 h
    obtain ⟨merged, hmerged, h⟩ := bind_eq_ok.1 h
    rcases inferAll_eq_some h with rfl | ⟨i, p', a', hp, ha, h⟩
    · refine (mergeOptional_eq_some hmerged).symm.imp_right ?_
      rintro rfl
      exact ⟨0, p, a, rfl, rfl, hnext⟩
    · exact Or.inr ⟨i + 1, p', a', hp, ha, h⟩

theorem found_of_infer {g : String} (parameter : Ty) : ∀ {argument t : Ty},
    infer g parameter argument = .ok (some t) → Found g parameter argument t := by
  induction parameter with
  | var x =>
    intro a t h
    simp only [infer] at h
    split at h
    · rename_i hx
      obtain rfl : x = g := by simpa using hx
      cases h
      exact .var
    · cases h
  | named decl params ih =>
    intro a t h
    unfold infer at h
    split at h
    · split at h
      · rcases inferAll_eq_some h with hnone | ⟨i, p, a, hp, ha, h⟩
        · cases hnone
        · exact .arg hp ha (ih p (List.mem_of_getElem? hp) h)
      · cases h
    · cases h
  | fn generics params result ihp ihr =>
    intro a t h
    unfold infer at h
    split at h
    · cases h
    · rename_i hg
      replace hg : g ∉ generics := by simpa using hg
      split at h
      · split at h
        · obtain ⟨found, hfound, h⟩ := bind_eq_ok.1 h
          obtain ⟨last, hlast, h⟩ := bind_eq_ok.1 h
          rcases mergeOptional_eq_some h with rfl | rfl
          · exact .result hg (ihr hlast)
          · rw [inferParams_eq] at hfound
            rcases inferAll_eq_some hfound with hnone | ⟨i, p, a, hp, ha, h⟩
            · cases hnone
            · rw [List.getElem?_map, Option.map_eq_some_iff] at hp ha
              obtain ⟨p, hp, rfl⟩ := hp
              obtain ⟨a, ha, rfl⟩ := ha
              exact .param hg hp ha (ihp p (List.mem_of_getElem? hp) h)
        · cases h
      · cases h
  | union ms ih =>
    intro a t h
    unfold infer at h
    dsimp only at h
    split at h
    · cases h
    · rw [inferEach_eq] at h
      rcases inferAll_eq_some h with hnone | ⟨i, p, a, hp, ha, h⟩
      · cases hnone
      · obtain ⟨_, _, rfl⟩ := Option.map_eq_some_iff.1 (List.getElem?_map ▸ ha)
        replace hp := List.mem_of_getElem? hp
        exact .member hp (fun m hm => (List.mem_filter.1 hm).1) (ih p hp h)

/-- Something is found only where the parameter mentions the generic. -/
theorem Found.mentions {g : String} {p a t : Ty} (h : Found g p a t) :
    p.mentionsAny [g] = true := by
  induction h with
  | var => exact mentionsAny_var.2 rfl
  | arg hp _ _ ih => exact mentionsAny_named.2 ⟨_, List.mem_of_getElem? hp, ih⟩
  | param hg hp _ _ ih => exact mentionsAny_fn.2 ⟨hg, Or.inl ⟨_, List.mem_of_getElem? hp, ih⟩⟩
  | result hg _ ih => exact mentionsAny_fn.2 ⟨hg, Or.inr ih⟩
  | member hp _ _ ih => exact mentionsAny_union.2 ⟨_, hp, ih⟩

end Ty

end UnionChecker
