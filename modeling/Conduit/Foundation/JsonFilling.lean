import Conduit.Foundation.Json
import Mathlib.Data.List.Forall2

namespace Json

-- `w` is `v` with more fields, each with the value that `d` has there; where `d` is `none` there
-- are no more fields, and `w` is `v` but for the order of the fields
inductive Fills : Option Json → Json → Json → Prop where
  | refl (d : Option Json) (v : Json) : Fills d v v
  | arr (d : Option Json) {vs ws : List Json} (hlength : vs.length = ws.length)
      (hitem : ∀ (i : ℕ) (v w : Json), vs[i]? = some v → ws[i]? = some w → Fills none v w) :
      Fills d (.arr vs) (.arr ws)
  | obj (d : Option Json) {vs ws : List (String × Json)}
      (hkept : ∀ k v, field vs k = some v → field ws k ≠ none)
      (hvalue : ∀ k v w, field vs k = some v → field ws k = some w →
        Fills (d.bind fun x => x.get? k) v w)
      (hadded : ∀ k w, field vs k = none → field ws k = some w →
        (d.bind fun x => x.get? k) = some w) :
      Fills d (.obj vs) (.obj ws)

-- the same for a property that may be absent
inductive Filled (d : Option Json) : Option Json → Option Json → Prop where
  | absent : Filled d none none
  | kept {v w : Json} (h : Fills d v w) : Filled d (some v) (some w)
  | added {w : Json} (h : d = some w) : Filled d none (some w)

section Filling

variable {d : Option Json} {v w : Json}

theorem Filled.refl (d v : Option Json) : Filled d v v := by
  cases v with
  | none => exact .absent
  | some v => exact .kept (.refl d v)

theorem Fills.of_fields {vs ws : List (String × Json)}
    (h : ∀ k, Filled (d.bind fun x => x.get? k) (field vs k) (field ws k)) :
    Fills d (.obj vs) (.obj ws) := by
  apply Fills.obj
  · intro k v hv hw
    have hk := h k
    rw [hv, hw] at hk
    cases hk
  · intro k v w hv hw
    have hk := h k
    rw [hv, hw] at hk
    cases hk with
    | kept hfills => exact hfills
  · intro k w hv hw
    have hk := h k
    rw [hv, hw] at hk
    cases hk with
    | added heq => exact heq

theorem Fills.get? (h : Fills d v w) (k : String) :
    Filled (d.bind fun x => x.get? k) (v.get? k) (w.get? k) := by
  cases h with
  | refl => exact .refl _ _
  | arr => exact .absent
  | @obj _ vs ws hkept hvalue hadded =>
      show Filled (d.bind fun x => x.get? k) (field vs k) (field ws k)
      cases hv : field vs k with
      | none =>
          cases hw : field ws k with
          | none => exact .absent
          | some w => exact .added (hadded k w hv hw)
      | some v =>
          cases hw : field ws k with
          | none => exact absurd hw (hkept k v hv)
          | some w => exact .kept (hvalue k v w hv hw)

theorem Fills.object {vs : List (String × Json)} (h : Fills d (.obj vs) w) :
    ∃ ws, w = .obj ws := by
  cases h with
  | refl => exact ⟨vs, rfl⟩
  | obj => exact ⟨_, rfl⟩

theorem Fills.items {vs : List Json} (h : Fills d (.arr vs) w) :
    ∃ ws, w = .arr ws ∧ vs.length = ws.length ∧
      ∀ (i : ℕ) (v w : Json), vs[i]? = some v → ws[i]? = some w → Fills none v w := by
  cases h with
  | refl =>
      refine ⟨vs, rfl, rfl, ?_⟩
      intro i v w hv hw
      cases hv.symm.trans hw
      exact .refl none v
  | arr _ hlength hitem => exact ⟨_, rfl, hlength, hitem⟩

theorem Fills.of_forall₂ {vs ws : List Json} (h : List.Forall₂ (Fills none) vs ws) :
    Fills d (.arr vs) (.arr ws) := by
  apply Fills.arr
  · exact h.length_eq
  · intro i v w hv hw
    obtain ⟨hi, rfl⟩ := List.getElem?_eq_some_iff.mp hv
    obtain ⟨hj, rfl⟩ := List.getElem?_eq_some_iff.mp hw
    exact h.get hi hj

theorem Fills.map (f : Json → Json) {vs : List Json} (h : ∀ v ∈ vs, Fills none v (f v)) :
    Fills d (.arr vs) (.arr (vs.map f)) :=
  Fills.of_forall₂ (List.forall₂_map_right_iff.mpr (List.forall₂_same.mpr h))

-- a value with neither items nor fields
def Leaf : Json → Prop
  | .arr _ | .obj _ => False
  | _ => True

theorem Filled.eq_of_leaf {v w : Option Json} (h : Filled none v w)
    (hleaf : ∀ x, v = some x → Leaf x) : w = v := by
  cases h with
  | absent => rfl
  | kept hfills =>
      have hv := hleaf _ rfl
      cases hfills with
      | refl => rfl
      | arr => exact hv.elim
      | obj => exact hv.elim
  | added h => cases h

theorem Fills.of_same {vs vs' : List (String × Json)} (hsame : ∀ k, field vs k = field vs' k)
    (h : Fills d (.obj vs') w) : Fills d (.obj vs) w := by
  obtain ⟨ws, rfl⟩ := h.object
  apply Fills.of_fields
  intro k
  rw [hsame k]
  exact h.get? k

end Filling

section Paths

inductive Step where
  | key (k : String)
  | item (i : ℕ)

def step? : Json → Step → Option Json
  | v, .key k => v.get? k
  | .arr items, .item i => items[i]?
  | _, .item _ => none

def at? (v : Json) : List Step → Option Json
  | [] => some v
  | s :: path => (v.step? s).bind fun x => x.at? path

variable {d : Option Json} {v w : Json}

theorem Fills.step? (h : Fills d v w) {s : Step} {x : Json} (hx : v.step? s = some x) :
    ∃ d' y, w.step? s = some y ∧ Fills d' x y := by
  cases s with
  | key k =>
      have hfilled := h.get? k
      rw [show v.get? k = some x from hx] at hfilled
      cases hy : w.get? k with
      | none =>
          rw [hy] at hfilled
          cases hfilled
      | some y =>
          rw [hy] at hfilled
          cases hfilled with
          | kept hfills => exact ⟨_, y, hy, hfills⟩
  | item i =>
      cases v with
      | arr vs =>
          obtain ⟨ws, rfl, hlength, hitem⟩ := h.items
          obtain ⟨hi, -⟩ := List.getElem?_eq_some_iff.mp hx
          obtain ⟨y, hy⟩ : ∃ y, ws[i]? = some y := ⟨_, List.getElem?_eq_getElem (hlength ▸ hi)⟩
          exact ⟨none, y, hy, hitem i x y hx hy⟩
      | null | bool | num | str | obj => cases hx

-- what a path leads to is there afterwards
theorem Fills.at? {path : List Step} (h : Fills d v w) {x : Json} (hx : v.at? path = some x) :
    ∃ d' y, w.at? path = some y ∧ Fills d' x y := by
  induction path generalizing d v w with
  | nil =>
      cases hx
      exact ⟨d, w, rfl, h⟩
  | cons s path ih =>
      obtain ⟨u, hu, hrest⟩ := Option.bind_eq_some_iff.mp hx
      obtain ⟨d', u', hu', hfills⟩ := h.step? hu
      obtain ⟨d'', y, hy, hxy⟩ := ih hfills hrest
      exact ⟨d'', y, by rw [Json.at?, hu']; exact hy, hxy⟩

end Paths

section Covering

-- `fields` are what fills the properties `ks` of a value, and nothing else
structure Covers (d look : String → Option Json) (ks : List String)
    (fields : List (String × Json)) : Prop where
  inside : ∀ k ∈ ks, Filled (d k) (look k) (field fields k)
  outside : ∀ k, k ∉ ks → field fields k = none

variable {d look look' : String → Option Json} {ks ls : List String}
  {es fs : List (String × Json)} {k : String}

theorem Covers.append (h : Covers d look ks es) (h' : Covers d look ls fs)
    (hdisjoint : ∀ k ∈ ls, k ∉ ks) : Covers d look (ks ++ ls) (es ++ fs) := by
  constructor
  · intro k hk
    rw [field_append]
    rcases List.mem_append.mp hk with hk | hk
    · have hnone : field fs k = none := h'.outside k fun hls => hdisjoint k hls hk
      rw [hnone, Option.or_none]
      exact h.inside k hk
    · rw [h.outside k (hdisjoint k hk), Option.none_or]
      exact h'.inside k hk
  · intro k hk
    rw [List.mem_append, not_or] at hk
    rw [field_append, h.outside k hk.1, h'.outside k hk.2, Option.none_or]

theorem Covers.optional {value : Option Json} (h : Filled (d k) (look k) value) :
    Covers d look [k] (value.map fun v => (k, v)).toList := by
  constructor
  · intro k' hk'
    cases List.mem_singleton.mp hk'
    cases value with
    | none => exact h
    | some v => simpa [field] using h
  · intro k' hk'
    have hne : k ≠ k' := fun heq => hk' (heq ▸ List.mem_singleton_self k)
    cases value with
    | none => rfl
    | some v => simp [field, hne]

theorem Covers.absent (h : look k = none) : Covers d look [k] [] := by
  have hfilled : Filled (d k) (look k) none := by
    rw [h]
    exact .absent
  exact Covers.optional hfilled

theorem Covers.single {v : Json} (h : Filled (d k) (look k) (some v)) :
    Covers d look [k] [(k, v)] :=
  Covers.optional h

theorem Covers.cons {v : Json} (h : Filled (d k) (look k) (some v)) (h' : Covers d look ls fs)
    (hfresh : k ∉ ls) : Covers d look (k :: ls) ((k, v) :: fs) := by
  refine (Covers.single h).append h' ?_
  intro k' hk' hmem
  exact hfresh (List.mem_singleton.mp hmem ▸ hk')

theorem Covers.congr (h : Covers d look ks es) (heq : ∀ k ∈ ks, look' k = look k) :
    Covers d look' ks es :=
  ⟨fun k hk => heq k hk ▸ h.inside k hk, h.outside⟩

theorem Covers.filled (h : Covers d look ks es) (hclosed : ∀ k, k ∉ ks → look k = none)
    (k : String) : Filled (d k) (look k) (field es k) := by
  by_cases hk : k ∈ ks
  · exact h.inside k hk
  · rw [hclosed k hk, h.outside k hk]
    exact .absent

end Covering

section Lookups

-- the object with the keys `ks` whose properties `look` gives
def ofLookup (ks : List String) (look : String → Option Json) : Json :=
  .obj (ks.flatMap fun k => ((look k).map fun v => (k, v)).toList)

theorem get?_ofLookup (ks : List String) (look : String → Option Json) (k : String) :
    (ofLookup ks look).get? k = if k ∈ ks then look k else none := by
  induction ks with
  | nil => rfl
  | cons k' ks ih =>
      simp only [ofLookup, Json.get?, List.flatMap_cons, field_append] at ih ⊢
      rw [ih]
      by_cases heq : k' = k
      · subst heq
        cases hlook : look k' with
        | none => simp [field]
        | some v => simp [field]
      · have hnone : field ((look k').map fun v => (k', v)).toList k = none := by
          cases look k' with
          | none => rfl
          | some v => simp [field, heq]
        rw [hnone, Option.none_or]
        simp [Ne.symm heq]

end Lookups

end Json
