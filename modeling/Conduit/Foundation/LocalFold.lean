import Conduit.Foundation.OrderedMap

-- a step that changes what a state shows of one key, by an effect that reads no other
structure LocalFold {σ α κ ω : Type*} (step : σ → α → σ) (key : α → κ) (view : σ → κ → ω)
    (effect : α → ω → ω) : Prop where
  own : ∀ s a, view (step s a) (key a) = effect a (view s (key a))
  other : ∀ s a k, k ≠ key a → view (step s a) k = view s k

namespace LocalFold

variable {σ α κ ω : Type*} {step : σ → α → σ} {key : α → κ} {view : σ → κ → ω}
  {effect : α → ω → ω} {as : List α}

theorem foldl_of_not_mem (h : LocalFold step key view effect) (s : σ) {k : κ} (hk : k ∉ as.map key) :
    view (as.foldl step s) k = view s k := by
  induction as generalizing s with
  | nil => rfl
  | cons a as ih =>
      rw [List.map_cons, List.mem_cons, not_or] at hk
      rw [List.foldl_cons, ih _ hk.2, h.other s a k hk.1]

theorem foldl_of_mem (h : LocalFold step key view effect) (s : σ) (hnodup : (as.map key).Nodup)
    {a : α} (ha : a ∈ as) : view (as.foldl step s) (key a) = effect a (view s (key a)) := by
  induction as generalizing s with
  | nil => cases ha
  | cons b as ih =>
      rw [List.map_cons, List.nodup_cons] at hnodup
      rw [List.foldl_cons]
      rcases List.mem_cons.mp ha with rfl | hmem
      · rw [h.foldl_of_not_mem _ hnodup.1, h.own]
      · have hne : key a ≠ key b := fun heq => hnodup.1 (heq ▸ List.mem_map_of_mem hmem)
        rw [ih _ hnodup.2 hmem, h.other s b _ hne]

end LocalFold

namespace OrderedMap

variable {κ ν : Type*} [DecidableEq κ] {key : ν → κ}

theorem get?_foldl_set_eq (values : List ν) (m : OrderedMap κ ν) (k : κ) :
    (values.foldl (fun m value => m.set (key value) value) m).get? k =
      (values.reverse.find? fun value => key value = k).or (m.get? k) := by
  induction values generalizing m with
  | nil => rfl
  | cons first rest ih =>
      rw [List.foldl_cons, ih, List.reverse_cons, List.find?_append, Option.or_assoc, get?_set]
      congr 1
      by_cases h : key first = k <;> simp [h]

def setAll (key : ν → κ) (values : List ν) : OrderedMap κ ν :=
  values.foldl (fun m value => m.set (key value) value) .empty

theorem get?_setAll (values : List ν) (k : κ) :
    (setAll key values).get? k = values.reverse.find? fun value => key value = k := by
  rw [setAll, get?_foldl_set_eq, get?_empty, Option.or_none]

theorem key_of_mem_setAll {values : List ν} {k : κ} {value : ν}
    (h : (k, value) ∈ (setAll key values).entries) : key value = k := by
  rcases get?_foldl_set ((get?_eq_some_iff _ k value).mpr h) with ⟨_, hkey⟩ | hempty
  · exact hkey
  · cases hempty

theorem map_values_setAll (values : List ν) :
    (setAll key values).values.map key = (setAll key values).keys := by
  rw [OrderedMap.values, OrderedMap.keys, List.map_map]
  apply List.map_congr_left
  rintro ⟨k, value⟩ h
  have hkey : key value = k := key_of_mem_setAll h
  exact hkey

end OrderedMap
