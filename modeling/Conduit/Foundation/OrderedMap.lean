import Mathlib.Data.List.Nodup
import Mathlib.Data.List.Basic

structure OrderedMap (κ ν : Type*) where
  entries : List (κ × ν)
  nodup : (entries.map Prod.fst).Nodup

namespace OrderedMap

variable {κ ν : Type*}

def empty : OrderedMap κ ν where
  entries := []
  nodup := List.nodup_nil

instance : EmptyCollection (OrderedMap κ ν) := ⟨empty⟩

def keys (m : OrderedMap κ ν) : List κ := m.entries.map Prod.fst

def values (m : OrderedMap κ ν) : List ν := m.entries.map Prod.snd

def size (m : OrderedMap κ ν) : ℕ := m.entries.length

def dropOldest (m : OrderedMap κ ν) (n : ℕ) : OrderedMap κ ν where
  entries := m.entries.drop n
  nodup := m.nodup.sublist ((List.drop_sublist n m.entries).map Prod.fst)

theorem size_dropOldest (m : OrderedMap κ ν) (k : ℕ) : (m.dropOldest k).size = m.size - k :=
  List.length_drop

-- the entry of the key is there, and at most `n` entries are younger
def Recent (m : OrderedMap κ ν) (key : κ) (n : ℕ) : Prop :=
  ∃ older value younger, m.entries = older ++ (key, value) :: younger ∧ younger.length ≤ n

theorem Recent.mono {m : OrderedMap κ ν} {key : κ} {n : ℕ} (h : m.Recent key n) {k : ℕ}
    (hle : n ≤ k) : m.Recent key k := by
  obtain ⟨older, value, younger, hentries, hlength⟩ := h
  exact ⟨older, value, younger, hentries, Nat.le_trans hlength hle⟩

theorem Recent.dropOldest {m : OrderedMap κ ν} {key : κ} {n : ℕ} (h : m.Recent key n) {k : ℕ}
    (hlt : k + n < m.size) : (m.dropOldest k).Recent key n := by
  obtain ⟨older, value, younger, hentries, hlength⟩ := h
  have hsize : m.size = older.length + (younger.length + 1) := by simp [OrderedMap.size, hentries]
  have hle : k ≤ older.length := by omega
  refine ⟨older.drop k, value, younger, ?_, hlength⟩
  change m.entries.drop k = _
  rw [hentries, List.drop_append_of_le_length hle]

variable [DecidableEq κ]

def lookup : List (κ × ν) → κ → Option ν
  | [], _ => none
  | (k, v) :: rest, key => if k = key then some v else lookup rest key

def replace : List (κ × ν) → κ → ν → List (κ × ν)
  | [], key, value => [(key, value)]
  | (k, v) :: rest, key, value =>
      if k = key then (k, value) :: rest else (k, v) :: replace rest key value

theorem mem_keys_replace {entries : List (κ × ν)} {key k : κ} {value : ν} :
    k ∈ (replace entries key value).map Prod.fst ↔ k = key ∨ k ∈ entries.map Prod.fst := by
  induction entries with
  | nil => simp [replace]
  | cons e entries ih =>
      obtain ⟨k', v'⟩ := e
      by_cases h : k' = key
      · subst h
        simp [replace]
      · simp only [replace, h, if_false, List.map_cons, List.mem_cons, ih]
        tauto

theorem nodup_replace {entries : List (κ × ν)} (h : (entries.map Prod.fst).Nodup) (key : κ)
    (value : ν) : ((replace entries key value).map Prod.fst).Nodup := by
  induction entries with
  | nil => simp [replace]
  | cons e entries ih =>
      obtain ⟨k, v⟩ := e
      rw [List.map_cons, List.nodup_cons] at h
      by_cases hk : k = key
      · simpa [replace, hk] using ⟨by simpa [hk] using h.1, h.2⟩
      · simp only [replace, hk, if_false, List.map_cons, List.nodup_cons]
        refine ⟨fun hmem => ?_, ih h.2⟩
        rcases mem_keys_replace.1 hmem with heq | hold
        · exact hk heq
        · exact h.1 hold

def get? (m : OrderedMap κ ν) (key : κ) : Option ν := lookup m.entries key

def has (m : OrderedMap κ ν) (key : κ) : Bool := (m.get? key).isSome

def set (m : OrderedMap κ ν) (key : κ) (value : ν) : OrderedMap κ ν where
  entries := replace m.entries key value
  nodup := nodup_replace m.nodup key value

def delete (m : OrderedMap κ ν) (key : κ) : OrderedMap κ ν where
  entries := m.entries.filter fun e => e.1 ≠ key
  nodup := m.nodup.sublist (List.filter_sublist.map Prod.fst)

theorem lookup_replace (entries : List (κ × ν)) (key k : κ) (value : ν) :
    lookup (replace entries key value) k = if key = k then some value else lookup entries k := by
  induction entries with
  | nil => simp [replace, lookup]
  | cons e entries ih =>
      obtain ⟨k', v'⟩ := e
      by_cases h : k' = key
      · subst h
        by_cases hk : k' = k <;> simp [replace, lookup, hk]
      · by_cases hk : key = k
        · subst hk
          simp [replace, lookup, h, ih]
        · simp [replace, lookup, h, hk, ih]

theorem lookup_filter_ne (entries : List (κ × ν)) (key k : κ) :
    lookup (entries.filter fun e => e.1 ≠ key) k = if key = k then none else lookup entries k := by
  induction entries with
  | nil => simp [lookup]
  | cons e entries ih =>
      obtain ⟨k', v'⟩ := e
      by_cases h : k' = key
      · subst h
        by_cases hk : k' = k
        · simpa [hk] using ih
        · simpa [lookup, hk] using ih
      · by_cases hk : key = k
        · subst hk
          simpa [h, lookup] using ih
        · by_cases hkk : k' = k <;> simp_all [lookup]

@[simp] theorem get?_empty (key : κ) : (empty : OrderedMap κ ν).get? key = none := rfl

theorem get?_set (m : OrderedMap κ ν) (key k : κ) (value : ν) :
    (m.set key value).get? k = if key = k then some value else m.get? k :=
  lookup_replace m.entries key k value

theorem get?_delete (m : OrderedMap κ ν) (key k : κ) :
    (m.delete key).get? k = if key = k then none else m.get? k :=
  lookup_filter_ne m.entries key k

@[simp] theorem get?_set_self (m : OrderedMap κ ν) (key : κ) (value : ν) :
    (m.set key value).get? key = some value := by
  simp [get?_set]

theorem get?_set_of_ne (m : OrderedMap κ ν) {key k : κ} (value : ν) (h : key ≠ k) :
    (m.set key value).get? k = m.get? k := by
  simp [get?_set, h]

@[simp] theorem get?_delete_self (m : OrderedMap κ ν) (key : κ) :
    (m.delete key).get? key = none := by
  simp [get?_delete]

theorem get?_delete_of_ne (m : OrderedMap κ ν) {key k : κ} (h : key ≠ k) :
    (m.delete key).get? k = m.get? k := by
  simp [get?_delete, h]

theorem get?_eq_some_iff (m : OrderedMap κ ν) (key : κ) (value : ν) :
    m.get? key = some value ↔ (key, value) ∈ m.entries := by
  obtain ⟨entries, hnodup⟩ := m
  simp only [get?]
  induction entries with
  | nil => simp [lookup]
  | cons e entries ih =>
      obtain ⟨k, v⟩ := e
      rw [List.map_cons, List.nodup_cons] at hnodup
      by_cases h : k = key
      · subst h
        have hnot : (k, value) ∉ entries := fun hmem =>
          hnodup.1 (List.mem_map.mpr ⟨(k, value), hmem, rfl⟩)
        simp [lookup, hnot, eq_comm]
      · simp [lookup, h, ih hnodup.2, Ne.symm h]

theorem mem_keys {m : OrderedMap κ ν} {key : κ} :
    key ∈ m.keys ↔ ∃ value, m.get? key = some value := by
  simp [keys, get?_eq_some_iff]

theorem get?_foldl_delete (keys : List κ) (m : OrderedMap κ ν) (key : κ) :
    (keys.foldl delete m).get? key = if key ∈ keys then none else m.get? key := by
  induction keys generalizing m with
  | nil => simp
  | cons k keys ih =>
      rw [List.foldl_cons, ih, get?_delete]
      have hcons : key ∈ k :: keys ↔ k = key ∨ key ∈ keys := by rw [List.mem_cons, eq_comm]
      by_cases hrest : key ∈ keys <;> by_cases hk : k = key <;> simp only [hcons, hrest, hk] <;> simp

theorem get?_foldl_set {key : ν → κ} {values : List ν} {m : OrderedMap κ ν} {k : κ} {value : ν}
    (h : (values.foldl (fun m value => m.set (key value) value) m).get? k = some value) :
    value ∈ values ∧ key value = k ∨ m.get? k = some value := by
  induction values generalizing m with
  | nil => exact .inr h
  | cons first rest ih =>
      rcases ih h with ⟨hmem, hkey⟩ | hset
      · exact .inl ⟨List.mem_cons_of_mem _ hmem, hkey⟩
      · rw [get?_set] at hset
        split at hset
        next heq =>
          obtain rfl := Option.some.inj hset
          exact .inl ⟨List.mem_cons_self, heq⟩
        next => exact .inr hset

theorem isSome_foldl_set {key : ν → κ} {values : List ν} {m : OrderedMap κ ν} {k : κ}
    (h : (m.get? k).isSome = true ∨ ∃ value ∈ values, key value = k) :
    ((values.foldl (fun m value => m.set (key value) value) m).get? k).isSome = true := by
  induction values generalizing m with
  | nil => exact h.resolve_right fun ⟨_, hmem, _⟩ => List.not_mem_nil hmem
  | cons first rest ih =>
      apply ih
      by_cases heq : key first = k
      · refine .inl ?_
        rw [get?_set, if_pos heq]
        rfl
      · rcases h with hsome | ⟨value, hmem, hkey⟩
        · refine .inl ?_
          rw [get?_set, if_neg heq]
          exact hsome
        · rcases List.mem_cons.mp hmem with rfl | hmem
          · exact absurd hkey heq
          · exact .inr ⟨value, hmem, hkey⟩

theorem size_delete_le (m : OrderedMap κ ν) (key : κ) : (m.delete key).size ≤ m.size :=
  List.length_filter_le _ _

theorem size_set_of_get? {m : OrderedMap κ ν} {key : κ} {old : ν} (value : ν)
    (h : m.get? key = some old) : (m.set key value).size = m.size := by
  obtain ⟨entries, hnodup⟩ := m
  simp only [get?, size, set] at h ⊢
  clear hnodup
  induction entries with
  | nil => simp [lookup] at h
  | cons e entries ih =>
      obtain ⟨k, v⟩ := e
      rcases eq_or_ne k key with hk | hk
      · simp [replace, hk]
      · simp only [lookup, hk, if_false] at h
        simp [replace, hk, ih h]

theorem mem_values_of_get? {m : OrderedMap κ ν} {key : κ} {value : ν}
    (h : m.get? key = some value) : value ∈ m.values :=
  List.mem_map_of_mem ((get?_eq_some_iff m key value).mp h)

theorem get?_dropOldest (m : OrderedMap κ ν) (n : ℕ) (key : κ) :
    (m.dropOldest n).get? key = m.get? key ∨ (m.dropOldest n).get? key = none := by
  cases hget : (m.dropOldest n).get? key with
  | none => exact .inr rfl
  | some value =>
      refine .inl ?_
      rw [get?_eq_some_iff] at hget
      exact ((get?_eq_some_iff m key value).mpr (List.mem_of_mem_drop hget)).symm

section Permutation

variable {m : OrderedMap κ ν} {key : κ}

omit [DecidableEq κ] in
theorem nodup_entries (m : OrderedMap κ ν) : m.entries.Nodup := List.Nodup.of_map _ m.nodup

theorem not_mem_delete (m : OrderedMap κ ν) (key : κ) (value : ν) :
    (key, value) ∉ (m.delete key).entries := by
  simp [delete]

theorem mem_entries_delete {e : κ × ν} :
    e ∈ (m.delete key).entries ↔ e ∈ m.entries ∧ e.1 ≠ key := by
  simp [delete]

theorem delete_of_get?_none (h : m.get? key = none) : (m.delete key).entries = m.entries := by
  apply List.filter_eq_self.mpr
  intro e he
  rw [decide_eq_true_eq]
  rintro rfl
  rw [(get?_eq_some_iff m e.1 e.2).mpr he] at h
  cases h

theorem perm_set (m : OrderedMap κ ν) (key : κ) (value : ν) :
    (m.set key value).entries.Perm ((key, value) :: (m.delete key).entries) := by
  have hcons : ((key, value) :: (m.delete key).entries).Nodup :=
    List.nodup_cons.mpr ⟨not_mem_delete m key value, nodup_entries _⟩
  apply (List.perm_ext_iff_of_nodup (nodup_entries _) hcons).mpr
  intro e
  rw [← get?_eq_some_iff, get?_set, List.mem_cons, mem_entries_delete, ← get?_eq_some_iff]
  by_cases hk : key = e.1
  · simp [hk, Prod.ext_iff, eq_comm]
  · simp [hk, Prod.ext_iff, Ne.symm hk]

theorem perm_of_get? {value : ν} (h : m.get? key = some value) :
    m.entries.Perm ((key, value) :: (m.delete key).entries) := by
  have hcons : ((key, value) :: (m.delete key).entries).Nodup :=
    List.nodup_cons.mpr ⟨not_mem_delete m key value, nodup_entries _⟩
  apply (List.perm_ext_iff_of_nodup (nodup_entries _) hcons).mpr
  intro e
  rw [List.mem_cons, mem_entries_delete]
  constructor
  · intro he
    by_cases hk : e.1 = key
    · have hget := (get?_eq_some_iff m e.1 e.2).mpr he
      rw [hk, h] at hget
      exact .inl (Prod.ext hk (Option.some.inj hget).symm)
    · exact .inr ⟨he, hk⟩
  · intro he
    rcases he with rfl | ⟨he, -⟩
    · exact (get?_eq_some_iff m key value).mp h
    · exact he

end Permutation

section Recency

theorem replace_append (older younger : List (κ × ν)) (key : κ) (value : ν) :
    replace (older ++ younger) key value = replace older key value ++ younger ∧
        key ∈ older.map Prod.fst ∨
      replace (older ++ younger) key value = older ++ replace younger key value ∧
        key ∉ older.map Prod.fst := by
  induction older with
  | nil => simp
  | cons e older ih =>
      obtain ⟨k, v⟩ := e
      by_cases h : k = key
      · simp [replace, h]
      · rcases ih with ⟨heq, hmem⟩ | ⟨heq, hmem⟩
        · exact .inl ⟨by simp [replace, h, heq], by simp [hmem]⟩
        · exact .inr ⟨by simp [replace, h, heq], by simpa [Ne.symm h] using hmem⟩

theorem length_replace_le (entries : List (κ × ν)) (key : κ) (value : ν) :
    (replace entries key value).length ≤ entries.length + 1 := by
  induction entries with
  | nil => simp [replace]
  | cons e entries ih =>
      obtain ⟨k, v⟩ := e
      by_cases h : k = key
      · simp [replace, h]
      · simpa [replace, h] using ih

theorem replace_of_lookup_none {entries : List (κ × ν)} {key : κ} (value : ν)
    (h : lookup entries key = none) : replace entries key value = entries ++ [(key, value)] := by
  induction entries with
  | nil => rfl
  | cons e entries ih =>
      obtain ⟨k, v⟩ := e
      by_cases hk : k = key
      · simp [lookup, hk] at h
      · rw [lookup, if_neg hk] at h
        simp [replace, hk, ih h]

variable {m : OrderedMap κ ν} {key : κ} {n : ℕ}

theorem recent_set_self (value : ν) (h : m.get? key = none) : (m.set key value).Recent key 0 :=
  ⟨m.entries, value, [], replace_of_lookup_none value h, Nat.le_refl 0⟩

theorem Recent.get?_ne_none (h : m.Recent key n) : m.get? key ≠ none := by
  obtain ⟨older, value, younger, hentries, -⟩ := h
  have hmem : (key, value) ∈ m.entries := by simp [hentries]
  rw [(get?_eq_some_iff m key value).mpr hmem]
  simp

theorem Recent.set (h : m.Recent key n) {other : κ} (hne : other ≠ key) (value : ν) :
    (m.set other value).Recent key (n + 1) := by
  obtain ⟨older, old, younger, hentries, hlength⟩ := h
  have hset : (m.set other value).entries = replace (older ++ (key, old) :: younger) other value := by
    rw [← hentries]
    rfl
  rcases replace_append older ((key, old) :: younger) other value with ⟨heq, -⟩ | ⟨heq, -⟩
  · exact ⟨replace older other value, old, younger, hset.trans heq,
      Nat.le_trans hlength (Nat.le_succ n)⟩
  · refine ⟨older, old, replace younger other value, hset.trans ?_, ?_⟩
    · rw [heq, replace, if_neg (Ne.symm hne)]
    · exact Nat.le_trans (length_replace_le ..) (Nat.succ_le_succ hlength)

theorem Recent.delete (h : m.Recent key n) {other : κ} (hne : other ≠ key) :
    (m.delete other).Recent key n := by
  obtain ⟨older, value, younger, hentries, hlength⟩ := h
  refine ⟨older.filter fun e => e.1 ≠ other, value, younger.filter fun e => e.1 ≠ other, ?_,
    Nat.le_trans (List.length_filter_le _ _) hlength⟩
  simp [OrderedMap.delete, hentries, Ne.symm hne]

theorem size_set_le (m : OrderedMap κ ν) (key : κ) (value : ν) : (m.set key value).size ≤ m.size + 1 :=
  length_replace_le ..

end Recency

-- `m'` is `m` without some of the entries that may be lost
structure Thins (lost : κ → ν → Prop) (m m' : OrderedMap κ ν) : Prop where
  kept : ∀ key value, m'.get? key = some value → m.get? key = some value
  gone : ∀ key value, m.get? key = some value → m'.get? key = some value ∨ lost key value

namespace Thins

variable {lost : κ → ν → Prop} {m m₁ m₂ : OrderedMap κ ν}

theorem refl (m : OrderedMap κ ν) : Thins lost m m where
  kept _ _ h := h
  gone _ _ h := .inl h

theorem trans (h₁ : Thins lost m m₁) (h₂ : Thins lost m₁ m₂) : Thins lost m m₂ where
  kept key value h := h₁.kept key value (h₂.kept key value h)
  gone key value h := by
    rcases h₁.gone key value h with hkept | hlost
    · exact h₂.gone key value hkept
    · exact .inr hlost

theorem of_forall {m' : OrderedMap κ ν} {doomed : κ → ν → Prop} [∀ k v, Decidable (doomed k v)]
    (h : ∀ key, m'.get? key = (m.get? key).filter fun value => ¬ doomed key value)
    (hlost : ∀ key value, m.get? key = some value → doomed key value → lost key value) :
    Thins lost m m' where
  kept key value hvalue := by
    rw [h, Option.filter_eq_some_iff] at hvalue
    exact hvalue.1
  gone key value hvalue := by
    rw [h, hvalue]
    by_cases hdoomed : doomed key value
    · exact .inr (hlost key value hvalue hdoomed)
    · exact .inl (by simp [hdoomed])

theorem delete {key : κ} (h : ∀ value, m.get? key = some value → lost key value) :
    Thins lost m (m.delete key) where
  kept k value hvalue := by
    rw [get?_delete] at hvalue
    exact (Option.ite_none_left_eq_some.mp hvalue).2
  gone k value hvalue := by
    by_cases hk : key = k
    · subst hk
      exact .inr (h value hvalue)
    · exact .inl ((get?_delete_of_ne m hk).trans hvalue)

theorem foldl {α : Type*} {f : OrderedMap κ ν → α → OrderedMap κ ν}
    (hf : ∀ m x, Thins lost m (f m x)) (xs : List α) (m : OrderedMap κ ν) :
    Thins lost m (xs.foldl f m) := by
  induction xs generalizing m with
  | nil => exact refl m
  | cons x xs ih => exact (hf m x).trans (ih _)

end Thins

end OrderedMap
