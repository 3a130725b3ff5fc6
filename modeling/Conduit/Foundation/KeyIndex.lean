import Conduit.Foundation.OrderedMap

-- a secondary index: the keys of the entries that have a name
abbrev KeyIndex (ν κ : Type*) := OrderedMap ν (List κ)

namespace KeyIndex

variable {ν κ ε : Type*} [DecidableEq ν]

def Lists (index : KeyIndex ν κ) (name : ν) (key : κ) : Prop :=
  ∃ keys, index.get? name = some keys ∧ key ∈ keys

def row (index : KeyIndex ν κ) (name : ν) : List κ := (index.get? name).getD []

def Distinct (index : KeyIndex ν κ) : Prop :=
  ∀ name keys, index.get? name = some keys → keys.Nodup

variable {index : KeyIndex ν κ}

theorem not_lists_empty (name : ν) (key : κ) : ¬ Lists (.empty : KeyIndex ν κ) name key := by
  rintro ⟨keys, hkeys, -⟩
  cases hkeys

theorem lists_iff_of_get? {name : ν} {keys : List κ} (h : index.get? name = some keys) (key : κ) :
    index.Lists name key ↔ key ∈ keys := by
  constructor
  · rintro ⟨keys', hkeys', hmem⟩
    rw [h] at hkeys'
    exact Option.some.inj hkeys' ▸ hmem
  · exact fun hmem => ⟨keys, h, hmem⟩

theorem mem_row {name : ν} {key : κ} : key ∈ index.row name ↔ index.Lists name key := by
  unfold row
  cases hkeys : index.get? name with
  | none => simp [Lists, hkeys]
  | some keys => exact (lists_iff_of_get? hkeys key).symm

theorem Distinct.row (h : index.Distinct) (name : ν) : (index.row name).Nodup := by
  unfold KeyIndex.row
  cases hkeys : index.get? name with
  | none => exact List.nodup_nil
  | some keys => exact h name keys hkeys

theorem lists_set (name : ν) (keys : List κ) (name' : ν) (key : κ) :
    Lists (index.set name keys) name' key ↔
      name = name' ∧ key ∈ keys ∨ name ≠ name' ∧ index.Lists name' key := by
  unfold Lists
  rw [OrderedMap.get?_set]
  split
  next heq => simp [heq]
  next hne => simp [hne]

theorem lists_delete (name name' : ν) (key : κ) :
    Lists (index.delete name) name' key ↔ name ≠ name' ∧ index.Lists name' key := by
  unfold Lists
  rw [OrderedMap.get?_delete]
  split
  next heq => simp [heq]
  next hne => simp [hne]

theorem distinct_empty : Distinct (.empty : KeyIndex ν κ) := by
  intro name keys h
  cases h

theorem Distinct.delete (h : index.Distinct) (name : ν) : Distinct (index.delete name) := by
  intro name' keys hkeys
  rw [OrderedMap.get?_delete] at hkeys
  split at hkeys
  · cases hkeys
  · exact h name' keys hkeys

variable [DecidableEq κ]

def insert (index : KeyIndex ν κ) (name : ν) (key : κ) : KeyIndex ν κ :=
  index.set name (if key ∈ index.row name then index.row name else index.row name ++ [key])

def drop (index : KeyIndex ν κ) (name : ν) (dropped : List κ) : KeyIndex ν κ :=
  match index.get? name with
  | none => index
  | some keys => index.set name (keys.filter fun key => key ∉ dropped)

-- every entry is listed under its own name, and nothing else is listed
def Mirrors (index : KeyIndex ν κ) (entries : OrderedMap κ ε) (nameOf : ε → ν) : Prop :=
  ∀ name key, index.Lists name key ↔ ∃ entry, entries.get? key = some entry ∧ nameOf entry = name

variable {entries : OrderedMap κ ε} {nameOf : ε → ν}

theorem lists_insert (name : ν) (key : κ) (name' : ν) (key' : κ) :
    (index.insert name key).Lists name' key' ↔
      name = name' ∧ key' = key ∨ index.Lists name' key' := by
  unfold insert
  rw [lists_set, ← mem_row]
  by_cases hname : name = name'
  · subst hname
    split
    next hmem =>
      simp only [true_and, ne_eq, not_true_eq_false, false_and, or_false, iff_or_self]
      rintro rfl
      exact hmem
    next => simp [or_comm]
  · simp [hname]

theorem lists_drop (name : ν) (dropped : List κ) (name' : ν) (key : κ) :
    (index.drop name dropped).Lists name' key ↔
      index.Lists name' key ∧ ¬ (name = name' ∧ key ∈ dropped) := by
  unfold drop
  cases hkeys : index.get? name with
  | none =>
      refine ⟨fun h => ⟨h, ?_⟩, fun h => h.1⟩
      rintro ⟨rfl, -⟩
      obtain ⟨keys, hsome, -⟩ := h
      rw [hkeys] at hsome
      cases hsome
  | some keys =>
      simp only [lists_set, List.mem_filter, decide_eq_true_eq]
      by_cases hname : name = name'
      · subst hname
        simp [lists_iff_of_get? hkeys]
      · simp [hname]

theorem lists_drop_drop (name : ν) (dropped : List κ) (name' : ν) (key : κ) :
    ((index.drop name dropped).drop name dropped).Lists name' key ↔
      (index.drop name dropped).Lists name' key := by
  simp only [lists_drop, and_assoc, and_self]

theorem Distinct.insert (h : index.Distinct) (name : ν) (key : κ) :
    (index.insert name key).Distinct := by
  intro name' keys hkeys
  have hold : (index.row name).Nodup := h.row name
  unfold KeyIndex.insert at hkeys
  rw [OrderedMap.get?_set] at hkeys
  split at hkeys
  · obtain rfl := Option.some.inj hkeys
    split
    · exact hold
    next hfresh => exact hold.append (List.nodup_singleton key) (by simpa using hfresh)
  · exact h name' keys hkeys

theorem Distinct.drop (h : index.Distinct) (name : ν) (dropped : List κ) :
    (index.drop name dropped).Distinct := by
  unfold KeyIndex.drop
  split
  · exact h
  next keys hkeys =>
    intro name' keys' hkeys'
    rw [OrderedMap.get?_set] at hkeys'
    split at hkeys'
    · obtain rfl := Option.some.inj hkeys'
      exact (h name keys hkeys).filter _
    · exact h name' keys' hkeys'

theorem mirrors_empty :
    Mirrors (.empty : KeyIndex ν κ) (.empty : OrderedMap κ ε) nameOf := by
  intro name key
  simp [not_lists_empty]

theorem Mirrors.congr {index' : KeyIndex ν κ} (h : index.Mirrors entries nameOf)
    (hlists : ∀ name key, index'.Lists name key ↔ index.Lists name key) :
    index'.Mirrors entries nameOf :=
  fun name key => (hlists name key).trans (h name key)

theorem Mirrors.delete (h : index.Mirrors entries nameOf) {key : κ} {entry : ε}
    (hentry : entries.get? key = some entry) :
    (index.drop (nameOf entry) [key]).Mirrors (entries.delete key) nameOf := by
  intro name key'
  rw [lists_drop, h, OrderedMap.get?_delete, List.mem_singleton]
  by_cases hkey : key = key'
  · subst hkey
    simp [hentry]
  · simp [hkey, Ne.symm hkey]

theorem Mirrors.set (h : index.Mirrors entries nameOf) {key : κ} {entry : ε}
    (hfresh : entries.get? key = none) :
    (index.insert (nameOf entry) key).Mirrors (entries.set key entry) nameOf := by
  intro name key'
  rw [lists_insert, h, OrderedMap.get?_set]
  by_cases hkey : key = key'
  · subst hkey
    simp [hfresh]
  · simp [hkey, Ne.symm hkey]

theorem Mirrors.replace (h : index.Mirrors entries nameOf) {key : κ} {old entry : ε}
    (hold : entries.get? key = some old) :
    ((index.drop (nameOf old) [key]).insert (nameOf entry) key).Mirrors (entries.set key entry)
      nameOf := by
  intro name key'
  have hset : ((index.drop (nameOf old) [key]).insert (nameOf entry) key).Mirrors
      ((entries.delete key).set key entry) nameOf :=
    (h.delete hold).set (OrderedMap.get?_delete_self ..)
  rw [hset name key', OrderedMap.get?_set, OrderedMap.get?_set, OrderedMap.get?_delete]
  split <;> rfl

-- a row is as long as there are entries of its name
theorem Mirrors.length_row (h : index.Mirrors entries nameOf) (hdistinct : index.Distinct)
    (name : ν) : (index.row name).length = entries.values.countP fun e => nameOf e = name := by
  have hperm : (index.row name).Perm
      ((entries.entries.filter fun e => nameOf e.2 = name).map Prod.fst) := by
    refine (List.perm_ext_iff_of_nodup (hdistinct.row name) ?_).mpr fun key => ?_
    · exact entries.nodup.sublist (List.filter_sublist.map Prod.fst)
    · rw [mem_row, h]
      simp [OrderedMap.get?_eq_some_iff]
  rw [hperm.length_eq, List.length_map, OrderedMap.values, List.countP_map,
    List.countP_eq_length_filter]
  rfl

end KeyIndex
