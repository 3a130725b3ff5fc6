import Conduit.Foundation.OrderedMap
import Mathlib.Algebra.GroupWithZero.Nat
import Mathlib.Data.List.Perm.Subperm

theorem List.Sublist.sum_nat_le {xs ys : List ℕ} (h : xs.Sublist ys) : xs.sum ≤ ys.sum := by
  induction h with
  | slnil => exact Nat.le_refl _
  | cons y h ih =>
      rw [List.sum_cons]
      omega
  | cons_cons x h ih =>
      rw [List.sum_cons, List.sum_cons]
      omega

namespace OrderedMap

variable {κ ν ι : Type*} [DecidableEq κ] [DecidableEq ι]

-- `m` gives every key what the first of the layers that has the key gives it
def Layers (m : OrderedMap κ ν) (layers : List (OrderedMap κ ν)) : Prop :=
  ∀ k, m.get? k = layers.findSome? (·.get? k)

section Merging

variable {m : OrderedMap κ ν} {layers : List (OrderedMap κ ν)}

theorem layers_self (m : OrderedMap κ ν) : m.Layers [m] := fun k => by
  rw [List.findSome?_cons]
  cases m.get? k <;> rfl

theorem get?_foldl_assign {α : Type*} {f : α → ν} {entries : List (κ × α)}
    (h : (entries.map Prod.fst).Nodup) (m : OrderedMap κ ν) (k : κ) :
    (entries.foldl (fun m e => m.set e.1 (f e.2)) m).get? k =
      ((lookup entries k).map f).or (m.get? k) := by
  induction entries generalizing m with
  | nil => rfl
  | cons e entries ih =>
      obtain ⟨key, value⟩ := e
      rw [List.map_cons, List.nodup_cons] at h
      rw [List.foldl_cons, ih h.2, lookup, get?_set]
      by_cases hk : key = k
      · subst hk
        have hnone : lookup entries key = none := by
          rw [Option.eq_none_iff_forall_ne_some]
          intro value' hvalue
          have hmem := (get?_eq_some_iff ⟨entries, h.2⟩ key value').mp hvalue
          exact h.1 (List.mem_map.mpr ⟨_, hmem, rfl⟩)
        simp [hnone]
      · simp [hk]

theorem Layers.assign (h : m.Layers layers) (source : OrderedMap κ ν) :
    (source.entries.foldl (fun m e => m.set e.1 e.2) m).Layers (source :: layers) := by
  intro k
  have hget := get?_foldl_assign (f := id) source.nodup m k
  rw [Option.map_id] at hget
  refine hget.trans ?_
  rw [List.findSome?_cons, ← h k]
  change (source.get? k).or (m.get? k) = _
  cases source.get? k <;> rfl

theorem Layers.append {n : OrderedMap κ ν} {above : List (OrderedMap κ ν)}
    (hn : n.Layers above) (hm : m.Layers (n :: layers)) : m.Layers (above ++ layers) := by
  intro k
  rw [hm k, List.findSome?_cons, List.findSome?_append, ← hn k]
  cases n.get? k <;> rfl

theorem Layers.insert_empty {above : List (OrderedMap κ ν)} (h : m.Layers (above ++ layers)) :
    m.Layers (above ++ empty :: layers) := by
  intro k
  rw [h k, List.findSome?_append, List.findSome?_append, List.findSome?_cons, get?_empty]

end Merging

section Naming

-- keys that `name` does not tell apart
variable (name : κ → ι)

def named (m : OrderedMap κ ν) (n : ι) : List (κ × ν) := m.entries.filter fun e => name e.1 = n

def names (m : OrderedMap κ ν) (n : ι) : Bool := m.entries.any fun e => name e.1 = n

def foremost (layers : List (OrderedMap κ ν)) (n : ι) : Option (OrderedMap κ ν) :=
  layers.find? fun m => m.names name n

-- where two layers give something of one name, the higher one has the key of the lower one
def Uniform (layers : List (OrderedMap κ ν)) (n : ι) : Prop :=
  ∀ first, foremost name layers n = some first → ∀ m ∈ layers, ∀ e ∈ m.named name n,
    first.has e.1 = true

variable {name} {m first : OrderedMap κ ν} {layers : List (OrderedMap κ ν)} {n : ι} {k : κ}
  {value : ν}

theorem mem_named {e : κ × ν} : e ∈ m.named name n ↔ m.get? e.1 = some e.2 ∧ name e.1 = n := by
  rw [named, List.mem_filter, decide_eq_true_eq, get?_eq_some_iff]

omit [DecidableEq κ] in
theorem nodup_named (m : OrderedMap κ ν) (n : ι) : (m.named name n).Nodup :=
  (List.Nodup.of_map _ m.nodup).filter _

omit [DecidableEq κ] in
theorem names_iff : m.names name n = true ↔ ∃ e, e ∈ m.named name n := by
  simp [names, named]

omit [DecidableEq κ] in
theorem foremost_eq_none : foremost name layers n = none ↔ ∀ m ∈ layers, m.named name n = [] := by
  rw [foremost, List.find?_eq_none]
  refine forall₂_congr fun m _ => ?_
  rw [names_iff, not_exists, List.eq_nil_iff_forall_not_mem]

omit [DecidableEq κ] in
theorem foremost_split (h : foremost name layers n = some first) : ∃ above below,
    layers = above ++ first :: below ∧ (∀ m ∈ above, m.named name n = []) ∧
      ∃ e, e ∈ first.named name n := by
  obtain ⟨hfirst, above, below, hlayers, habove⟩ := List.find?_eq_some_iff_append.mp h
  refine ⟨above, below, hlayers, fun m hm => ?_, names_iff.1 hfirst⟩
  have hnot := habove m hm
  rw [Bool.not_eq_true'] at hnot
  by_contra hne
  have hnames := names_iff.2 (List.exists_mem_of_ne_nil _ hne)
  rw [hnot] at hnames
  cases hnames

theorem get?_of_named_nil (h : m.named name n = []) (hk : name k = n) : m.get? k = none := by
  rw [Option.eq_none_iff_forall_ne_some]
  intro value hvalue
  have hmem : (k, value) ∈ m.named name n := mem_named.2 ⟨hvalue, hk⟩
  rw [h] at hmem
  cases hmem

theorem findSome?_above {above : List (OrderedMap κ ν)} (h : ∀ m ∈ above, m.named name n = [])
    (hk : name k = n) : above.findSome? (·.get? k) = none :=
  List.findSome?_eq_none_iff.mpr fun m hm => get?_of_named_nil (h m hm) hk

namespace Layers

variable (hlayers : m.Layers layers)

include hlayers

theorem named_of_none (h : foremost name layers n = none) : m.named name n = [] := by
  rw [List.eq_nil_iff_forall_not_mem]
  intro e he
  obtain ⟨hget, hname⟩ := mem_named.1 he
  rw [hlayers, findSome?_above (foremost_eq_none.1 h) hname] at hget
  cases hget

-- what the highest layer of the name gives is all there
theorem named_subset (h : foremost name layers n = some first) :
    first.named name n ⊆ m.named name n := by
  obtain ⟨above, below, rfl, habove, -⟩ := foremost_split h
  intro e he
  obtain ⟨hget, hname⟩ := mem_named.1 he
  refine mem_named.2 ⟨?_, hname⟩
  rw [hlayers, List.findSome?_append, findSome?_above habove hname, List.findSome?_cons, hget]
  rfl

theorem has_of_mem {layer : OrderedMap κ ν} (hmem : layer ∈ layers) {e : κ × ν}
    (he : e ∈ layer.named name n) : ∃ value, (e.1, value) ∈ m.named name n := by
  obtain ⟨hget, hname⟩ := mem_named.1 he
  have hsome : (layers.findSome? (·.get? e.1)).isSome = true :=
    List.findSome?_isSome_iff.mpr ⟨layer, hmem, by rw [hget]; rfl⟩
  obtain ⟨value, hvalue⟩ := Option.isSome_iff_exists.mp hsome
  exact ⟨value, mem_named.2 ⟨(hlayers e.1).trans hvalue, hname⟩⟩

theorem mem_layer {e : κ × ν} (he : e ∈ m.named name n) :
    ∃ layer ∈ layers, e ∈ layer.named name n := by
  obtain ⟨hget, hname⟩ := mem_named.1 he
  rw [hlayers] at hget
  obtain ⟨layer, hmem, hlayer⟩ := List.exists_of_findSome?_eq_some hget
  exact ⟨layer, hmem, mem_named.2 ⟨hlayer, hname⟩⟩

theorem named_perm (h : foremost name layers n = some first) (huniform : Uniform name layers n) :
    (m.named name n).Perm (first.named name n) := by
  refine (List.perm_ext_iff_of_nodup (nodup_named m n) (nodup_named first n)).mpr fun e =>
    ⟨fun he => ?_, fun he => hlayers.named_subset h he⟩
  obtain ⟨layer, hmem, hlayer⟩ := hlayers.mem_layer he
  obtain ⟨value, hvalue⟩ := Option.isSome_iff_exists.mp (huniform first h layer hmem e hlayer)
  have hfirst : (e.1, value) ∈ first.named name n :=
    mem_named.2 ⟨hvalue, (mem_named.1 he).2⟩
  have hm := mem_named.1 (hlayers.named_subset h hfirst)
  have heq : some e.2 = some value := (mem_named.1 he).1.symm.trans hm.1
  rw [← Option.some.inj heq] at hfirst
  exact hfirst

-- without uniformity something of a lower layer is left beside it
theorem exists_foreign (h : foremost name layers n = some first) (hnot : ¬ Uniform name layers n) :
    ∃ e ∈ m.named name n, e ∉ first.named name n := by
  simp only [Uniform, not_forall] at hnot
  obtain ⟨first', h', layer, hmem, e, he, hhas⟩ := hnot
  obtain rfl := Option.some.inj (h.symm.trans h')
  obtain ⟨value, hvalue⟩ := hlayers.has_of_mem hmem he
  refine ⟨_, hvalue, fun hfirst => hhas ?_⟩
  have hget := (mem_named.1 hfirst).1
  exact Option.isSome_iff_exists.mpr ⟨value, hget⟩

theorem sum_named_lt (h : foremost name layers n = some first) (hnot : ¬ Uniform name layers n)
    {w : κ × ν → ℕ} (hw : ∀ e, 0 < w e) :
    ((first.named name n).map w).sum < ((m.named name n).map w).sum := by
  obtain ⟨e, he, hforeign⟩ := hlayers.exists_foreign h hnot
  have hsub : (e :: first.named name n).Subperm (m.named name n) := by
    refine (List.nodup_cons.mpr ⟨hforeign, nodup_named first n⟩).subperm fun e' he' => ?_
    rcases List.mem_cons.mp he' with rfl | hmem
    · exact he
    · exact hlayers.named_subset h hmem
  obtain ⟨l, hperm, hsublist⟩ := hsub
  have hle := (hsublist.map w).sum_nat_le
  rw [(hperm.map w).sum_nat, List.map_cons, List.sum_cons] at hle
  have hpos := hw e
  omega

end Layers

end Naming

end OrderedMap
