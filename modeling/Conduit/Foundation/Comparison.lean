import Mathlib.Data.List.Sort

-- functions that compare: negative, zero or positive
namespace Comparison

variable {α : Type*}

structure Lawful (compare : α → α → ℤ) : Prop where
  swap : ∀ a b, compare a b < 0 ↔ 0 < compare b a
  trans : ∀ a b c, compare a b ≤ 0 → compare b c ≤ 0 → compare a c ≤ 0

def orElse (first second : α → α → ℤ) (a b : α) : ℤ :=
  if first a b = 0 then second a b else first a b

def sort (compare : α → α → ℤ) (xs : List α) : List α :=
  xs.insertionSort fun a b => compare a b ≤ 0

section Laws

variable {compare first second : α → α → ℤ}

theorem Lawful.total (h : Lawful compare) (a b : α) : compare a b ≤ 0 ∨ compare b a ≤ 0 := by
  have hswap := h.swap b a
  omega

theorem Lawful.eq_zero_iff (h : Lawful compare) (a b : α) : compare a b = 0 ↔ compare b a = 0 := by
  have hswap := h.swap a b
  have hswap' := h.swap b a
  omega

theorem Lawful.orElse (hfirst : Lawful first) (hsecond : Lawful second) :
    Lawful (orElse first second) where
  swap a b := by
    have hzero := hfirst.eq_zero_iff a b
    have hswap := hfirst.swap a b
    have hswap' := hsecond.swap a b
    by_cases hab : first a b = 0
    · simp [Comparison.orElse, hab, hzero.mp hab, hswap']
    · simp [Comparison.orElse, hab, mt hzero.mpr hab, hswap]
  trans a b c hab hbc := by
    have hfab := hfirst.swap a b
    have hfbc := hfirst.swap b c
    have hfba := hfirst.swap b a
    have hfcb := hfirst.swap c b
    have hac := hfirst.trans a b c
    have hcab := hfirst.trans c a b
    have hbca := hfirst.trans b c a
    have hfac := hfirst.swap a c
    have hfca := hfirst.swap c a
    have hsac := hsecond.trans a b c
    unfold Comparison.orElse at hab hbc ⊢
    split at hab
    · split at hbc
      · split
        · exact hsac hab hbc
        · omega
      · split
        · omega
        · omega
    · split at hbc
      · split
        · omega
        · omega
      · split
        · omega
        · omega

theorem lawful_descending (key : α → ℤ) : Lawful fun a b => key b - key a where
  swap a b := by omega
  trans a b c hab hbc := by omega

theorem Lawful.comap {β : Type*} {compare : β → β → ℤ} (h : Lawful compare) (f : α → β) :
    Lawful fun a b => compare (f a) (f b) where
  swap a b := h.swap (f a) (f b)
  trans a b c := h.trans (f a) (f b) (f c)

end Laws

section Sorting

variable (compare : α → α → ℤ)

theorem perm_sort (xs : List α) : (sort compare xs).Perm xs := List.perm_insertionSort _ xs

variable {compare}

theorem pairwise_sort (h : Lawful compare) (xs : List α) :
    (sort compare xs).Pairwise fun a b => compare a b ≤ 0 := by
  have : Std.Total fun a b => compare a b ≤ 0 := ⟨h.total⟩
  have : IsTrans α fun a b => compare a b ≤ 0 := ⟨h.trans⟩
  exact List.pairwise_insertionSort _ xs

-- what compares as equal stays in its order
theorem filter_sort (h : Lawful compare) (xs : List α) (a : α) :
    (sort compare xs).filter (fun x => compare x a = 0) = xs.filter fun x => compare x a = 0 := by
  have htotal : Std.Total fun a b => compare a b ≤ 0 := ⟨h.total⟩
  have htrans : IsTrans α fun a b => compare a b ≤ 0 := ⟨h.trans⟩
  have hequal : (xs.filter fun x => compare x a = 0).Pairwise fun a b => compare a b ≤ 0 := by
    apply List.pairwise_of_forall_mem_list
    intro x hx y hy
    have hxa : compare x a = 0 := by simpa using (List.mem_filter.mp hx).2
    have hya : compare y a = 0 := by simpa using (List.mem_filter.mp hy).2
    exact h.trans x a y (by omega) (by rw [(h.eq_zero_iff y a).mp hya])
  have hsub := List.sublist_insertionSort hequal List.filter_sublist
  have hfiltered := hsub.filter fun x => compare x a = 0
  rw [List.filter_filter] at hfiltered
  simp only [Bool.and_self] at hfiltered
  exact (hfiltered.eq_of_length ((perm_sort compare xs).filter _).length_eq.symm).symm

end Sorting

end Comparison
