import Mathlib.Data.Int.CardIntervalMod
import Mathlib.Data.Nat.Periodic

namespace Rotation

-- the residues of any k * n consecutive counters meet each class k times
theorem countP_mod (start k : ℕ) {n i : ℕ} (hi : i < n) :
    (List.range' start (k * n)).countP (fun j => j % n = i) = k := by
  have hperiodic : Function.Periodic (fun j => j % n = i) (k * n) := by
    intro j
    dsimp only
    rw [mul_comm, Nat.add_mul_mod_self_left]
  have hcard := Nat.filter_multiset_Ico_card_eq_of_periodic start (k * n) _ hperiodic
  have hico : Multiset.Ico start (start + k * n) = ↑(List.range' start (k * n)) := by
    change (↑(List.range' start (start + k * n - start)) : Multiset ℕ) = _
    rw [Nat.add_sub_cancel_left]
  rw [hico, ← Multiset.countP_eq_card_filter, Multiset.coe_countP] at hcard
  rw [hcard]
  have hcount := Nat.count_modEq_card (k * n) (Nat.zero_lt_of_lt hi) i
  rw [Nat.mul_div_cancel k (Nat.zero_lt_of_lt hi), Nat.mul_mod_left,
    if_neg (Nat.not_lt_zero _), Nat.add_zero] at hcount
  simp only [Nat.ModEq, Nat.mod_eq_of_lt hi] at hcount
  exact hcount

variable {α : Type} [DecidableEq α] {xs : List α}

omit [DecidableEq α] in
theorem getElem?_mod_eq_some (hnodup : xs.Nodup) {i : ℕ} (hi : i < xs.length) (j : ℕ) :
    xs[j % xs.length]? = some xs[i] ↔ j % xs.length = i := by
  have hj : j % xs.length < xs.length := Nat.mod_lt j (Nat.zero_lt_of_lt hi)
  rw [List.getElem?_eq_getElem hj, Option.some.injEq, hnodup.getElem_inj_iff]

theorem count_rotation (hnodup : xs.Nodup) {x : α} (hx : x ∈ xs) (start k : ℕ) :
    ((List.range' start (k * xs.length)).map fun j => xs[j % xs.length]?).count (some x) = k := by
  obtain ⟨i, hi, rfl⟩ := List.getElem_of_mem hx
  rw [List.count_eq_countP, List.countP_map]
  calc (List.range' start (k * xs.length)).countP
          ((fun y => y == some xs[i]) ∘ fun j => xs[j % xs.length]?)
      = (List.range' start (k * xs.length)).countP (fun j => j % xs.length = i) := by
        apply List.countP_congr
        intro j _
        simp only [Function.comp, beq_iff_eq, decide_eq_true_eq]
        exact getElem?_mod_eq_some hnodup hi j
    _ = k := countP_mod start k hi

end Rotation
