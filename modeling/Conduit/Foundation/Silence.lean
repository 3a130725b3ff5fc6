import Mathlib.Data.List.Basic

variable {σ α : Type*}

-- a step that leaves a state alone exactly when it agrees with it, and marks it for good otherwise
structure SilentWhen (loud : σ → Prop) (f : σ → σ) (agrees : σ → Prop) : Prop where
  keeps : ∀ s, loud s → loud (f s)
  silent : ∀ s, agrees s → f s = s
  marks : ∀ s, ¬ agrees s → loud (f s)

namespace SilentWhen

variable {loud agrees agrees' : σ → Prop} {f g : σ → σ}

theorem of_ite {cond : σ → Bool} {mark : σ → σ} (hmark : ∀ s, loud (mark s)) :
    SilentWhen loud (fun s => if cond s = true then s else mark s) fun s => cond s = true where
  keeps s h := by
    split
    · exact h
    · exact hmark s
  silent s h := if_pos h
  marks s h := by
    rw [if_neg h]
    exact hmark s

theorem comp (hf : SilentWhen loud f agrees) (hg : SilentWhen loud g agrees') :
    SilentWhen loud (fun s => g (f s)) fun s => agrees s ∧ agrees' s where
  keeps s h := hg.keeps _ (hf.keeps s h)
  silent s h := by
    rw [hf.silent s h.1, hg.silent s h.2]
  marks s h := by
    by_cases hs : agrees s
    · rw [hf.silent s hs]
      exact hg.marks s fun h' => h ⟨hs, h'⟩
    · exact hg.keeps _ (hf.marks s hs)

theorem foldl {f : σ → α → σ} {agrees : α → σ → Prop}
    (hf : ∀ x, SilentWhen loud (fun s => f s x) (agrees x)) (xs : List α) :
    SilentWhen loud (fun s => xs.foldl f s) fun s => ∀ x ∈ xs, agrees x s := by
  induction xs with
  | nil =>
      exact ⟨fun _ h => h, fun _ _ => rfl, fun s h => absurd (fun x hx => by cases hx) h⟩
  | cons x xs ih =>
      have hcomp := (hf x).comp ih
      refine ⟨hcomp.keeps, fun s h => hcomp.silent s ?_, fun s h => hcomp.marks s ?_⟩
      · exact ⟨h x (List.mem_cons_self ..), fun y hy => h y (List.mem_cons_of_mem _ hy)⟩
      · rintro ⟨hx, hxs⟩
        refine h fun y hy => ?_
        rcases List.mem_cons.mp hy with rfl | hy
        · exact hx
        · exact hxs y hy

theorem congr (hf : SilentWhen loud f agrees) (h : ∀ s, agrees s ↔ agrees' s) :
    SilentWhen loud f agrees' :=
  ⟨hf.keeps, fun s hs => hf.silent s ((h s).mpr hs), fun s hs => hf.marks s fun hs' => hs ((h s).mp hs')⟩

theorem eq_iff (hf : SilentWhen loud f agrees) {s : σ} (hs : ¬ loud s) : f s = s ↔ agrees s := by
  refine ⟨fun heq => ?_, hf.silent s⟩
  by_contra hdiffers
  have hloud := hf.marks s hdiffers
  rw [heq] at hloud
  exact hs hloud

end SilentWhen
