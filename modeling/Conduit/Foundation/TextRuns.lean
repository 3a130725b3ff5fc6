import Mathlib.Data.List.Infix

-- the longest runs of characters of one kind
namespace TextRuns

variable {α : Type*} (p : α → Bool)

def split : List α → List α × List (List α)
  | [] => ([], [])
  | c :: rest =>
      let found := split rest
      if p c then (c :: found.1, found.2) else ([], found.1 :: found.2)

def runs (text : List α) : List (List α) :=
  ((split p text).1 :: (split p text).2).filter fun run => !run.isEmpty

theorem split_infix (text : List α) :
    (split p text).1 <+: text ∧ ∀ run ∈ (split p text).2, run <:+: text := by
  induction text with
  | nil => simp [split]
  | cons c rest ih =>
      obtain ⟨hfirst, hmore⟩ := ih
      have hrest : ∀ run ∈ (split p rest).2, run <:+: c :: rest := fun run hrun =>
        (hmore run hrun).trans (List.suffix_cons c rest).isInfix
      unfold split
      dsimp only
      split
      · exact ⟨List.cons_prefix_cons.mpr ⟨rfl, hfirst⟩, hrest⟩
      · refine ⟨List.nil_prefix, ?_⟩
        intro run hrun
        rcases List.mem_cons.mp hrun with rfl | hrun
        · exact hfirst.isInfix.trans (List.suffix_cons c rest).isInfix
        · exact hrest run hrun

theorem infix_of_mem_runs {text run : List α} (h : run ∈ runs p text) : run <:+: text := by
  obtain ⟨hfirst, hmore⟩ := split_infix p text
  rcases List.mem_cons.mp (List.mem_filter.mp h).1 with rfl | h
  · exact hfirst.isInfix
  · exact hmore run h

theorem ne_nil_of_mem_runs {text run : List α} (h : run ∈ runs p text) : run ≠ [] := by
  simpa using (List.mem_filter.mp h).2

end TextRuns
