import Mathlib.Data.List.TakeWhile
import Mathlib.Tactic.NormNum

namespace Lines

variable {α : Type} [DecidableEq α] (sep : α)

-- the lines that a separator ends, and the text after the last separator
def split : List α → List (List α) × List α
  | [] => ([], [])
  | c :: text =>
      if c = sep then ([] :: (split text).1, (split text).2)
      else
        match (split text).1 with
        | [] => ([], c :: (split text).2)
        | line :: lines => ((c :: line) :: lines, (split text).2)

def completed (text : List α) : List (List α) := (split sep text).1

def remainder (text : List α) : List α := (split sep text).2

variable {sep}

theorem split_append (x y : List α) :
    split sep (x ++ y) =
      (completed sep x ++ completed sep (remainder sep x ++ y),
        remainder sep (remainder sep x ++ y)) := by
  induction x with
  | nil => rfl
  | cons c x ih =>
      by_cases hc : c = sep
      · simp only [completed, remainder, List.cons_append, split, if_pos hc] at ih ⊢
        rw [ih]
      · cases hx : (split sep x).1 with
        | nil =>
            simp only [completed, remainder, hx, List.nil_append] at ih
            simp only [completed, remainder, List.cons_append, split, if_neg hc, hx, ih,
              List.nil_append]
        | cons line lines =>
            simp only [completed, remainder, hx, List.cons_append] at ih
            simp only [completed, remainder, List.cons_append, split, if_neg hc, hx, ih]

theorem completed_append (x y : List α) :
    completed sep (x ++ y) = completed sep x ++ completed sep (remainder sep x ++ y) :=
  congrArg Prod.fst (split_append x y)

theorem remainder_append (x y : List α) :
    remainder sep (x ++ y) = remainder sep (remainder sep x ++ y) := by
  rw [remainder, split_append]

theorem split_of_not_mem {text : List α} (h : sep ∉ text) : split sep text = ([], text) := by
  induction text with
  | nil => rfl
  | cons c text ih =>
      obtain ⟨hc, htext⟩ := not_or.mp (List.mem_cons.not.mp h)
      simp only [split, if_neg (Ne.symm hc), ih htext]

theorem completed_of_not_mem {text : List α} (h : sep ∉ text) : completed sep text = [] :=
  congrArg Prod.fst (split_of_not_mem h)

theorem remainder_of_not_mem {text : List α} (h : sep ∉ text) : remainder sep text = text :=
  congrArg Prod.snd (split_of_not_mem h)

theorem not_mem_remainder (text : List α) : sep ∉ remainder sep text := by
  induction text with
  | nil => exact List.not_mem_nil
  | cons c text ih =>
      by_cases hc : c = sep
      · simpa [remainder, split, hc] using ih
      · cases htext : (split sep text).1 with
        | nil =>
            intro h
            simp only [remainder, split, if_neg hc, htext, List.mem_cons] at h
            exact h.elim (fun hsep => hc hsep.symm) ih
        | cons line lines => simpa [remainder, split, hc, htext] using ih

theorem split_line {line : List α} (h : sep ∉ line) (rest : List α) :
    split sep (line ++ sep :: rest) = (line :: completed sep rest, remainder sep rest) := by
  induction line with
  | nil => simp only [List.nil_append, split, if_pos, completed, remainder]
  | cons c line ih =>
      obtain ⟨hc, hline⟩ := not_or.mp (List.mem_cons.not.mp h)
      simp only [List.cons_append, split, if_neg (Ne.symm hc), ih hline]

theorem completed_line {line : List α} (h : sep ∉ line) (rest : List α) :
    completed sep (line ++ sep :: rest) = line :: completed sep rest :=
  congrArg Prod.fst (split_line h rest)

theorem remainder_line {line : List α} (h : sep ∉ line) (rest : List α) :
    remainder sep (line ++ sep :: rest) = remainder sep rest := by
  rw [remainder, split_line h]

theorem remainder_concat_sep (text : List α) : remainder sep (text ++ [sep]) = [] := by
  rw [remainder_append, remainder_line (not_mem_remainder text)]
  rfl

theorem completed_append_of_not_mem (text : List α) {rest : List α} (h : sep ∉ rest) :
    completed sep (text ++ sep :: rest) = completed sep (text ++ [sep]) := by
  rw [show text ++ sep :: rest = (text ++ [sep]) ++ rest by simp, completed_append,
    remainder_concat_sep, List.nil_append, completed_of_not_mem h, List.append_nil]

theorem flatten_map_concat (text : List α) :
    ((completed sep text).map (· ++ [sep])).flatten ++ remainder sep text = text := by
  induction text with
  | nil => rfl
  | cons c text ih =>
      by_cases hc : c = sep
      · simp only [completed, remainder, split, if_pos hc, List.map_cons, List.flatten_cons,
          List.nil_append, List.cons_append] at ih ⊢
        rw [ih, hc]
      · cases htext : (split sep text).1 with
        | nil =>
            simp only [completed, remainder, htext, List.map_nil, List.flatten_nil,
              List.nil_append] at ih
            simp only [completed, remainder, split, if_neg hc, htext, List.map_nil,
              List.flatten_nil, List.nil_append, ih]
        | cons line lines =>
            simp only [completed, remainder, htext, List.map_cons, List.flatten_cons] at ih
            simp only [completed, remainder, split, if_neg hc, htext, List.map_cons,
              List.flatten_cons, List.cons_append, ih]

theorem sum_count_completed {c : α} (hc : c ≠ sep) (text : List α) :
    ((completed sep (text ++ [sep])).map (List.count c)).sum = text.count c := by
  have hlines : ((completed sep (text ++ [sep])).map (· ++ [sep])).flatten ++
      remainder sep (text ++ [sep]) = text ++ [sep] := flatten_map_concat _
  have hjoin := congrArg (List.count c) hlines
  rw [remainder_concat_sep, List.append_nil, List.count_flatten, List.map_map,
    List.count_append, List.count_singleton, if_neg (by simpa using hc.symm)] at hjoin
  rw [← Nat.add_zero (text.count c), ← hjoin]
  congr 1
  apply List.map_congr_left
  intro line _
  simp [List.count_append, hc.symm]

-- the first line and what follows it, as indexOf and slice give them
def takeLine (sep : α) (text : List α) : Option (List α × List α) :=
  match text.dropWhile (· ≠ sep) with
  | [] => none
  | _ :: rest => some (text.takeWhile (· ≠ sep), rest)

theorem takeLine_eq_none {text : List α} (h : takeLine sep text = none) : sep ∉ text := by
  intro hmem
  unfold takeLine at h
  split at h
  next hdrop =>
    have hall : ∀ c ∈ text, c ≠ sep := by simpa using hdrop
    exact hall sep hmem rfl
  next => cases h

theorem takeLine_eq_some {text line rest : List α} (h : takeLine sep text = some (line, rest)) :
    sep ∉ line ∧ text = line ++ sep :: rest := by
  unfold takeLine at h
  split at h
  next => cases h
  next c rest' hdrop =>
    cases h
    have hc : c = sep := by
      have hhead := List.head?_dropWhile_not (fun x => decide (x ≠ sep)) text
      rw [hdrop] at hhead
      simpa using hhead
    have htext := List.takeWhile_append_dropWhile (p := fun x => decide (x ≠ sep)) (l := text)
    rw [hdrop, hc] at htext
    constructor
    · intro hmem
      simpa using List.mem_takeWhile_imp hmem
    · exact htext.symm

omit [DecidableEq α] in
-- the piece of a cut text that holds an element, and what stands before and after the element
theorem flatten_eq_at {pieces : List (List α)} {x z : List α} {y : α}
    (h : pieces.flatten = x ++ y :: z) :
    ∃ before a b after, pieces = before ++ (a ++ y :: b) :: after ∧ before.flatten ++ a = x ∧
      b ++ after.flatten = z := by
  rcases List.flatten_eq_append_iff.mp h with ⟨before, rest, rfl, rfl, hrest⟩ |
    ⟨before, a, c, b, after, rfl, rfl, hz⟩
  · obtain ⟨empty, b, after, rfl, hempty, rfl⟩ := List.flatten_eq_cons_iff.mp hrest.symm
    refine ⟨before ++ empty, [], b, after, ?_, ?_, rfl⟩
    · rw [List.append_assoc, List.nil_append]
    · rw [List.flatten_append, List.flatten_eq_nil_iff.mpr hempty, List.append_nil,
        List.append_nil]
  · rw [List.cons_append, List.cons.injEq] at hz
    obtain ⟨rfl, rfl⟩ := hz
    exact ⟨before, a, b, after, rfl, rfl, rfl⟩

omit [DecidableEq α] in
theorem eq_append_of_mem {text : List α} (h : sep ∈ text) :
    ∃ front back, text = front ++ sep :: back ∧ sep ∉ back := by
  obtain ⟨back, front, hreverse, hback⟩ := List.eq_append_cons_of_mem (List.mem_reverse.mpr h)
  refine ⟨front.reverse, back.reverse, ?_, fun hmem => hback (List.mem_reverse.mp hmem)⟩
  rw [← List.reverse_reverse text, hreverse, List.reverse_append, List.reverse_cons,
    List.append_assoc]
  rfl

end Lines
