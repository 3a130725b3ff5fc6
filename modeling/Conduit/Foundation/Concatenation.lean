import Mathlib.Data.List.Infix
import Mathlib.Data.List.Basic

namespace Concatenation

section Words

variable {α : Type} [DecidableEq α]

-- joins the words one after the other until they spell the target or outgrow it
def scan (target : List α) : List α → List (List α) → Bool
  | _, [] => false
  | joined, word :: rest =>
      if joined ++ word = target then true
      else if target.length < (joined ++ word).length then false
      else scan target (joined ++ word) rest

def search (target : List α) (words : List (List α)) : Bool :=
  (List.range words.length).any fun i => scan target [] (words.drop i)

theorem scan_iff {target joined : List α} {words : List (List α)} :
    scan target joined words = true ↔
      ∃ run, run ≠ [] ∧ run <+: words ∧ joined ++ run.flatten = target := by
  induction words generalizing joined with
  | nil =>
      refine iff_of_false Bool.false_ne_true ?_
      rintro ⟨run, hne, hprefix, -⟩
      exact hne (List.prefix_nil.mp hprefix)
  | cons word rest ih =>
      have hcons : (∃ run, run ≠ [] ∧ run <+: word :: rest ∧ joined ++ run.flatten = target) ↔
          joined ++ word = target ∨
            ∃ run, run ≠ [] ∧ run <+: rest ∧ joined ++ word ++ run.flatten = target := by
        constructor
        · rintro ⟨run, hne, hprefix, heq⟩
          cases run with
          | nil => exact absurd rfl hne
          | cons first run =>
              obtain ⟨rfl, hrun⟩ := List.cons_prefix_cons.mp hprefix
              rw [List.flatten_cons, ← List.append_assoc] at heq
              cases run with
              | nil => exact .inl (by rwa [List.flatten_nil, List.append_nil] at heq)
              | cons second run => exact .inr ⟨second :: run, List.cons_ne_nil _ _, hrun, heq⟩
        · rintro (heq | ⟨run, -, hprefix, heq⟩)
          · refine ⟨[word], List.cons_ne_nil _ _, List.prefix_append [word] rest, ?_⟩
            rw [List.flatten_singleton, heq]
          · refine ⟨word :: run, List.cons_ne_nil _ _, ?_, ?_⟩
            · exact List.cons_prefix_cons.mpr ⟨rfl, hprefix⟩
            · rw [List.flatten_cons, ← List.append_assoc, heq]
      rw [hcons, scan]
      split
      next heq => exact iff_of_true rfl (.inl heq)
      next hne =>
        split
        next hlong =>
          refine iff_of_false Bool.false_ne_true ?_
          rintro (heq | ⟨run, -, -, heq⟩)
          · exact hne heq
          · have hlength := congrArg List.length heq
            rw [List.length_append] at hlength
            omega
        · rw [ih]
          exact (or_iff_right hne).symm

theorem search_iff {target : List α} {words : List (List α)} :
    search target words = true ↔
      ∃ run, run ≠ [] ∧ run <:+: words ∧ run.flatten = target := by
  unfold search
  rw [List.any_eq_true]
  constructor
  · rintro ⟨i, -, hscan⟩
    obtain ⟨run, hne, hprefix, heq⟩ := scan_iff.1 hscan
    exact ⟨run, hne, hprefix.isInfix.trans (List.drop_suffix i words).isInfix, heq⟩
  · rintro ⟨run, hne, ⟨before, later, rfl⟩, heq⟩
    refine ⟨before.length, ?_, scan_iff.2 ⟨run, hne, ?_, heq⟩⟩
    · have hpos := List.length_pos_iff.mpr hne
      rw [List.mem_range, List.length_append, List.length_append]
      omega
    · rw [List.append_assoc, List.drop_left]
      exact List.prefix_append run later

end Words

section Windows

variable {α : Type} [DecidableEq α]

def occursAt (xs ys : List α) (i : ℕ) : Bool :=
  (List.range ys.length).all fun j => xs[i + j]? = ys[j]?

def occurs (xs ys : List α) : Bool :=
  (List.range (xs.length - ys.length + 1)).any (occursAt xs ys)

theorem prefix_of_occursAt {xs ys : List α} {i : ℕ} (h : occursAt xs ys i = true) :
    ys <+: xs.drop i := by
  rw [List.prefix_iff_getElem?]
  intro j hj
  have hwindow := of_decide_eq_true (List.all_eq_true.mp h j (List.mem_range.mpr hj))
  rw [List.getElem?_drop, hwindow, List.getElem?_eq_getElem hj]

theorem infix_of_occurs {xs ys : List α} (h : occurs xs ys = true) : ys <:+: xs := by
  obtain ⟨i, -, hi⟩ := List.any_eq_true.mp h
  exact (prefix_of_occursAt hi).isInfix.trans (List.drop_suffix i xs).isInfix

end Windows

end Concatenation
