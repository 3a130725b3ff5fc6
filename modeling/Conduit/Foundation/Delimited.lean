import Mathlib.Data.List.Basic

namespace Delimited

section Lists

variable {α : Type*} {c : α} {word a b a' b' rest w : List α}

def mark (c : α) (word : List α) : List α := c :: (word ++ [c])

theorem eq_mark_append_iff (hc : c ∉ word) :
    mark c word ++ b = w ++ (mark c word ++ b') ↔
      w = [] ∧ b = b' ∨ w = c :: word ∧ b = word ++ c :: b' ∨
        ∃ u, w = mark c word ++ u ∧ b = u ++ (mark c word ++ b') := by
  constructor
  · intro h
    rcases List.append_eq_append_iff.mp h with ⟨u, rfl, hb⟩ | ⟨v, hmark, hrest⟩
    · exact .inr (.inr ⟨u, rfl, hb⟩)
    · cases w with
      | nil =>
          rw [List.nil_append] at hmark
          subst hmark
          exact .inl ⟨rfl, (List.append_cancel_left hrest).symm⟩
      | cons x w =>
          obtain ⟨rfl, hword⟩ := List.cons.inj hmark
          cases v with
          | nil =>
              have hw : w = word ++ [c] := (hword.trans (List.append_nil w)).symm
              subst hw
              exact .inr (.inr ⟨[], (List.append_nil _).symm, hrest.symm⟩)
          | cons y v =>
              obtain ⟨rfl, htail⟩ := List.cons.inj hrest
              obtain ⟨rfl, hv⟩ : word = w ∧ v = [] := by
                rcases List.append_eq_append_iff.mp hword with ⟨x, rfl, hx⟩ | ⟨x, rfl, hx⟩
                · cases x with
                  | nil => exact ⟨(List.append_nil _).symm, by simpa using hx.symm⟩
                  | cons y x => simp at hx
                · cases x with
                  | nil => exact ⟨List.append_nil _, by simpa using hx⟩
                  | cons y x =>
                      obtain ⟨rfl, -⟩ := List.cons.inj hx
                      simp at hc
              subst hv
              refine .inr (.inl ⟨rfl, ?_⟩)
              simpa using htail.symm
  · rintro (⟨rfl, rfl⟩ | ⟨rfl, rfl⟩ | ⟨u, rfl, rfl⟩) <;> simp [mark]

-- `a'` goes on after `a` with the mark, whole or without its last letter
def Continues (c : α) (word a b a' b' : List α) : Prop :=
  a' = a ++ c :: word ∧ b = word ++ c :: b' ∨
    ∃ u, a' = a ++ (mark c word ++ u) ∧ b = u ++ (mark c word ++ b')

theorem joined_eq_iff (hc : c ∉ word) :
    a ++ (mark c word ++ b) = a' ++ (mark c word ++ b') ↔
      a = a' ∧ b = b' ∨ Continues c word a b a' b' ∨ Continues c word a' b' a b := by
  constructor
  · intro h
    rcases List.append_eq_append_iff.mp h with ⟨w, rfl, hw⟩ | ⟨w, rfl, hw⟩
    · rcases (eq_mark_append_iff hc).mp hw with ⟨rfl, rfl⟩ | ⟨rfl, rfl⟩ | ⟨u, rfl, rfl⟩
      · exact .inl ⟨(List.append_nil _).symm, rfl⟩
      · exact .inr (.inl (.inl ⟨rfl, rfl⟩))
      · exact .inr (.inl (.inr ⟨u, rfl, rfl⟩))
    · rcases (eq_mark_append_iff hc).mp hw with ⟨rfl, rfl⟩ | ⟨rfl, rfl⟩ | ⟨u, rfl, rfl⟩
      · exact .inl ⟨List.append_nil _, rfl⟩
      · exact .inr (.inr (.inl ⟨rfl, rfl⟩))
      · exact .inr (.inr (.inr ⟨u, rfl, rfl⟩))
  · rintro (⟨rfl, rfl⟩ | (⟨rfl, rfl⟩ | ⟨u, rfl, rfl⟩) | (⟨rfl, rfl⟩ | ⟨u, rfl, rfl⟩)) <;> simp [mark]

theorem prefix_append_cases (h : w <+: a ++ b) : w <+: a ∨ ∃ u, w = a ++ u ∧ u <+: b := by
  obtain ⟨rest, hrest⟩ := h
  rcases List.append_eq_append_iff.mp hrest with ⟨u, rfl, -⟩ | ⟨u, rfl, rfl⟩
  · exact .inl (List.prefix_append ..)
  · exact .inr ⟨u, rfl, List.prefix_append ..⟩

-- a text that ends with the letter and fits before the mark stops at its edges
theorem ended_cases (hc : c ∉ word) (h : w ++ [c] <+: mark c word ++ rest) :
    w = [] ∨ mark c word <+: w ++ [c] := by
  rcases prefix_append_cases h with hmark | ⟨u, hw, -⟩
  · cases w with
    | nil => exact .inl rfl
    | cons x w =>
        obtain ⟨rfl, hword⟩ := List.cons_prefix_cons.mp hmark
        rcases prefix_append_cases hword with hinside | ⟨u, hu, hedge⟩
        · exact absurd (hinside.mem (by simp)) hc
        · cases u with
          | nil =>
              rw [List.append_nil] at hu
              exact absurd (by simp [← hu]) hc
          | cons y u =>
              obtain ⟨rfl, hnil⟩ := List.cons_prefix_cons.mp hedge
              obtain rfl := List.prefix_nil.mp hnil
              have hw : w ++ [y] = word ++ [y] := hu
              exact .inr (by rw [List.cons_append, hw]; exact List.prefix_refl _)
  · exact .inr (hw ▸ List.prefix_append ..)

theorem ended_prefix_cases (hc : c ∉ word) (h : a ++ [c] <+: b ++ (mark c word ++ rest)) :
    a = b ∨ a ++ [c] <+: b ∨ b ++ mark c word <+: a ++ [c] := by
  rcases prefix_append_cases h with hinside | ⟨u, hu, hrest⟩
  · exact .inr (.inl hinside)
  · rcases List.eq_nil_or_concat u with rfl | ⟨v, x, rfl⟩
    · rw [List.append_nil] at hu
      exact .inr (.inl (hu ▸ List.prefix_refl _))
    · rw [List.concat_eq_append] at hu hrest
      rw [← List.append_assoc] at hu
      obtain ⟨rfl, hx⟩ := List.append_inj' hu rfl
      obtain rfl : c = x := by simpa using hx
      rcases ended_cases hc hrest with rfl | hmark
      · exact .inl (List.append_nil _)
      · rw [List.append_assoc]
        exact .inr (.inr ((List.prefix_append_right_inj _).mpr hmark))

end Lists

section Strings

variable {word a b a' b' : String}

def joined (word a b : String) : String := a ++ (":" ++ word ++ ":") ++ b

structure Extends (word a b a' b' rest : String) : Prop where
  longer : a' = a ++ (":" ++ word ++ ":") ++ rest
  shorter : b = rest ++ (":" ++ word ++ ":") ++ b'

structure Touches (word a b a' b' : String) : Prop where
  longer : a' = a ++ ":" ++ word
  shorter : b = word ++ ":" ++ b'

-- the first part of one pair goes on, with the mark, where the other's ends
def Shifted (word a b a' b' : String) : Prop :=
  (Touches word a b a' b' ∨ ∃ rest, Extends word a b a' b' rest) ∨
    Touches word a' b' a b ∨ ∃ rest, Extends word a' b' a b rest

theorem toList_joined (word a b : String) :
    (joined word a b).toList = a.toList ++ (mark ':' word.toList ++ b.toList) := by
  simp [joined, mark]

theorem continues_iff : Continues ':' word.toList a.toList b.toList a'.toList b'.toList ↔
    Touches word a b a' b' ∨ ∃ rest, Extends word a b a' b' rest := by
  constructor
  · rintro (⟨ha, hb⟩ | ⟨u, ha, hb⟩)
    · exact .inl ⟨String.toList_injective (by simp [ha]), String.toList_injective (by simp [hb])⟩
    · refine .inr ⟨String.ofList u, ?_, ?_⟩
      · exact String.toList_injective (by simp [ha, mark])
      · exact String.toList_injective (by simp [hb, mark])
  · rintro (⟨rfl, rfl⟩ | ⟨rest, rfl, rfl⟩)
    · exact .inl (by simp)
    · exact .inr ⟨rest.toList, by simp [mark]⟩

theorem joined_inj_iff (hword : ':' ∉ word.toList) :
    joined word a b = joined word a' b' ↔ a = a' ∧ b = b' ∨ Shifted word a b a' b' := by
  rw [← String.toList_inj, toList_joined, toList_joined, joined_eq_iff hword, continues_iff,
    continues_iff, String.toList_inj, String.toList_inj, Shifted]

theorem Shifted.ne (h : Shifted word a b a' b') : a ≠ a' := by
  rintro rfl
  rcases h with (⟨h, -⟩ | ⟨rest, h, -⟩) | (⟨h, -⟩ | ⟨rest, h, -⟩) <;>
    · have hlength := congrArg String.length h
      simp only [String.length_append] at hlength
      have hcolon : ":".length = 1 := rfl
      omega

end Strings

end Delimited
