import Conduit.Foundation.Json
import Mathlib.Data.List.Forall2

namespace Json

-- the same value but for the order in which the fields of its objects stand
inductive Rearranged : Json → Json → Prop where
  | refl (v : Json) : Rearranged v v
  | symm {v w : Json} (h : Rearranged v w) : Rearranged w v
  | trans {u v w : Json} (h : Rearranged u v) (h' : Rearranged v w) : Rearranged u w
  | item {v w : Json} (before after : List Json) (h : Rearranged v w) :
      Rearranged (.arr (before ++ v :: after)) (.arr (before ++ w :: after))
  | field {v w : Json} (before after : List (String × Json)) (k : String) (h : Rearranged v w) :
      Rearranged (.obj (before ++ (k, v) :: after)) (.obj (before ++ (k, w) :: after))
  | perm {es fs : List (String × Json)} (h : es.Perm fs) : Rearranged (.obj es) (.obj fs)

-- fields with equal keys and rearranged values
def SameField (e f : String × Json) : Prop := e.1 = f.1 ∧ Rearranged e.2 f.2

theorem Rearranged.append_items {vs ws : List Json} (h : List.Forall₂ Rearranged vs ws)
    (before : List Json) : Rearranged (.arr (before ++ vs)) (.arr (before ++ ws)) := by
  induction h generalizing before with
  | nil => exact .refl _
  | cons hhead _ ih =>
      rename_i v w vs ws _
      have htail := ih (before ++ [w])
      rw [List.append_assoc, List.append_assoc] at htail
      exact (Rearranged.item before vs hhead).trans htail

theorem Rearranged.arr {vs ws : List Json} (h : List.Forall₂ Rearranged vs ws) :
    Rearranged (.arr vs) (.arr ws) :=
  append_items h []

theorem Rearranged.append_fields {es fs : List (String × Json)} (h : List.Forall₂ SameField es fs)
    (before : List (String × Json)) : Rearranged (.obj (before ++ es)) (.obj (before ++ fs)) := by
  induction h generalizing before with
  | nil => exact .refl _
  | cons hhead _ ih =>
      rename_i e f es fs _
      obtain ⟨k, v⟩ := e
      obtain ⟨k', w⟩ := f
      obtain ⟨rfl, hvalue⟩ : k = k' ∧ Rearranged v w := hhead
      have htail := ih (before ++ [(k, w)])
      rw [List.append_assoc, List.append_assoc] at htail
      exact (Rearranged.field before es k hvalue).trans htail

theorem Rearranged.obj {es fs : List (String × Json)} (h : List.Forall₂ SameField es fs) :
    Rearranged (.obj es) (.obj fs) :=
  append_fields h []

end Json
