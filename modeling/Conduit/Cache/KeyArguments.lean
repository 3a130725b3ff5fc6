import Conduit.Cache.KeyContents
import Conduit.Foundation.CodeUnits
import Conduit.Foundation.JsonOrder

namespace Conduit.Utils

open Json

mutual

-- what of a value gets into its canonical text: no member named __proto__, no infinite number
def stripped : Json → Json
  | .num .posInfinity => .null
  | .num .negInfinity => .null
  | .arr items => .arr (strippedItems items)
  | .obj fields => .obj (strippedFields fields)
  | v => v

def strippedItems : List Json → List Json
  | [] => []
  | v :: rest => stripped v :: strippedItems rest

def strippedFields : List (String × Json) → List (String × Json)
  | [] => []
  | (k, v) :: rest =>
      if k = protoKey then strippedFields rest else (k, stripped v) :: strippedFields rest

end

theorem strippedFields_assignable (fields : List (String × Json)) :
    strippedFields (assignable fields) = strippedFields fields := by
  induction fields with
  | nil => rfl
  | cons e fields ih =>
      obtain ⟨k, v⟩ := e
      rcases eq_or_ne k protoKey with rfl | hne
      · simpa [assignable, strippedFields] using ih
      · simpa [assignable, strippedFields, hne] using ih

theorem perm_textFields (fields : List (String × Json)) :
    (textFields fields).Perm (writtenFields (assignable (deepSortFields fields))) := by
  rw [textFields, writtenFields_eq_map, writtenFields_eq_map]
  exact ((perm_propertyOrder _).trans ((perm_sortByKey _).filter _)).map _

theorem rearranged_text (v : Json) : Rearranged (deepSort v).written (stripped v) :=
  @Json.rec (fun v => Rearranged (deepSort v).written (stripped v))
    (fun vs => List.Forall₂ Rearranged (writtenItems (deepSortItems vs)) (strippedItems vs))
    (fun es => List.Forall₂ SameField (writtenFields (assignable (deepSortFields es)))
      (strippedFields es))
    (fun e => Rearranged (deepSort e.2).written (stripped e.2))
    (.refl _) (fun _ => .refl _)
    (fun n => by cases n <;> exact .refl _)
    (fun _ => .refl _)
    (fun _ hitems => .arr hitems)
    (fun es hfields => (Rearranged.perm (perm_textFields es)).trans (.obj hfields))
    .nil
    (fun _ _ hv hvs => .cons hv hvs)
    .nil
    (fun e es he hes => by
      obtain ⟨k, v⟩ := e
      rcases eq_or_ne k protoKey with rfl | hne
      · simpa [deepSortFields, assignable, strippedFields] using hes
      · have hfield : SameField (k, (deepSort v).written) (k, stripped v) := ⟨rfl, he⟩
        simpa [deepSortFields, assignable, strippedFields, hne, writtenFields] using
          List.Forall₂.cons hfield hes)
    (fun _ _ hv => hv) v

-- objects with one canonical text are the same once stripped
theorem rearranged_of_textFields {es fs : List (String × Json)}
    (h : textFields es = textFields fs) :
    Rearranged (stripped (.obj es)) (stripped (.obj fs)) := by
  have hes : Rearranged (.obj (textFields es)) (stripped (.obj es)) := rearranged_text (.obj es)
  have hfs : Rearranged (.obj (textFields fs)) (stripped (.obj fs)) := rearranged_text (.obj fs)
  exact hes.symm.trans (h ▸ hfs)

end Conduit.Utils
