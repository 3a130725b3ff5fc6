import Conduit.Foundation.JsonText

namespace Json

section Units

theorem unitsLe_total (a b : List ℕ) : unitsLe a b = true ∨ unitsLe b a = true := by
  induction a generalizing b with
  | nil => exact .inl rfl
  | cons x a ih =>
      cases b with
      | nil => exact .inr rfl
      | cons y b =>
          rcases Nat.lt_trichotomy x y with hlt | rfl | hgt
          · exact .inl (by simp [unitsLe, hlt.ne, hlt])
          · simpa [unitsLe] using ih b
          · exact .inr (by simp [unitsLe, hgt.ne, hgt])

theorem unitsLe_trans {a b c : List ℕ} (hab : unitsLe a b = true) (hbc : unitsLe b c = true) :
    unitsLe a c = true := by
  induction a generalizing b c with
  | nil => rfl
  | cons x a ih =>
      cases b with
      | nil => cases hab
      | cons y b =>
          cases c with
          | nil => cases hbc
          | cons z c =>
              rw [unitsLe] at hab hbc ⊢
              split at hab <;> split at hbc <;> split
              · exact ih hab hbc
              all_goals
                simp only [decide_eq_true_eq] at *
                omega

theorem unitsLe_antisymm {a b : List ℕ} (hab : unitsLe a b = true) (hba : unitsLe b a = true) :
    a = b := by
  induction a generalizing b with
  | nil =>
      cases b with
      | nil => rfl
      | cons y b => cases hba
  | cons x a ih =>
      cases b with
      | nil => cases hab
      | cons y b =>
          rw [unitsLe] at hab hba
          by_cases heq : x = y
          · rw [if_pos heq] at hab
            rw [if_pos heq.symm] at hba
            rw [heq, ih hab hba]
          · rw [if_neg heq] at hab
            rw [if_neg (Ne.symm heq)] at hba
            simp only [decide_eq_true_eq] at hab hba
            omega

theorem toNat_valid (c : Char) : c.toNat < 0xd800 ∨ 0xdfff < c.toNat ∧ c.toNat < 0x110000 := c.valid

theorem utf16_append_inj {c d : Char} {r r' : List ℕ} (h : utf16 c ++ r = utf16 d ++ r') :
    c = d ∧ r = r' := by
  have hc := toNat_valid c
  have hd := toNat_valid d
  have hsame : c.toNat = d.toNat → c = d := fun heq => Char.ext (UInt32.toNat_inj.mp heq)
  unfold utf16 at h
  split at h <;> split at h
  · obtain ⟨hunit, hrest⟩ := List.cons.inj h
    exact ⟨hsame hunit, hrest⟩
  · have hunit := (List.cons.inj h).1
    omega
  · have hunit := (List.cons.inj h).1
    omega
  · obtain ⟨hhigh, hrest⟩ := List.cons.inj h
    obtain ⟨hlow, hrest⟩ := List.cons.inj hrest
    exact ⟨hsame (by omega), hrest⟩

theorem utf16_ne_nil (c : Char) : utf16 c ≠ [] := by
  unfold utf16
  split <;> simp

theorem flatMap_utf16_inj {cs ds : List Char} (h : cs.flatMap utf16 = ds.flatMap utf16) :
    cs = ds := by
  induction cs generalizing ds with
  | nil =>
      cases ds with
      | nil => rfl
      | cons d ds => simp [utf16_ne_nil] at h
  | cons c cs ih =>
      cases ds with
      | nil => simp [utf16_ne_nil] at h
      | cons d ds =>
          rw [List.flatMap_cons, List.flatMap_cons] at h
          obtain ⟨rfl, hrest⟩ := utf16_append_inj h
          rw [ih hrest]

theorem codeUnits_inj {s s' : String} (h : codeUnits s = codeUnits s') : s = s' :=
  String.toList_injective (flatMap_utf16_inj h)

end Units

section Sorted

variable {ν : Type*} {es fs : List (String × ν)}

def KeyLe (e f : String × ν) : Prop := unitsLe (codeUnits e.1) (codeUnits f.1) = true

instance : DecidableRel (@KeyLe ν) := fun _ _ => inferInstanceAs (Decidable (_ = true))

def UniqueKeys (es : List (String × ν)) : Prop := (es.map Prod.fst).Nodup

instance (es : List (String × ν)) : Decidable (UniqueKeys es) :=
  inferInstanceAs (Decidable (List.Nodup _))

theorem UniqueKeys.eq_of_key (h : UniqueKeys es) {e f : String × ν} (he : e ∈ es) (hf : f ∈ es)
    (hkey : e.1 = f.1) : e = f :=
  List.inj_on_of_nodup_map h he hf hkey

theorem pairwise_sortByKey (es : List (String × ν)) : (sortByKey es).Pairwise KeyLe :=
  have : Std.Total (@KeyLe ν) := ⟨fun _ _ => unitsLe_total _ _⟩
  have : IsTrans (String × ν) KeyLe := ⟨fun _ _ _ => unitsLe_trans⟩
  List.pairwise_insertionSort KeyLe es

-- entries with different keys stand in one order only
theorem eq_of_pairwise (hunique : UniqueKeys es) (hes : es.Pairwise KeyLe) (hfs : fs.Pairwise KeyLe)
    (hperm : es.Perm fs) : es = fs := by
  refine List.Perm.eq_of_pairwise (fun e f he hf hef hfe => ?_) hes hfs hperm
  exact hunique.eq_of_key he (hperm.mem_iff.mpr hf) (codeUnits_inj (unitsLe_antisymm hef hfe))

theorem perm_sortByKey (es : List (String × ν)) : (sortByKey es).Perm es :=
  List.perm_insertionSort _ es

theorem UniqueKeys.perm (h : UniqueKeys es) (hperm : es.Perm fs) : UniqueKeys fs :=
  (hperm.map Prod.fst).nodup_iff.mp h

theorem sortByKey_eq_of_perm (hunique : UniqueKeys es) (hperm : es.Perm fs) :
    sortByKey es = sortByKey fs :=
  eq_of_pairwise (hunique.perm (perm_sortByKey es).symm) (pairwise_sortByKey es)
    (pairwise_sortByKey fs) ((perm_sortByKey es).trans (hperm.trans (perm_sortByKey fs).symm))

theorem UniqueKeys.filter (h : UniqueKeys es) (p : String × ν → Bool) : UniqueKeys (es.filter p) :=
  h.sublist (List.filter_sublist.map Prod.fst)

theorem filter_sortByKey (hunique : UniqueKeys es) (p : String × ν → Bool) :
    (sortByKey es).filter p = sortByKey (es.filter p) := by
  have hsorted := hunique.perm (perm_sortByKey es).symm
  refine eq_of_pairwise (hsorted.filter p) ((pairwise_sortByKey es).filter p)
    (pairwise_sortByKey _) ?_
  exact ((perm_sortByKey es).filter p).trans (perm_sortByKey _).symm

end Sorted

section Values

variable {ν μ : Type*} (f : ν → μ)

def mapValues (es : List (String × ν)) : List (String × μ) := es.map fun e => (e.1, f e.2)

theorem insertionSort_mapValues (r : String → String → Prop) [DecidableRel r]
    (es : List (String × ν)) :
    (mapValues f es).insertionSort (fun a b => r a.1 b.1) =
      mapValues f (es.insertionSort fun a b => r a.1 b.1) :=
  (List.map_insertionSort (fun a b : String × ν => r a.1 b.1)
    (fun a b : String × μ => r a.1 b.1) (fun e => (e.1, f e.2)) es fun _ _ _ _ => Iff.rfl).symm

theorem filter_mapValues (p : String → Bool) (es : List (String × ν)) :
    (mapValues f es).filter (fun e => p e.1) = mapValues f (es.filter fun e => p e.1) :=
  List.filter_map

theorem sortByKey_mapValues (es : List (String × ν)) :
    sortByKey (mapValues f es) = mapValues f (sortByKey es) :=
  insertionSort_mapValues f (fun k k' => unitsLe (codeUnits k) (codeUnits k') = true) es

theorem propertyOrder_mapValues (es : List (String × ν)) :
    propertyOrder (mapValues f es) = mapValues f (propertyOrder es) := by
  rw [propertyOrder, filter_mapValues f fun key => (arrayIndex? key).isSome,
    filter_mapValues f fun key => (arrayIndex? key).isNone,
    insertionSort_mapValues f fun k k' => (arrayIndex? k).getD 0 ≤ (arrayIndex? k').getD 0]
  exact List.map_append.symm

theorem perm_propertyOrder (fields : List (String × ν)) :
    (propertyOrder fields).Perm fields := by
  have hnone : (fields.filter fun e => (arrayIndex? e.1).isNone) =
      fields.filter fun e => !(arrayIndex? e.1).isSome := by
    simp
  rw [propertyOrder, hnone]
  exact ((List.perm_insertionSort _ _).append_right _).trans (List.filter_append_perm _ fields)

theorem keys_mapValues (es : List (String × ν)) :
    (mapValues f es).map Prod.fst = es.map Prod.fst := by
  rw [mapValues, List.map_map]
  rfl

end Values

section Keyed

mutual

-- every object has its keys once, as JSON.parse gives them
def Keyed : Json → Prop
  | .arr items => KeyedItems items
  | .obj fields => UniqueKeys fields ∧ KeyedFields fields
  | _ => True

def KeyedItems : List Json → Prop
  | [] => True
  | v :: rest => Keyed v ∧ KeyedItems rest

def KeyedFields : List (String × Json) → Prop
  | [] => True
  | (_, v) :: rest => Keyed v ∧ KeyedFields rest

end

theorem keyedItems_iff {items : List Json} : KeyedItems items ↔ ∀ v ∈ items, Keyed v := by
  induction items with
  | nil => simp [KeyedItems]
  | cons v items ih => simp [KeyedItems, ih]

theorem keyedFields_iff {fields : List (String × Json)} :
    KeyedFields fields ↔ ∀ e ∈ fields, Keyed e.2 := by
  induction fields with
  | nil => simp [KeyedFields]
  | cons e fields ih => simp [KeyedFields, ih]

mutual

def decKeyed : (v : Json) → Decidable v.Keyed
  | .arr items => decKeyedItems items
  | .obj fields => @instDecidableAnd _ _ inferInstance (decKeyedFields fields)
  | .null | .bool _ | .num _ | .str _ => .isTrue trivial

def decKeyedItems : (items : List Json) → Decidable (KeyedItems items)
  | [] => .isTrue trivial
  | v :: rest => @instDecidableAnd _ _ (decKeyed v) (decKeyedItems rest)

def decKeyedFields : (fields : List (String × Json)) → Decidable (KeyedFields fields)
  | [] => .isTrue trivial
  | (_, v) :: rest => @instDecidableAnd _ _ (decKeyed v) (decKeyedFields rest)

end

instance (v : Json) : Decidable v.Keyed := decKeyed v

end Keyed

end Json
