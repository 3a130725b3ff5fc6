import Conduit.Foundation.CodeUnits
import Conduit.Foundation.JsonReading

-- the own properties of an object, as an assignment changes them
namespace Json

def setProperty (fields : List (String × Json)) (key : String) (v : Json) : List (String × Json) :=
  propertyOrder (setField fields key v)

def asItems? : Json → Option (List Json)
  | arr items => some items
  | _ => none

section Keys

theorem keys_setField (fields : List (String × Json)) (key : String) (v : Json) :
    (setField fields key v).map Prod.fst =
      if key ∈ fields.map Prod.fst then fields.map Prod.fst else fields.map Prod.fst ++ [key] := by
  induction fields with
  | nil => simp [setField]
  | cons e fields ih =>
      obtain ⟨k, w⟩ := e
      by_cases hk : k = key
      · simp [setField, hk]
      · by_cases hmem : key ∈ fields.map Prod.fst
        · rw [if_pos hmem] at ih
          simp [setField, hk, Ne.symm hk, ih, hmem]
        · rw [if_neg hmem] at ih
          simp [setField, hk, Ne.symm hk, ih, hmem]

theorem uniqueKeys_setField {fields : List (String × Json)} (h : UniqueKeys fields) (key : String)
    (v : Json) : UniqueKeys (setField fields key v) := by
  rw [UniqueKeys, keys_setField]
  split
  next => exact h
  next hnew => exact List.Nodup.append h (List.nodup_singleton key) (by simpa using hnew)

theorem mem_setField {fields : List (String × Json)} {key : String} {v : Json} {e : String × Json}
    (h : e ∈ setField fields key v) : e = (key, v) ∨ e ∈ fields := by
  induction fields with
  | nil => simpa [setField] using h
  | cons f fields ih =>
      obtain ⟨k, w⟩ := f
      by_cases hk : k = key
      · rw [setField, if_pos hk, hk] at h
        rcases List.mem_cons.mp h with h | h
        · exact .inl h
        · exact .inr (List.mem_cons_of_mem _ h)
      · rw [setField, if_neg hk] at h
        rcases List.mem_cons.mp h with rfl | h
        · exact .inr List.mem_cons_self
        · exact (ih h).imp_right (List.mem_cons_of_mem _)

theorem propertyOrder_propertyOrder {ν : Type*} (es : List (String × ν)) :
    propertyOrder (propertyOrder es) = propertyOrder es := by
  let r := fun a b : String × ν => (arrayIndex? a.1).getD 0 ≤ (arrayIndex? b.1).getD 0
  have : Std.Total r := ⟨fun a b => Nat.le_total _ _⟩
  have : IsTrans (String × ν) r := ⟨fun a b c => Nat.le_trans⟩
  let indexed := (es.filter fun e => (arrayIndex? e.1).isSome).insertionSort r
  let named := es.filter fun e => (arrayIndex? e.1).isNone
  have hindexed : ∀ e ∈ indexed, (arrayIndex? e.1).isSome = true := by
    intro e he
    exact (List.mem_filter.mp ((List.perm_insertionSort r _).mem_iff.mp he)).2
  have hnamed : ∀ e ∈ named, (arrayIndex? e.1).isNone = true := fun e he =>
    (List.mem_filter.mp he).2
  have hsome : (indexed ++ named).filter (fun e => (arrayIndex? e.1).isSome) = indexed := by
    rw [List.filter_append, List.filter_eq_self.mpr hindexed, List.filter_eq_nil_iff.mpr,
      List.append_nil]
    intro e he
    simpa using hnamed e he
  have hnone : (indexed ++ named).filter (fun e => (arrayIndex? e.1).isNone) = named := by
    rw [List.filter_append, List.filter_eq_self.mpr hnamed, List.filter_eq_nil_iff.mpr,
      List.nil_append]
    intro e he
    simpa [Option.isSome_iff_ne_none] using hindexed e he
  have hsorted : indexed.Pairwise r := List.pairwise_insertionSort r _
  change ((indexed ++ named).filter fun e => (arrayIndex? e.1).isSome).insertionSort r ++
    (indexed ++ named).filter (fun e => (arrayIndex? e.1).isNone) = indexed ++ named
  rw [hsome, hnone, hsorted.insertionSort_eq]

theorem propertyOrder_setProperty (fields : List (String × Json)) (key : String) (v : Json) :
    propertyOrder (setProperty fields key v) = setProperty fields key v :=
  propertyOrder_propertyOrder _

-- names that are no indexes stay where they are put
def NamedKeys (keys : List String) : Prop := keys.Nodup ∧ ∀ key ∈ keys, arrayIndex? key = none

instance (keys : List String) : Decidable (NamedKeys keys) :=
  inferInstanceAs (Decidable (_ ∧ _))

theorem propertyOrder_of_named {fields : List (String × Json)}
    (h : NamedKeys (fields.map Prod.fst)) : propertyOrder fields = fields := by
  have hnone : ∀ e ∈ fields, (arrayIndex? e.1).isNone = true := by
    intro e he
    rw [h.2 e.1 (List.mem_map_of_mem he)]
    rfl
  have hsome : fields.filter (fun e => (arrayIndex? e.1).isSome) = [] := by
    rw [List.filter_eq_nil_iff]
    intro e he
    rw [h.2 e.1 (List.mem_map_of_mem he)]
    simp
  rw [propertyOrder, hsome, List.filter_eq_self.mpr hnone]
  rfl

theorem setField_of_new {fields : List (String × Json)} {key : String} (v : Json)
    (h : key ∉ fields.map Prod.fst) : setField fields key v = fields ++ [(key, v)] := by
  induction fields with
  | nil => rfl
  | cons e fields ih =>
      obtain ⟨k, w⟩ := e
      simp only [List.map_cons, List.mem_cons, not_or] at h
      rw [setField, if_neg (Ne.symm h.1), ih h.2]
      rfl

theorem foldl_setField {acc es : List (String × Json)} (h : UniqueKeys (acc ++ es)) :
    es.foldl (fun fields e => setField fields e.1 e.2) acc = acc ++ es := by
  induction es generalizing acc with
  | nil => simp
  | cons e es ih =>
      have hnew : e.1 ∉ acc.map Prod.fst := by
        intro hmem
        rw [UniqueKeys, List.map_append, List.map_cons, List.nodup_append] at h
        exact h.2.2 _ hmem _ List.mem_cons_self rfl
      rw [List.foldl_cons, setField_of_new _ hnew, ih (by simpa using h)]
      simp

end Keys

section Lookup

theorem field_eq_some_iff {fields : List (String × Json)} (h : UniqueKeys fields) {key : String}
    {v : Json} : field fields key = some v ↔ (key, v) ∈ fields := by
  constructor
  · exact mem_of_field
  · intro hmem
    obtain ⟨w, hw⟩ := Option.isSome_iff_exists.mp (field_isSome_of_mem hmem)
    have heq := h.eq_of_key hmem (mem_of_field hw) rfl
    rw [hw, ← (Prod.mk.inj heq).2]

theorem field_perm {es fs : List (String × Json)} (hunique : UniqueKeys es) (hperm : es.Perm fs)
    (key : String) : field es key = field fs key := by
  apply Option.ext
  intro v
  rw [field_eq_some_iff hunique, field_eq_some_iff (hunique.perm hperm), hperm.mem_iff]

theorem field_isSome_iff {fields : List (String × Json)} {key : String} :
    (field fields key).isSome = true ↔ key ∈ fields.map Prod.fst := by
  induction fields with
  | nil => simp [field]
  | cons e fields ih =>
      obtain ⟨k, v⟩ := e
      by_cases hk : k = key
      · simp [field, hk]
      · simp [field, hk, ih, Ne.symm hk]

theorem eq_of_fields {es fs : List (String × Json)} (hunique : UniqueKeys es)
    (hkeys : es.map Prod.fst = fs.map Prod.fst) (hfields : ∀ key, field es key = field fs key) :
    es = fs := by
  induction es generalizing fs with
  | nil => exact (List.map_eq_nil_iff.mp hkeys.symm).symm
  | cons e es ih =>
      cases fs with
      | nil => cases hkeys
      | cons f fs =>
          obtain ⟨k, v⟩ := e
          obtain ⟨l, w⟩ := f
          obtain ⟨hk, hrest⟩ := List.cons.inj hkeys
          change k = l at hk
          subst hk
          obtain ⟨hnew, hunique⟩ := List.nodup_cons.mp hunique
          have hvalue := hfields k
          simp only [field, if_true, Option.some.injEq] at hvalue
          rw [hvalue, ih hunique hrest]
          intro key
          by_cases hk : k = key
          · subst hk
            have hnone : ∀ gs : List (String × Json), k ∉ gs.map Prod.fst → field gs k = none := by
              intro gs hgs
              rw [← Option.not_isSome_iff_eq_none, field_isSome_iff]
              exact hgs
            rw [hnone es hnew, hnone fs (by rw [← hrest]; exact hnew)]
          · simpa [field, hk] using hfields key

theorem field_setProperty {fields : List (String × Json)} (h : UniqueKeys fields) (key k : String)
    (v : Json) :
    field (setProperty fields key v) k = if key = k then some v else field fields k := by
  rw [setProperty, field_perm ((uniqueKeys_setField h key v).perm (perm_propertyOrder _).symm)
    (perm_propertyOrder _), field_setField]

theorem uniqueKeys_setProperty {fields : List (String × Json)} (h : UniqueKeys fields) (key : String)
    (v : Json) : UniqueKeys (setProperty fields key v) :=
  (uniqueKeys_setField h key v).perm (perm_propertyOrder _).symm

-- a key that is there keeps its place
theorem keys_setProperty {fields : List (String × Json)} (horder : propertyOrder fields = fields)
    {key : String} (hkey : key ∈ fields.map Prod.fst) (v : Json) :
    (setProperty fields key v).map Prod.fst = fields.map Prod.fst := by
  have hsame : mapValues (fun _ => ()) (setField fields key v) =
      mapValues (fun _ => ()) fields := by
    have hmap : ∀ es : List (String × Json),
        mapValues (fun _ => ()) es = (es.map Prod.fst).map fun k => (k, ()) := by
      intro es
      simp [mapValues]
    rw [hmap, hmap, keys_setField, if_pos hkey]
  have hordered := congrArg (List.map Prod.fst) (propertyOrder_mapValues (fun _ => ())
    (setField fields key v))
  rw [keys_mapValues, hsame, propertyOrder_mapValues, horder, keys_mapValues] at hordered
  exact hordered.symm

theorem setProperty_of_field {fields : List (String × Json)} (hunique : UniqueKeys fields)
    (horder : propertyOrder fields = fields) {key : String} {v : Json}
    (h : field fields key = some v) : setProperty fields key v = fields := by
  have hkey : key ∈ fields.map Prod.fst := field_isSome_iff.1 (Option.isSome_of_mem h)
  apply eq_of_fields (uniqueKeys_setProperty hunique key v) (keys_setProperty horder hkey v)
  intro k
  rw [field_setProperty hunique]
  split
  next heq => rw [← heq, h]
  next => rfl

end Lookup

section Written

theorem written_obj (fields : List (String × Json)) :
    (Json.obj fields).written = .obj (writtenFields fields) := rfl

theorem written_written (v : Json) : v.written.written = v.written :=
  @Json.rec (fun v => v.written.written = v.written)
    (fun vs => writtenItems (writtenItems vs) = writtenItems vs)
    (fun es => writtenFields (writtenFields es) = writtenFields es)
    (fun e => e.2.written.written = e.2.written)
    rfl (fun _ => rfl) (fun n => by cases n <;> rfl) (fun _ => rfl)
    (fun vs ih => by simp only [written, ih])
    (fun es ih => by simp only [written, ih])
    rfl (fun v vs hv hvs => by simp only [writtenItems, hv, hvs])
    rfl
    (fun e es he hes => by
      obtain ⟨k, v⟩ := e
      have hv : v.written.written = v.written := he
      simp only [writtenFields, hv, hes])
    (fun _ _ ih => ih) v

theorem setField_writtenFields (fields : List (String × Json)) (key : String) (v : Json) :
    setField (writtenFields fields) key v.written = writtenFields (setField fields key v) := by
  induction fields with
  | nil => rfl
  | cons e fields ih =>
      obtain ⟨k, w⟩ := e
      by_cases hk : k = key
      · simp [writtenFields, setField, hk]
      · simp [writtenFields, setField, hk, ih]

theorem writtenFields_setProperty (fields : List (String × Json)) (key : String) (v : Json) :
    writtenFields (setProperty fields key v) = setProperty (writtenFields fields) key v.written := by
  have hmap : ∀ es : List (String × Json), writtenFields es = mapValues written es :=
    writtenFields_eq_map
  rw [setProperty, setProperty, setField_writtenFields, hmap, hmap, propertyOrder_mapValues]

theorem indent_written (v : Json) : ∀ level, indent level v.written = indent level v :=
  @Json.rec (fun v => ∀ level, indent level v.written = indent level v)
    (fun vs => ∀ level, indentItems level (writtenItems vs) = indentItems level vs)
    (fun es => ∀ level, indentFields level (writtenFields es) = indentFields level es)
    (fun e => ∀ level, indent level e.2.written = indent level e.2)
    (fun _ => rfl) (fun _ _ => rfl)
    (fun n => by cases n <;> exact fun _ => rfl) (fun _ _ => rfl)
    (fun vs ih level => by
      cases vs with
      | nil => rfl
      | cons v vs =>
          have htext := ih (level + 1)
          rw [writtenItems] at htext
          simp only [written, writtenItems, indent, htext])
    (fun es ih level => by
      cases es with
      | nil => rfl
      | cons e es =>
          obtain ⟨k, v⟩ := e
          have htext := ih (level + 1)
          rw [writtenFields] at htext
          simp only [written, writtenFields, indent, htext])
    (fun _ => rfl)
    (fun v vs hv hvs level => by simp only [writtenItems, indentItems, hv level, hvs level])
    (fun _ => rfl)
    (fun e es he hes level => by
      obtain ⟨k, v⟩ := e
      have hv : indent level v.written = indent level v := he level
      simp only [writtenFields, indentFields, hv, hes level])
    (fun _ _ ih => ih) v

end Written

end Json
