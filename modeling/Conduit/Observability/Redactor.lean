import Conduit.Foundation.Concatenation
import Conduit.Foundation.Text
import Conduit.Utils.DeepSort

namespace Conduit.Observability

def redactedValue : Json := .str "[REDACTED]"

def isWordSeparator (c : Char) : Bool := c = '_' || c = '-'

def splitSeparators : List Char → List (List Char)
  | [] => [[]]
  | c :: rest =>
      match splitSeparators rest with
      | [] => [[c]]
      | part :: more => if isWordSeparator c then [] :: part :: more else (c :: part) :: more

-- a part ends where a lower case letter is followed by an upper case one
def splitCamelCase : List Char → List (List Char)
  | [] => [[]]
  | c :: rest =>
      match splitCamelCase rest with
      | [] => [[c]]
      | part :: more =>
          if c.isLower && rest.head?.any Char.isUpper then [c] :: part :: more
          else (c :: part) :: more

section Matching

variable (toLowerCase : List Char → List Char)

def splitIntoSegments (name : String) : List (List Char) :=
  (((splitSeparators name.toList).flatMap splitCamelCase).map toLowerCase).filter (· ≠ [])

def isSensitiveField (fieldName : String) (sensitiveFields : List String) : Bool :=
  let fieldSegments := splitIntoSegments toLowerCase fieldName
  sensitiveFields.any fun sensitive =>
    let sensitiveSegments := splitIntoSegments toLowerCase sensitive
    if sensitiveSegments.length = 0 then false
    else if fieldSegments.length < sensitiveSegments.length then false
    else if Concatenation.occurs fieldSegments sensitiveSegments then true
    else Concatenation.search sensitiveSegments.flatten fieldSegments

mutual

def redact (sensitiveFields : List String) : Json → Json
  | .arr items => .arr (redactItems sensitiveFields items)
  | .obj fields => .obj (redactFields sensitiveFields fields)
  | value => value

def redactItems (sensitiveFields : List String) : List Json → List Json
  | [] => []
  | item :: rest => redact sensitiveFields item :: redactItems sensitiveFields rest

def redactFields (sensitiveFields : List String) : List (String × Json) → List (String × Json)
  | [] => []
  | (key, val) :: rest =>
      -- an assignment to this key makes no own property
      if key = Utils.protoKey then redactFields sensitiveFields rest
      else if isSensitiveField toLowerCase key sensitiveFields then
        (key, redactedValue) :: redactFields sensitiveFields rest
      else (key, redact sensitiveFields val) :: redactFields sensitiveFields rest

end

-- some run of the words of the key, joined, spells the joined words of the name
def Spells (fieldName sensitive : String) : Prop :=
  ∃ run, run ≠ [] ∧ run <:+: splitIntoSegments toLowerCase fieldName ∧
    run.flatten = (splitIntoSegments toLowerCase sensitive).flatten

instance (fieldName sensitive : String) : Decidable (Spells toLowerCase fieldName sensitive) :=
  decidable_of_iff _ Concatenation.search_iff

def Sensitive (sensitiveFields : List String) (fieldName : String) : Prop :=
  ∃ sensitive ∈ sensitiveFields, Spells toLowerCase fieldName sensitive

instance (sensitiveFields : List String) (fieldName : String) :
    Decidable (Sensitive toLowerCase sensitiveFields fieldName) :=
  inferInstanceAs (Decidable (∃ sensitive ∈ sensitiveFields, _))

mutual

-- what the redaction is for: the mask under every sensitive key, the rest as it is
def masked (sensitiveFields : List String) : Json → Json
  | .arr items => .arr (maskedItems sensitiveFields items)
  | .obj fields => .obj (maskedFields sensitiveFields fields)
  | value => value

def maskedItems (sensitiveFields : List String) : List Json → List Json
  | [] => []
  | item :: rest => masked sensitiveFields item :: maskedItems sensitiveFields rest

def maskedFields (sensitiveFields : List String) : List (String × Json) → List (String × Json)
  | [] => []
  | (key, val) :: rest =>
      (key, if Sensitive toLowerCase sensitiveFields key then redactedValue
        else masked sensitiveFields val) :: maskedFields sensitiveFields rest

end

-- some name the key spells has no more words than the key
def Shorter (sensitiveFields : List String) (fieldName : String) : Prop :=
  ∃ sensitive ∈ sensitiveFields, Spells toLowerCase fieldName sensitive ∧
    (splitIntoSegments toLowerCase sensitive).length ≤
      (splitIntoSegments toLowerCase fieldName).length

instance (sensitiveFields : List String) (fieldName : String) :
    Decidable (Shorter toLowerCase sensitiveFields fieldName) :=
  inferInstanceAs (Decidable (∃ sensitive ∈ sensitiveFields, _))

mutual

def Recognized (sensitiveFields : List String) : Json → Prop
  | .arr items => RecognizedItems sensitiveFields items
  | .obj fields => RecognizedFields sensitiveFields fields
  | _ => True

def RecognizedItems (sensitiveFields : List String) : List Json → Prop
  | [] => True
  | item :: rest => Recognized sensitiveFields item ∧ RecognizedItems sensitiveFields rest

def RecognizedFields (sensitiveFields : List String) : List (String × Json) → Prop
  | [] => True
  | (key, val) :: rest =>
      (key ≠ Utils.protoKey ∧
        if Sensitive toLowerCase sensitiveFields key then
          Shorter toLowerCase sensitiveFields key ∨ val = redactedValue
        else Recognized sensitiveFields val) ∧
      RecognizedFields sensitiveFields rest

end

end Matching

section Segments

variable {toLowerCase : List Char → List Char}

theorem ne_nil_of_mem_segments {name : String} {segment : List Char}
    (h : segment ∈ splitIntoSegments toLowerCase name) : segment ≠ [] :=
  of_decide_eq_true (List.mem_filter.mp h).2

theorem segments_ne_nil_of_spells {fieldName sensitive : String}
    (h : Spells toLowerCase fieldName sensitive) :
    splitIntoSegments toLowerCase sensitive ≠ [] := by
  obtain ⟨run, hne, hpart, heq⟩ := h
  intro hnil
  rw [hnil, List.flatten_nil, List.flatten_eq_nil_iff] at heq
  obtain ⟨segment, hsegment⟩ := List.exists_mem_of_ne_nil run hne
  exact ne_nil_of_mem_segments (hpart.subset hsegment) (heq segment hsegment)

theorem isSensitiveField_iff {fieldName : String} {sensitiveFields : List String} :
    isSensitiveField toLowerCase fieldName sensitiveFields = true ↔
      Shorter toLowerCase sensitiveFields fieldName := by
  unfold isSensitiveField Shorter
  rw [List.any_eq_true]
  apply exists_congr
  intro sensitive
  apply and_congr_right
  intro _
  constructor
  · intro h
    dsimp only at h
    split at h
    · cases h
    next hnonempty =>
      split at h
      · cases h
      next hshort =>
        refine ⟨?_, Nat.le_of_not_lt hshort⟩
        split at h
        next hoccurs =>
          exact ⟨_, fun hnil => hnonempty (List.length_eq_zero_iff.mpr hnil),
            Concatenation.infix_of_occurs hoccurs, rfl⟩
        next => exact Concatenation.search_iff.1 h
  · rintro ⟨hspells, hshort⟩
    have hnonempty : ¬ (splitIntoSegments toLowerCase sensitive).length = 0 :=
      fun h => segments_ne_nil_of_spells hspells (List.length_eq_zero_iff.mp h)
    dsimp only
    rw [if_neg hnonempty, if_neg (Nat.not_lt_of_le hshort)]
    split
    · rfl
    · exact Concatenation.search_iff.2 hspells

theorem sensitive_of_shorter {fieldName : String} {sensitiveFields : List String}
    (h : Shorter toLowerCase sensitiveFields fieldName) :
    Sensitive toLowerCase sensitiveFields fieldName := by
  obtain ⟨sensitive, hmem, hspells, -⟩ := h
  exact ⟨sensitive, hmem, hspells⟩

end Segments

section Values

variable {toLowerCase : List Char → List Char} {sensitiveFields : List String}

theorem redact_eq_redactedValue {value : Json} :
    redact toLowerCase sensitiveFields value = redactedValue ↔ value = redactedValue := by
  cases value with
  | arr items => exact iff_of_false (fun h => by cases h) (fun h => by cases h)
  | obj fields => exact iff_of_false (fun h => by cases h) (fun h => by cases h)
  | _ => rfl

theorem length_maskedFields (fields : List (String × Json)) :
    (maskedFields toLowerCase sensitiveFields fields).length = fields.length := by
  induction fields with
  | nil => rfl
  | cons field rest ih =>
      obtain ⟨key, val⟩ := field
      rw [maskedFields, List.length_cons, List.length_cons, ih]

theorem length_redactFields_le (fields : List (String × Json)) :
    (redactFields toLowerCase sensitiveFields fields).length ≤ fields.length := by
  induction fields with
  | nil => exact Nat.le_refl _
  | cons field rest ih =>
      obtain ⟨key, val⟩ := field
      rw [redactFields]
      split
      · exact Nat.le_succ_of_le ih
      · split
        · exact Nat.succ_le_succ ih
        · exact Nat.succ_le_succ ih

theorem not_recognized_of_proto {val : Json} {rest : List (String × Json)} :
    ¬ redactFields toLowerCase sensitiveFields ((Utils.protoKey, val) :: rest) =
      maskedFields toLowerCase sensitiveFields ((Utils.protoKey, val) :: rest) := by
  intro h
  have hlength := congrArg List.length h
  rw [length_maskedFields, redactFields, if_pos rfl, List.length_cons] at hlength
  have hle : (redactFields toLowerCase sensitiveFields rest).length ≤ rest.length :=
    length_redactFields_le rest
  omega

theorem redactField_eq_iff {key : String} {val : Json} {P : Prop}
    (hval : redact toLowerCase sensitiveFields val = masked toLowerCase sensitiveFields val ↔ P) :
    ((if isSensitiveField toLowerCase key sensitiveFields then redactedValue
        else redact toLowerCase sensitiveFields val) =
      if Sensitive toLowerCase sensitiveFields key then redactedValue
        else masked toLowerCase sensitiveFields val) ↔
    if Sensitive toLowerCase sensitiveFields key then
      Shorter toLowerCase sensitiveFields key ∨ val = redactedValue
    else P := by
  by_cases hshorter : Shorter toLowerCase sensitiveFields key
  · rw [if_pos (isSensitiveField_iff.2 hshorter), if_pos (sensitive_of_shorter hshorter),
      if_pos (sensitive_of_shorter hshorter)]
    exact iff_of_true rfl (.inl hshorter)
  · rw [if_neg (isSensitiveField_iff.not.mpr hshorter)]
    by_cases hsensitive : Sensitive toLowerCase sensitiveFields key
    · rw [if_pos hsensitive, if_pos hsensitive, redact_eq_redactedValue]
      exact (or_iff_right hshorter).symm
    · rw [if_neg hsensitive, if_neg hsensitive, hval]

theorem redactFields_cons {key : String} (val : Json) (rest : List (String × Json))
    (hproto : key ≠ Utils.protoKey) :
    redactFields toLowerCase sensitiveFields ((key, val) :: rest) =
      (key, if isSensitiveField toLowerCase key sensitiveFields then redactedValue
        else redact toLowerCase sensitiveFields val) ::
        redactFields toLowerCase sensitiveFields rest := by
  rw [redactFields, if_neg hproto]
  split
  · rfl
  · rfl

end Values

mutual

theorem value_masked_iff (toLowerCase : List Char → List Char) (sensitiveFields : List String) :
    ∀ value : Json, redact toLowerCase sensitiveFields value =
      masked toLowerCase sensitiveFields value ↔ Recognized toLowerCase sensitiveFields value
  | .null => iff_of_true rfl trivial
  | .bool _ => iff_of_true rfl trivial
  | .num _ => iff_of_true rfl trivial
  | .str _ => iff_of_true rfl trivial
  | .arr items => by
      rw [redact, masked, Recognized, Json.arr.injEq]
      exact items_masked_iff toLowerCase sensitiveFields items
  | .obj fields => by
      rw [redact, masked, Recognized, Json.obj.injEq]
      exact fields_masked_iff toLowerCase sensitiveFields fields

theorem items_masked_iff (toLowerCase : List Char → List Char) (sensitiveFields : List String) :
    ∀ items : List Json, redactItems toLowerCase sensitiveFields items =
      maskedItems toLowerCase sensitiveFields items ↔
        RecognizedItems toLowerCase sensitiveFields items
  | [] => iff_of_true rfl trivial
  | item :: rest => by
      rw [redactItems, maskedItems, RecognizedItems, List.cons.injEq]
      exact and_congr (value_masked_iff toLowerCase sensitiveFields item)
        (items_masked_iff toLowerCase sensitiveFields rest)

theorem fields_masked_iff (toLowerCase : List Char → List Char) (sensitiveFields : List String) :
    ∀ fields : List (String × Json), redactFields toLowerCase sensitiveFields fields =
      maskedFields toLowerCase sensitiveFields fields ↔
        RecognizedFields toLowerCase sensitiveFields fields
  | [] => iff_of_true rfl trivial
  | (key, val) :: rest => by
      rw [RecognizedFields]
      by_cases hproto : key = Utils.protoKey
      · subst hproto
        exact iff_of_false not_recognized_of_proto fun h => h.1.1 rfl
      · rw [redactFields_cons val rest hproto, maskedFields, List.cons.injEq, Prod.mk.injEq,
          redactField_eq_iff (value_masked_iff toLowerCase sensitiveFields val),
          fields_masked_iff toLowerCase sensitiveFields rest]
        simp only [true_and, ne_eq, hproto, not_false_eq_true]

end

theorem redact_eq_masked_iff (toLowerCase : List Char → List Char) (sensitiveFields : List String)
    (value : Json) :
    redact toLowerCase sensitiveFields value = masked toLowerCase sensitiveFields value ↔
      Recognized toLowerCase sensitiveFields value :=
  value_masked_iff toLowerCase sensitiveFields value

-- a name of two words against a key that writes them as one
theorem redact_joined_key :
    redact (·.flatMap Text.lowerChar) ["api_key"] (.obj [("apikey", .str "s3cret")]) =
        .obj [("apikey", .str "s3cret")] ∧
      Sensitive (·.flatMap Text.lowerChar) ["api_key"] "apikey" ∧
      ¬ redact (·.flatMap Text.lowerChar) ["api_key"] (.obj [("apikey", .str "s3cret")]) =
        masked (·.flatMap Text.lowerChar) ["api_key"] (.obj [("apikey", .str "s3cret")]) := by
  refine ⟨?_, ?_, ?_⟩
  · decide +kernel
  · decide +kernel
  · decide +kernel

end Conduit.Observability
