import Conduit.Foundation.Numeral

namespace Json

section Strings

def hexValue (c : Char) : ℕ := if c.toNat < 58 then c.toNat - 48 else c.toNat - 87

def readEscape : List Char → Option (Char × List Char)
  | 'u' :: _ :: _ :: high :: low :: rest =>
      some (Char.ofNat (16 * hexValue high + hexValue low), rest)
  | 'b' :: rest => some (Char.ofNat 8, rest)
  | 't' :: rest => some (Char.ofNat 9, rest)
  | 'n' :: rest => some (Char.ofNat 10, rest)
  | 'f' :: rest => some (Char.ofNat 12, rest)
  | 'r' :: rest => some (Char.ofNat 13, rest)
  | c :: rest => some (c, rest)
  | [] => none

def readChar : List Char → Option (Char × List Char)
  | [] => none
  | c :: rest => if c = '\\' then readEscape rest else some (c, rest)

theorem hexValue_hexDigit : ∀ n < 16, hexValue (hexDigit n) = n := by decide

theorem readChar_escapeChar (c : Char) (rest : List Char) :
    readChar (escapeChar c ++ rest) = some (c, rest) := by
  unfold escapeChar
  split
  next h => rw [h]; rfl
  next =>
  split
  next h => rw [h]; rfl
  next hbackslash =>
  split
  next h => rw [← Char.ofNat_toNat c, h]; rfl
  next =>
  split
  next h => rw [← Char.ofNat_toNat c, h]; rfl
  next =>
  split
  next h => rw [← Char.ofNat_toNat c, h]; rfl
  next =>
  split
  next h => rw [← Char.ofNat_toNat c, h]; rfl
  next =>
  split
  next h => rw [← Char.ofNat_toNat c, h]; rfl
  next =>
  split
  next h =>
    change some (Char.ofNat (16 * hexValue (hexDigit (c.toNat / 16)) +
      hexValue (hexDigit (c.toNat % 16))), rest) = _
    rw [hexValue_hexDigit _ (by omega), hexValue_hexDigit _ (by omega), Nat.div_add_mod,
      Char.ofNat_toNat]
  next => exact if_neg hbackslash

theorem head_escapeChar (c : Char) : ∃ d rest, escapeChar c = d :: rest ∧ d ≠ '"' := by
  unfold escapeChar
  repeat' split
  all_goals first | exact ⟨_, _, rfl, by decide⟩ | exact ⟨c, [], rfl, by assumption⟩

theorem escaped_inj {s s' r r' : List Char}
    (h : s.flatMap escapeChar ++ '"' :: r = s'.flatMap escapeChar ++ '"' :: r') :
    s = s' ∧ r = r' := by
  induction s generalizing s' with
  | nil =>
      cases s' with
      | nil => exact ⟨rfl, (List.cons.inj h).2⟩
      | cons c s' =>
          obtain ⟨d, rest, hescape, hne⟩ := head_escapeChar c
          rw [List.flatMap_cons, hescape] at h
          exact absurd (List.cons.inj h).1.symm hne
  | cons c s ih =>
      cases s' with
      | nil =>
          obtain ⟨d, rest, hescape, hne⟩ := head_escapeChar c
          rw [List.flatMap_cons, hescape] at h
          exact absurd (List.cons.inj h).1 hne
      | cons c' s' =>
          rw [List.flatMap_cons, List.flatMap_cons, List.append_assoc, List.append_assoc] at h
          have hread := congrArg readChar h
          rw [readChar_escapeChar, readChar_escapeChar] at hread
          obtain ⟨rfl, hrest⟩ := Prod.mk.inj (Option.some.inj hread)
          obtain ⟨rfl, hr⟩ := ih hrest
          exact ⟨rfl, hr⟩

theorem quote_inj {s s' : String} {r r' : List Char}
    (h : (quote s).toList ++ r = (quote s').toList ++ r') : s = s' ∧ r = r' := by
  have hquote : ∀ (s : String) (r : List Char),
      (quote s).toList ++ r = '"' :: (s.toList.flatMap escapeChar ++ '"' :: r) := by
    intro s r
    simp [quote, String.toList_append]
  rw [hquote, hquote] at h
  obtain ⟨hs, hr⟩ := escaped_inj (List.cons.inj h).2
  exact ⟨String.toList_injective hs, hr⟩

end Strings

section Numbers

def Delimiter (c : Char) : Prop := c = ',' ∨ c = ']' ∨ c = '\x7d'

def Ends (text : List Char) : Prop := ∀ c rest, text = c :: rest → Delimiter c

theorem Ends.cons {c : Char} (h : Delimiter c) (rest : List Char) : Ends (c :: rest) := by
  intro d rest' heq
  cases heq
  exact h

theorem append_inj_of_ends {a a' r r' : List Char} (ha : ∀ c ∈ a, ¬ Delimiter c)
    (ha' : ∀ c ∈ a', ¬ Delimiter c) (hr : Ends r) (hr' : Ends r') (h : a ++ r = a' ++ r') :
    a = a' ∧ r = r' := by
  induction a generalizing a' with
  | nil =>
      cases a' with
      | nil => exact ⟨rfl, h⟩
      | cons c a' => exact absurd (hr c _ h) (ha' c List.mem_cons_self)
  | cons c a ih =>
      cases a' with
      | nil => exact absurd (hr' c _ h.symm) (ha c List.mem_cons_self)
      | cons c' a' =>
          obtain ⟨rfl, hrest⟩ := List.cons.inj h
          obtain ⟨rfl, hr⟩ := ih (fun c hc => ha c (List.mem_cons_of_mem _ hc))
            (fun c hc => ha' c (List.mem_cons_of_mem _ hc)) hrest
          exact ⟨rfl, hr⟩

theorem not_delimiter_toText (d : Decimal) : ∀ c ∈ d.toText.toList, ¬ Delimiter c := by
  intro c hc hdelimiter
  have hchar := d.numberChar_toText c hc
  rcases hdelimiter with rfl | rfl | rfl <;> revert hchar <;> unfold Decimal.NumberChar <;> decide

theorem toText_append_inj {d d' : Decimal} {r r' : List Char} (hr : Ends r) (hr' : Ends r')
    (h : d.toText.toList ++ r = d'.toText.toList ++ r') : d = d' ∧ r = r' := by
  obtain ⟨htext, hrest⟩ :=
    append_inj_of_ends (not_delimiter_toText d) (not_delimiter_toText d') hr hr' h
  exact ⟨Decimal.toText_injective (String.toList_injective htext), hrest⟩

end Numbers

section Values

mutual

-- JSON has no infinite numbers; they are written as null
def written : Json → Json
  | .num .posInfinity => .null
  | .num .negInfinity => .null
  | .arr items => .arr (writtenItems items)
  | .obj fields => .obj (writtenFields fields)
  | v => v

def writtenItems : List Json → List Json
  | [] => []
  | v :: rest => written v :: writtenItems rest

def writtenFields : List (String × Json) → List (String × Json)
  | [] => []
  | (k, v) :: rest => (k, written v) :: writtenFields rest

end

theorem field_writtenFields (fields : List (String × Json)) (key : String) :
    field (writtenFields fields) key = (field fields key).map written := by
  induction fields with
  | nil => rfl
  | cons e fields ih =>
      obtain ⟨k, v⟩ := e
      rcases eq_or_ne k key with rfl | hne
      · simp [writtenFields, field]
      · simp [writtenFields, field, hne, ih]

theorem get?_written (v : Json) (key : String) : v.written.get? key = (v.get? key).map written := by
  cases v with
  | obj fields => exact field_writtenFields fields key
  | num n => cases n <;> rfl
  | _ => rfl

theorem writtenFields_eq_map (fields : List (String × Json)) :
    writtenFields fields = fields.map fun e => (e.1, e.2.written) := by
  induction fields with
  | nil => rfl
  | cons e fields ih =>
      obtain ⟨k, v⟩ := e
      simp [writtenFields, ih]

def tailItems : List Json → List Char
  | [] => []
  | v :: rest => ',' :: (v.stringify.toList ++ tailItems rest)

def fieldText (e : String × Json) : List Char := (quote e.1).toList ++ ':' :: e.2.stringify.toList

def tailFields : List (String × Json) → List Char
  | [] => []
  | e :: rest => ',' :: (fieldText e ++ tailFields rest)

theorem intercalate_items (v : Json) (rest : List Json) :
    (",".intercalate (stringifyItems (v :: rest))).toList = v.stringify.toList ++ tailItems rest := by
  induction rest generalizing v with
  | nil => simp [stringifyItems, tailItems]
  | cons w rest ih =>
      have htail := ih w
      rw [String.toList_intercalate] at htail ⊢
      simp only [stringifyItems, List.map_cons] at htail ⊢
      rw [List.intercalate_cons_cons, htail]
      simp [tailItems]

theorem intercalate_fields (e : String × Json) (rest : List (String × Json)) :
    (",".intercalate (stringifyFields (e :: rest))).toList = fieldText e ++ tailFields rest := by
  induction rest generalizing e with
  | nil => simp [stringifyFields, tailFields, fieldText]
  | cons f rest ih =>
      have htail := ih f
      rw [String.toList_intercalate] at htail ⊢
      simp only [stringifyFields, List.map_cons] at htail ⊢
      rw [List.intercalate_cons_cons, htail]
      simp [tailFields, fieldText]

theorem stringify_arr_nil (r : List Char) :
    (Json.arr []).stringify.toList ++ r = '[' :: ']' :: r := rfl

theorem stringify_arr_cons (v : Json) (rest : List Json) (r : List Char) :
    (Json.arr (v :: rest)).stringify.toList ++ r =
      '[' :: (v.stringify.toList ++ (tailItems rest ++ ']' :: r)) := by
  rw [stringify, String.toList_append, String.toList_append, intercalate_items]
  simp

theorem stringify_obj_nil (r : List Char) :
    (Json.obj []).stringify.toList ++ r = '\x7b' :: '\x7d' :: r := rfl

theorem stringify_obj_cons (e : String × Json) (rest : List (String × Json)) (r : List Char) :
    (Json.obj (e :: rest)).stringify.toList ++ r =
      '\x7b' :: (fieldText e ++ (tailFields rest ++ '\x7d' :: r)) := by
  rw [stringify, String.toList_append, String.toList_append, intercalate_fields]
  simp

-- what the first character of a text says about the value
inductive Kind where
  | null
  | bool (b : Bool)
  | num
  | str
  | arr
  | obj
  | none
deriving DecidableEq

def kind : Json → Kind
  | .null => .null
  | .bool b => .bool b
  | .num (.finite _) => .num
  | .num .posInfinity => .null
  | .num .negInfinity => .null
  | .str _ => .str
  | .arr _ => .arr
  | .obj _ => .obj

def charKind (c : Char) : Kind :=
  if c = 'n' then .null
  else if c = 't' then .bool true
  else if c = 'f' then .bool false
  else if c = '"' then .str
  else if c = '[' then .arr
  else if c = '\x7b' then .obj
  else if c.isDigit || c = '-' then .num
  else .none

theorem charKind_of_number {c : Char} (h : c.isDigit = true ∨ c = '-') : charKind c = .num := by
  have hne : ∀ d : Char, d.isDigit = false → d ≠ '-' → c ≠ d := by
    rintro d hd hminus rfl
    rcases h with h | h
    · rw [h] at hd
      cases hd
    · exact hminus h
  have hnumber : (c.isDigit || decide (c = '-')) = true := by simpa using h
  rw [charKind, if_neg (hne _ (by decide) (by decide)), if_neg (hne _ (by decide) (by decide)),
    if_neg (hne _ (by decide) (by decide)), if_neg (hne _ (by decide) (by decide)),
    if_neg (hne _ (by decide) (by decide)), if_neg (hne _ (by decide) (by decide)), if_pos hnumber]

theorem head_stringify (v : Json) :
    ∃ c rest, v.stringify.toList = c :: rest ∧ charKind c = v.kind := by
  cases v with
  | null => exact ⟨'n', _, rfl, rfl⟩
  | bool b => cases b <;> exact ⟨_, _, rfl, rfl⟩
  | num n =>
      cases n with
      | finite d =>
          obtain ⟨c, rest, htext, hc⟩ := d.head_toText
          exact ⟨c, rest, htext, charKind_of_number hc⟩
      | posInfinity => exact ⟨'n', _, rfl, rfl⟩
      | negInfinity => exact ⟨'n', _, rfl, rfl⟩
  | str s => exact ⟨'"', s.toList.flatMap escapeChar ++ ['"'], by simp [stringify, quote], rfl⟩
  | arr items =>
      cases items with
      | nil => exact ⟨'[', _, rfl, rfl⟩
      | cons v rest =>
          have htext := stringify_arr_cons v rest []
          rw [List.append_nil] at htext
          exact ⟨'[', _, htext, rfl⟩
  | obj fields =>
      cases fields with
      | nil => exact ⟨'\x7b', _, rfl, rfl⟩
      | cons e rest =>
          have htext := stringify_obj_cons e rest []
          rw [List.append_nil] at htext
          exact ⟨'\x7b', _, htext, rfl⟩

theorem kind_eq_of_append {v w : Json} {r r' : List Char}
    (h : v.stringify.toList ++ r = w.stringify.toList ++ r') : v.kind = w.kind := by
  obtain ⟨c, rest, hv, hc⟩ := head_stringify v
  obtain ⟨c', rest', hw, hc'⟩ := head_stringify w
  rw [hv, hw] at h
  rw [← hc, ← hc', (List.cons.inj h).1]

theorem kind_ne_none (v : Json) : v.kind ≠ .none := by
  cases v with
  | num n => cases n <;> exact nofun
  | _ => exact nofun

theorem ends_tailItems (items : List Json) (r : List Char) : Ends (tailItems items ++ ']' :: r) := by
  cases items with
  | nil => exact .cons (.inr (.inl rfl)) r
  | cons v rest => exact .cons (.inl rfl) _

theorem ends_tailFields (fields : List (String × Json)) (r : List Char) :
    Ends (tailFields fields ++ '\x7d' :: r) := by
  cases fields with
  | nil => exact .cons (.inr (.inr rfl)) r
  | cons e rest => exact .cons (.inl rfl) _

theorem of_kind_null {v : Json} (h : v.kind = .null) :
    v.written = .null ∧ v.stringify = "null" := by
  cases v with
  | null => exact ⟨rfl, rfl⟩
  | num n =>
      cases n with
      | finite d => cases h
      | posInfinity => exact ⟨rfl, rfl⟩
      | negInfinity => exact ⟨rfl, rfl⟩
  | _ => cases h

theorem null_append_inj {v w : Json} (hv : v.kind = .null) (hw : w.kind = .null) {r r' : List Char}
    (h : v.stringify.toList ++ r = w.stringify.toList ++ r') : v.written = w.written ∧ r = r' := by
  obtain ⟨hvalue, htext⟩ := of_kind_null hv
  obtain ⟨hvalue', htext'⟩ := of_kind_null hw
  rw [htext, htext'] at h
  exact ⟨hvalue.trans hvalue'.symm, List.append_cancel_left h⟩

theorem bracket_ne_item (v : Json) (r s : List Char) : ']' :: r ≠ v.stringify.toList ++ s := by
  intro h
  obtain ⟨c, rest, htext, hkind⟩ := head_stringify v
  rw [htext] at h
  obtain rfl := (List.cons.inj h).1
  exact kind_ne_none v hkind.symm

theorem brace_ne_field (e : String × Json) (r s : List Char) : '\x7d' :: r ≠ fieldText e ++ s := by
  intro h
  rw [fieldText, quote, String.toList_append, String.toList_append] at h
  exact absurd (List.cons.inj h).1 (by decide)

-- a text is read back in one way, up to the infinite numbers
def ReadsBack (v : Json) : Prop :=
  ∀ (w : Json) (r r' : List Char), Ends r → Ends r' →
    v.stringify.toList ++ r = w.stringify.toList ++ r' → v.written = w.written ∧ r = r'

def ItemsReadBack (vs : List Json) : Prop :=
  ∀ (ws : List Json) (r r' : List Char), tailItems vs ++ ']' :: r = tailItems ws ++ ']' :: r' →
    writtenItems vs = writtenItems ws ∧ r = r'

def FieldsReadBack (es : List (String × Json)) : Prop :=
  ∀ (fs : List (String × Json)) (r r' : List Char),
    tailFields es ++ '\x7d' :: r = tailFields fs ++ '\x7d' :: r' →
      writtenFields es = writtenFields fs ∧ r = r'

theorem readsBack_null : ReadsBack .null := fun _ _ _ _ _ h =>
  null_append_inj rfl (kind_eq_of_append h).symm h

theorem readsBack_bool (b : Bool) : ReadsBack (.bool b) := by
  intro w r r' _ _ h
  have hkind := kind_eq_of_append h
  cases w with
  | bool b' =>
      obtain rfl := Kind.bool.inj hkind
      exact ⟨rfl, List.append_cancel_left h⟩
  | num n => cases n <;> cases hkind
  | _ => cases hkind

theorem readsBack_num (n : JsNumber) : ReadsBack (.num n) := by
  intro w r r' hr hr' h
  have hkind := kind_eq_of_append h
  cases n with
  | finite d =>
      cases w with
      | num n' =>
          cases n' with
          | finite d' =>
              obtain ⟨rfl, hrest⟩ := toText_append_inj hr hr' h
              exact ⟨rfl, hrest⟩
          | posInfinity => cases hkind
          | negInfinity => cases hkind
      | _ => cases hkind
  | posInfinity => exact null_append_inj rfl hkind.symm h
  | negInfinity => exact null_append_inj rfl hkind.symm h

theorem readsBack_str (s : String) : ReadsBack (.str s) := by
  intro w r r' _ _ h
  have hkind := kind_eq_of_append h
  cases w with
  | str s' =>
      obtain ⟨rfl, hrest⟩ := quote_inj h
      exact ⟨rfl, hrest⟩
  | num n => cases n <;> cases hkind
  | _ => cases hkind

theorem readsBack_arr (vs : List Json) (hvs : ItemsReadBack vs) : ReadsBack (.arr vs) := by
  intro w r r' _ _ h
  have hkind := kind_eq_of_append h
  cases w with
  | arr ws =>
      cases vs with
      | nil =>
          cases ws with
          | nil => exact ⟨rfl, List.append_cancel_left h⟩
          | cons w ws =>
              rw [stringify_arr_nil, stringify_arr_cons] at h
              exact absurd (List.cons.inj h).2 (bracket_ne_item w r _)
      | cons v vs =>
          cases ws with
          | nil =>
              rw [stringify_arr_nil, stringify_arr_cons] at h
              exact absurd (List.cons.inj h).2.symm (bracket_ne_item v r' _)
          | cons w ws =>
              rw [stringify_arr_cons, stringify_arr_cons] at h
              have hitems := congrArg (',' :: ·) (List.cons.inj h).2
              obtain ⟨hwritten, hrest⟩ := hvs (w :: ws) r r' (by simpa [tailItems] using hitems)
              exact ⟨by rw [written, written, hwritten], hrest⟩
  | num n => cases n <;> cases hkind
  | _ => cases hkind

theorem readsBack_obj (es : List (String × Json)) (hes : FieldsReadBack es) :
    ReadsBack (.obj es) := by
  intro w r r' _ _ h
  have hkind := kind_eq_of_append h
  cases w with
  | obj fs =>
      cases es with
      | nil =>
          cases fs with
          | nil => exact ⟨rfl, List.append_cancel_left h⟩
          | cons f fs =>
              rw [stringify_obj_nil, stringify_obj_cons] at h
              exact absurd (List.cons.inj h).2 (brace_ne_field f r _)
      | cons e es =>
          cases fs with
          | nil =>
              rw [stringify_obj_nil, stringify_obj_cons] at h
              exact absurd (List.cons.inj h).2.symm (brace_ne_field e r' _)
          | cons f fs =>
              rw [stringify_obj_cons, stringify_obj_cons] at h
              have hfields := congrArg (',' :: ·) (List.cons.inj h).2
              obtain ⟨hwritten, hrest⟩ := hes (f :: fs) r r' (by simpa [tailFields] using hfields)
              exact ⟨by rw [written, written, hwritten], hrest⟩
  | num n => cases n <;> cases hkind
  | _ => cases hkind

theorem itemsReadBack_nil : ItemsReadBack [] := by
  intro ws r r' h
  cases ws with
  | nil => exact ⟨rfl, (List.cons.inj h).2⟩
  | cons w ws => exact absurd (List.cons.inj h).1 (by decide)

theorem itemsReadBack_cons (v : Json) (vs : List Json) (hv : ReadsBack v)
    (hvs : ItemsReadBack vs) : ItemsReadBack (v :: vs) := by
  intro ws r r' h
  cases ws with
  | nil => exact absurd (List.cons.inj h).1 (by decide)
  | cons w ws =>
      rw [tailItems, tailItems, List.cons_append, List.cons_append, List.append_assoc,
        List.append_assoc] at h
      obtain ⟨hvalue, hrest⟩ := hv w _ _ (ends_tailItems vs r) (ends_tailItems ws r')
        (List.cons.inj h).2
      obtain ⟨hvalues, hr⟩ := hvs ws r r' hrest
      exact ⟨by rw [writtenItems, writtenItems, hvalue, hvalues], hr⟩

theorem fieldsReadBack_nil : FieldsReadBack [] := by
  intro fs r r' h
  cases fs with
  | nil => exact ⟨rfl, (List.cons.inj h).2⟩
  | cons f fs => exact absurd (List.cons.inj h).1 (by decide)

theorem fieldsReadBack_cons (e : String × Json) (es : List (String × Json)) (he : ReadsBack e.2)
    (hes : FieldsReadBack es) : FieldsReadBack (e :: es) := by
  intro fs r r' h
  cases fs with
  | nil => exact absurd (List.cons.inj h).1 (by decide)
  | cons f fs =>
      obtain ⟨k, v⟩ := e
      obtain ⟨l, w⟩ := f
      rw [tailFields, tailFields, List.cons_append, List.cons_append, fieldText, fieldText,
        List.append_assoc, List.append_assoc, List.append_assoc, List.append_assoc] at h
      obtain ⟨rfl, hfield⟩ := quote_inj (List.cons.inj h).2
      obtain ⟨hvalue, hrest⟩ := he w _ _ (ends_tailFields es r) (ends_tailFields fs r')
        (List.cons.inj hfield).2
      obtain ⟨hvalues, hr⟩ := hes fs r r' hrest
      exact ⟨by rw [writtenFields, writtenFields, hvalue, hvalues], hr⟩

theorem readsBack (v : Json) : ReadsBack v :=
  @Json.rec ReadsBack ItemsReadBack FieldsReadBack (fun e => ReadsBack e.2) readsBack_null
    readsBack_bool readsBack_num readsBack_str readsBack_arr readsBack_obj itemsReadBack_nil
    itemsReadBack_cons fieldsReadBack_nil fieldsReadBack_cons (fun _ _ h => h) v

theorem stringify_inj {v w : Json} (h : v.stringify = w.stringify) : v.written = w.written :=
  (readsBack v w [] [] nofun nofun (by rw [h])).1

end Values

end Json
