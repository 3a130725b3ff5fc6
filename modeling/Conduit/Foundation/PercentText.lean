import Conduit.Foundation.Text
import Conduit.Foundation.Utf8

-- percent encoding: a text whose characters stand for the bytes of another one
namespace Percent

section Codec

def hexDigit (n : ℕ) : Char := "0123456789ABCDEF".toList.getD n '0'

def hexValue? (c : Char) : Option ℕ :=
  if c.isDigit then some (c.toNat - 48)
  else if 'a' ≤ c ∧ c ≤ 'f' then some (c.toNat - 87)
  else if 'A' ≤ c ∧ c ≤ 'F' then some (c.toNat - 55)
  else none

def encodeByte (byte : UInt8) : List Char :=
  ['%', hexDigit (byte.toNat / 16), hexDigit (byte.toNat % 16)]

def encode (keep : Char → Bool) (text : List Char) : List Char :=
  text.flatMap fun c => if keep c then [c] else (String.utf8EncodeChar c).flatMap encodeByte

def escape? (a b : Char) : Option UInt8 :=
  (hexValue? a).bind fun high => (hexValue? b).map fun low => UInt8.ofNat (16 * high + low)

-- `none` where a percent sign begins no escape
def bytes? : List Char → Option (List UInt8)
  | [] => some []
  | '%' :: a :: b :: rest => (escape? a b).bind fun byte => (bytes? rest).map (byte :: ·)
  | c :: rest => if c = '%' then none else (bytes? rest).map (String.utf8EncodeChar c ++ ·)

-- such a percent sign stands for itself
def bytes : List Char → List UInt8
  | [] => []
  | '%' :: a :: b :: rest =>
      match escape? a b with
      | some byte => byte :: bytes rest
      | none => String.utf8EncodeChar '%' ++ bytes (a :: b :: rest)
  | c :: rest => String.utf8EncodeChar c ++ bytes rest

-- application/x-www-form-urlencoded
def formDecode (text : List Char) : List Char :=
  Utf8.decode (bytes (text.map fun c => if c = '+' then ' ' else c))

def formPair (part : List Char) : List Char × List Char :=
  (formDecode (part.takeWhile (· ≠ '=')), formDecode (part.dropWhile (· ≠ '=')).tail)

def formPairs (text : List Char) : List (List Char × List Char) :=
  ((Text.splitChars '&' text).filter (· ≠ [])).map formPair

def searchParam (text name : List Char) : Option (List Char) :=
  ((formPairs text).find? fun e => e.1 = name).map Prod.snd

end Codec

section Bytes

theorem toList_loop (bs : ByteArray) (i : ℕ) (r : List UInt8) :
    ByteArray.toList.loop bs i r = r.reverse ++ bs.data.toList.drop i := by
  fun_induction ByteArray.toList.loop bs i r with
  | case1 i r h ih =>
      have hi : i < bs.data.toList.length := h
      rw [ih, List.reverse_cons, List.append_assoc, List.drop_eq_getElem_cons hi]
      simp [ByteArray.get!, getElem!_pos bs.data i h]
  | case2 i r h =>
      have hi : bs.data.toList.length ≤ i := Nat.le_of_not_lt h
      rw [List.drop_eq_nil_of_le hi, List.append_nil]

theorem toUTF8_singleton (c : Char) :
    (String.singleton c).toUTF8.toList = String.utf8EncodeChar c := by
  rw [ByteArray.toList, toList_loop]
  change List.drop 0 (String.singleton c).toByteArray.data.toList = _
  rw [String.toByteArray_singleton, List.utf8Encode_singleton, List.toList_data_toByteArray]
  rfl

end Bytes

section RoundTrip

theorem hexValue?_hexDigit : ∀ n < 16, hexValue? (hexDigit n) = some n := by decide

theorem escape?_encodeByte (byte : UInt8) :
    escape? (hexDigit (byte.toNat / 16)) (hexDigit (byte.toNat % 16)) = some byte := by
  have hbyte : byte.toNat < 256 := byte.toNat_lt
  rw [escape?, hexValue?_hexDigit _ (by omega), hexValue?_hexDigit _ (by omega), Option.bind_some,
    Option.map_some, Nat.div_add_mod, UInt8.ofNat_toNat]

theorem bytes?_encodeByte (byte : UInt8) (rest : List Char) :
    bytes? (encodeByte byte ++ rest) = (bytes? rest).map (byte :: ·) := by
  change (escape? _ _).bind _ = _
  rw [escape?_encodeByte]
  rfl

theorem bytes?_encodeBytes (bs : List UInt8) (rest : List Char) :
    bytes? (bs.flatMap encodeByte ++ rest) = (bytes? rest).map (bs ++ ·) := by
  induction bs with
  | nil => simp
  | cons byte bs ih =>
      rw [List.flatMap_cons, List.append_assoc, bytes?_encodeByte, ih, Option.map_map]
      rfl

theorem bytes?_cons {c : Char} (hc : c ≠ '%') (rest : List Char) :
    bytes? (c :: rest) = (bytes? rest).map (String.utf8EncodeChar c ++ ·) := by
  rw [bytes?]
  · rw [if_neg hc]
  · rintro a b more rfl
    exact absurd rfl hc

theorem bytes?_encode {keep : Char → Bool} (hkeep : keep '%' = false) (text rest : List Char) :
    bytes? (encode keep text ++ rest) = (bytes? rest).map (Utf8.encode text ++ ·) := by
  induction text with
  | nil => simp [encode, Utf8.encode]
  | cons c text ih =>
      rw [encode, List.flatMap_cons, List.append_assoc]
      change bytes? (_ ++ (encode keep text ++ rest)) = _
      split
      next hc =>
        have hne : c ≠ '%' := by
          rintro rfl
          rw [hkeep] at hc
          cases hc
        rw [List.singleton_append, bytes?_cons hne, ih, Option.map_map, Utf8.encode_cons]
        exact congrArg (Option.map · _) (funext fun bs => (List.append_assoc ..).symm)
      next =>
        rw [bytes?_encodeBytes, ih, Option.map_map, Utf8.encode_cons]
        exact congrArg (Option.map · _) (funext fun bs => (List.append_assoc ..).symm)

-- the lenient reading agrees with the strict one where that is defined
theorem bytes_of_bytes? {text : List Char} {bs : List UInt8} (h : bytes? text = some bs) :
    bytes text = bs := by
  induction text using bytes?.induct generalizing bs with
  | case1 =>
      cases h
      rfl
  | case2 a b rest ih =>
      obtain ⟨byte, hbyte, h⟩ := Option.bind_eq_some_iff.mp h
      obtain ⟨more, hmore, rfl⟩ := Option.map_eq_some_iff.mp h
      rw [bytes, hbyte]
      exact congrArg (byte :: ·) (ih hmore)
  | case3 rest hrest =>
      rw [bytes?, if_pos rfl] at h
      · cases h
      · exact hrest
  | case4 c rest hrest hc ih =>
      rw [bytes?_cons hc] at h
      obtain ⟨more, hmore, rfl⟩ := Option.map_eq_some_iff.mp h
      rw [bytes]
      · rw [ih hmore]
      · exact hrest

theorem mem_hexDigits (n : ℕ) : hexDigit n ∈ "0123456789ABCDEF".toList := by
  rw [hexDigit, List.getD_eq_getElem?_getD]
  cases h : "0123456789ABCDEF".toList[n]? with
  | none => decide
  | some c => exact List.mem_of_getElem? h

theorem mem_encode {keep : Char → Bool} {text : List Char} {c : Char} (h : c ∈ encode keep text) :
    keep c = true ∨ c = '%' ∨ c ∈ "0123456789ABCDEF".toList := by
  obtain ⟨x, -, hc⟩ := List.mem_flatMap.mp h
  split at hc
  next hkeep =>
    obtain rfl := List.mem_singleton.mp hc
    exact .inl hkeep
  next =>
    obtain ⟨byte, -, hbyte⟩ := List.mem_flatMap.mp hc
    simp only [encodeByte, List.mem_cons, List.not_mem_nil, or_false] at hbyte
    rcases hbyte with rfl | rfl | rfl
    · exact .inr (.inl rfl)
    · exact .inr (.inr (mem_hexDigits _))
    · exact .inr (.inr (mem_hexDigits _))

theorem not_mem_encode {keep : Char → Bool} {c : Char} (hkeep : keep c = false) (hpercent : c ≠ '%')
    (hhex : c ∉ "0123456789ABCDEF".toList) (text : List Char) : c ∉ encode keep text := by
  intro h
  rcases mem_encode h with hkept | hc | hc
  · rw [hkeep] at hkept
    cases hkept
  · exact hpercent hc
  · exact hhex hc

theorem formDecode_encode {keep : Char → Bool} (hkeep : keep '%' = false)
    (hplus : keep '+' = false) (text : List Char) : formDecode (encode keep text) = text := by
  have hmap : (encode keep text).map (fun c => if c = '+' then ' ' else c) = encode keep text := by
    have hnone := not_mem_encode hplus (by decide) (by decide) text
    rw [List.map_congr_left (g := id), List.map_id]
    intro c hc
    rw [if_neg]
    · rfl
    · rintro rfl
      exact hnone hc
  have hbytes := bytes?_encode hkeep text []
  rw [List.append_nil, bytes?, Option.map_some, List.append_nil] at hbytes
  rw [formDecode, hmap, bytes_of_bytes? hbytes, Utf8.decode_encode]

theorem encode_of_forall {keep : Char → Bool} {text : List Char} (h : ∀ c ∈ text, keep c = true) :
    encode keep text = text := by
  induction text with
  | nil => rfl
  | cons c text ih =>
      rw [encode, List.flatMap_cons, if_pos (h c List.mem_cons_self)]
      exact congrArg (c :: ·) (ih fun d hd => h d (List.mem_cons_of_mem c hd))

-- a query of one parameter gives its value back
theorem searchParam_encode {keep : Char → Bool} (hpercent : keep '%' = false)
    (hplus : keep '+' = false) (hand : keep '&' = false) (hequals : keep '=' = false)
    {name : List Char} (hkept : ∀ c ∈ name, keep c = true) (value : List Char) :
    searchParam (name ++ '=' :: encode keep value) name = some value := by
  have hne : ∀ {c : Char}, keep c = false → c ∉ name := by
    intro c hc hmem
    rw [hkept c hmem] at hc
    cases hc
  have hname : formDecode name = name := by
    have hdecoded := formDecode_encode hpercent hplus name
    rwa [encode_of_forall hkept] at hdecoded
  have hparts : '&' ∉ name ++ '=' :: encode keep value := by
    have hvalue := not_mem_encode hand (by decide) (by decide) value
    simpa [hne hand] using hvalue
  have hpass : ∀ c ∈ name, decide (c ≠ '=') = true := by
    intro c hc
    simp only [decide_eq_true_eq]
    rintro rfl
    exact hne hequals hc
  have hpair : formPair (name ++ '=' :: encode keep value) = (name, value) := by
    rw [formPair, List.takeWhile_append_of_pos hpass, List.dropWhile_append_of_pos hpass]
    simp [hname, formDecode_encode hpercent hplus]
  rw [searchParam, formPairs, Text.splitChars_of_not_mem hparts]
  simp [hpair]

end RoundTrip

end Percent
