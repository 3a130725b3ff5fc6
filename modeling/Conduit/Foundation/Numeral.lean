import Conduit.Foundation.JsonText
import Mathlib.Algebra.Field.Rat
import Mathlib.Algebra.GroupWithZero.Units.Basic
import Mathlib.Tactic.FieldSimp
import Mathlib.Tactic.NormNum

namespace Decimal

def value (d : Decimal) : ℚ := d.mantissa * 10 ^ d.exponent

def splitOnce (separator : Char) (text : List Char) : List Char × List Char :=
  (text.takeWhile (· ≠ separator), (text.dropWhile (· ≠ separator)).drop 1)

def readExponent : List Char → ℤ
  | '-' :: digits => -(Nat.ofDigitChars 10 digits 0 : ℕ)
  | '+' :: digits => (Nat.ofDigitChars 10 digits 0 : ℕ)
  | _ => 0

def readMagnitude (text : List Char) : ℚ :=
  let (significand, exponent) := splitOnce 'e' text
  let (whole, fraction) := splitOnce '.' significand
  (Nat.ofDigitChars 10 (whole ++ fraction) 0 : ℕ) * 10 ^ (readExponent exponent - fraction.length)

def readNumber : List Char → ℚ
  | '-' :: text => -readMagnitude text
  | text => readMagnitude text

section Reading

variable {separator : Char} {before after : List Char}

theorem splitOnce_append (h : separator ∉ before) :
    splitOnce separator (before ++ separator :: after) = (before, after) := by
  have hall : ∀ c ∈ before, (decide (c ≠ separator)) = true := fun c hc =>
    decide_eq_true fun heq => h (heq ▸ hc)
  rw [splitOnce, List.takeWhile_append_of_pos hall, List.dropWhile_append_of_pos hall]
  simp

theorem splitOnce_of_not_mem (h : separator ∉ before) :
    splitOnce separator before = (before, []) := by
  have hall : ∀ c ∈ before, (decide (c ≠ separator)) = true := fun c hc =>
    decide_eq_true fun heq => h (heq ▸ hc)
  have hpos := @List.takeWhile_append_of_pos _ _ _ [] hall
  have hdrop := @List.dropWhile_append_of_pos _ _ _ [] hall
  rw [List.append_nil, List.takeWhile_nil, List.append_nil] at hpos
  rw [List.append_nil, List.dropWhile_nil] at hdrop
  rw [splitOnce, hpos, hdrop]
  rfl

def AllDigits (text : List Char) : Prop := ∀ c ∈ text, c.isDigit = true

theorem AllDigits.not_mem {text : List Char} (h : AllDigits text) {c : Char}
    (hc : c.isDigit = false) : c ∉ text := fun hmem => by
  rw [h c hmem] at hc
  cases hc

theorem AllDigits.append {text text' : List Char} (h : AllDigits text) (h' : AllDigits text') :
    AllDigits (text ++ text') := fun c hc => (List.mem_append.mp hc).elim (h c) (h' c)

theorem allDigits_toString (n : ℕ) : AllDigits (toString n).toList :=
  fun _ hc => Nat.isDigit_of_mem_toDigits (by omega) (by omega)
    ((show (toString n).toList = Nat.toDigits 10 n from String.toList_ofList) ▸ hc)

theorem allDigits_zeros (n : ℕ) : AllDigits (List.replicate n '0') := fun c hc => by
  rw [List.eq_of_mem_replicate hc]
  rfl

theorem ofDigitChars_toString (n : ℕ) : Nat.ofDigitChars 10 (toString n).toList 0 = n := by
  rw [show (toString n).toList = Nat.toDigits 10 n from String.toList_ofList]
  exact Nat.ofDigitChars_ten_toDigits

-- the digits before and after the point, which is left out when nothing follows it
def significand (whole fraction : List Char) : List Char :=
  whole ++ if fraction = [] then [] else '.' :: fraction

variable {whole fraction : List Char}

theorem splitOnce_significand (hwhole : AllDigits whole) :
    splitOnce '.' (significand whole fraction) = (whole, fraction) := by
  unfold significand
  split
  next hnil =>
    rw [hnil, List.append_nil]
    exact splitOnce_of_not_mem (hwhole.not_mem rfl)
  next => exact splitOnce_append (hwhole.not_mem rfl)

theorem not_mem_significand (hwhole : AllDigits whole) (hfraction : AllDigits fraction) :
    'e' ∉ significand whole fraction := by
  unfold significand
  intro hmem
  rcases List.mem_append.mp hmem with hmem | hmem
  · exact hwhole.not_mem rfl hmem
  · split at hmem
    · cases hmem
    · rcases List.mem_cons.mp hmem with heq | hmem
      · exact absurd heq (by decide)
      · exact hfraction.not_mem rfl hmem

theorem readMagnitude_significand (hwhole : AllDigits whole) (hfraction : AllDigits fraction) :
    readMagnitude (significand whole fraction) =
      (Nat.ofDigitChars 10 (whole ++ fraction) 0 : ℕ) * 10 ^ (0 - fraction.length : ℤ) := by
  rw [readMagnitude, splitOnce_of_not_mem (not_mem_significand hwhole hfraction)]
  dsimp only
  rw [splitOnce_significand hwhole]
  rfl

theorem readMagnitude_scientific (hwhole : AllDigits whole) (hfraction : AllDigits fraction)
    (exponent : List Char) :
    readMagnitude (significand whole fraction ++ 'e' :: exponent) =
      (Nat.ofDigitChars 10 (whole ++ fraction) 0 : ℕ) *
        10 ^ (readExponent exponent - fraction.length) := by
  rw [readMagnitude, splitOnce_append (not_mem_significand hwhole hfraction)]
  dsimp only
  rw [splitOnce_significand hwhole]

theorem readExponent_signed (n : ℤ) : readExponent (signed n).toList = n := by
  unfold signed
  split
  next hneg =>
    rw [String.toList_append]
    change -((Nat.ofDigitChars 10 (toString n.natAbs).toList 0 : ℕ) : ℤ) = n
    rw [ofDigitChars_toString]
    omega
  next hpos =>
    rw [String.toList_append]
    change ((Nat.ofDigitChars 10 (toString n.natAbs).toList 0 : ℕ) : ℤ) = n
    rw [ofDigitChars_toString]
    omega

end Reading

section Writing

-- how the digits of a number are written out, without its sign
structure Written (mantissa : ℕ) (exponent : ℤ) (text : List Char) : Prop where
  intro ::
  shape : ∃ whole fraction, whole ≠ [] ∧ AllDigits whole ∧ AllDigits fraction ∧ ∃ shift : ℤ,
    (text = significand whole fraction ∧ shift = 0 ∨
      text = significand whole fraction ++ 'e' :: (signed shift).toList) ∧
    ∃ padding : ℕ, Nat.ofDigitChars 10 (whole ++ fraction) 0 = mantissa * 10 ^ padding ∧
      padding + shift - fraction.length = exponent

def magnitude (d : Decimal) : String :=
  let digits := toString d.mantissa.natAbs
  let k : ℤ := digits.length
  let n := k + d.exponent
  if k ≤ n ∧ n ≤ 21 then digits ++ zeros (n - k).toNat
  else if 0 < n ∧ n ≤ 21 then
    String.ofList (digits.toList.take n.toNat) ++ "." ++ String.ofList (digits.toList.drop n.toNat)
  else if -6 < n ∧ n ≤ 0 then "0." ++ zeros (-n).toNat ++ digits
  else scientific digits (n - 1)

theorem toText_eq (d : Decimal) :
    d.toText = if d.mantissa < 0 then "-" ++ d.magnitude else d.magnitude := rfl

theorem toString_ne_nil (n : ℕ) : (toString n).toList ≠ [] := by
  rw [show (toString n).toList = Nat.toDigits 10 n from String.toList_ofList]
  exact Nat.toDigits_ne_nil

theorem AllDigits.take {text : List Char} (h : AllDigits text) (n : ℕ) : AllDigits (text.take n) :=
  fun c hc => h c (List.mem_of_mem_take hc)

theorem AllDigits.drop {text : List Char} (h : AllDigits text) (n : ℕ) : AllDigits (text.drop n) :=
  fun c hc => h c (List.mem_of_mem_drop hc)

theorem written_magnitude (d : Decimal) :
    Written d.mantissa.natAbs d.exponent d.magnitude.toList := by
  have hdigits := allDigits_toString d.mantissa.natAbs
  have hread := ofDigitChars_toString d.mantissa.natAbs
  have hne := toString_ne_nil d.mantissa.natAbs
  unfold magnitude
  generalize toString d.mantissa.natAbs = digits at hdigits hread hne
  have hlength : digits.length = digits.toList.length := String.length_toList.symm
  dsimp only
  split
  next hplain =>
    refine ⟨digits.toList ++ List.replicate (digits.length + d.exponent - digits.length).toNat '0', [],
      by simp [hne], hdigits.append (allDigits_zeros _), by simp [AllDigits], 0, .inl ⟨?_, rfl⟩,
      (digits.length + d.exponent - digits.length).toNat, ?_, ?_⟩
    · simp [significand, zeros, String.toList_append]
    · rw [List.append_nil, Nat.ofDigitChars_append, hread, Nat.ofDigitChars_replicate_zero, mul_comm]
    · simp only [List.length_nil]
      omega
  next =>
    split
    next hpoint =>
      have hshort : (digits.length + d.exponent).toNat < digits.toList.length := by omega
      have hdrop : digits.toList.drop (digits.length + d.exponent).toNat ≠ [] := by
        rw [Ne, List.drop_eq_nil_iff]
        omega
      have htake : digits.toList.take (digits.length + d.exponent).toNat ≠ [] := by
        rw [Ne, List.take_eq_nil_iff]
        rintro (hzero | hnil)
        · omega
        · exact hne hnil
      refine ⟨digits.toList.take (digits.length + d.exponent).toNat,
        digits.toList.drop (digits.length + d.exponent).toNat, htake, hdigits.take _,
        hdigits.drop _, 0, .inl ⟨?_, rfl⟩, 0, ?_, ?_⟩
      · simp [significand, hdrop, String.toList_append]
      · rw [List.take_append_drop, hread, pow_zero, mul_one]
      · rw [List.length_drop]
        omega
    next =>
      split
      next hsmall =>
        refine ⟨['0'], List.replicate (-(digits.length + d.exponent)).toNat '0' ++ digits.toList,
          by simp, allDigits_zeros 1, (allDigits_zeros _).append hdigits, 0, .inl ⟨?_, rfl⟩, 0, ?_, ?_⟩
        · simp [significand, hne, zeros, String.toList_append]
        · rw [← List.append_assoc, Nat.ofDigitChars_append, Nat.ofDigitChars_append,
            show Nat.ofDigitChars 10 ['0'] 0 = 0 from rfl, Nat.ofDigitChars_replicate_zero,
            Nat.mul_zero, hread, pow_zero, mul_one]
        · rw [List.length_append, List.length_replicate]
          omega
      next =>
        refine ⟨digits.toList.take 1, digits.toList.drop 1, ?_, hdigits.take _, hdigits.drop _,
          digits.length + d.exponent - 1, .inr ?_, 0, ?_, ?_⟩
        · simp [hne]
        · by_cases hdrop : digits.toList.drop 1 = []
          · rw [scientific, significand, if_pos hdrop, if_pos hdrop]
            simp [String.toList_append]
          · rw [scientific, significand, if_neg hdrop, if_neg hdrop]
            simp [String.toList_append]
        · rw [List.take_append_drop, hread, pow_zero, mul_one]
        · have hpos : 0 < digits.toList.length := List.length_pos_iff.mpr hne
          rw [List.length_drop]
          omega

theorem readMagnitude_of_written {mantissa : ℕ} {exponent : ℤ} {text : List Char}
    (h : Written mantissa exponent text) : readMagnitude text = mantissa * 10 ^ exponent := by
  obtain ⟨whole, fraction, -, hwhole, hfraction, shift, htext, padding, hread, hexponent⟩ := h.shape
  have hvalue : readMagnitude text =
      (Nat.ofDigitChars 10 (whole ++ fraction) 0 : ℕ) * 10 ^ (shift - fraction.length) := by
    rcases htext with ⟨rfl, rfl⟩ | rfl
    · exact readMagnitude_significand hwhole hfraction
    · rw [readMagnitude_scientific hwhole hfraction, readExponent_signed]
  rw [hvalue, hread, ← hexponent, Nat.cast_mul, Nat.cast_pow, mul_assoc, Nat.cast_ofNat,
    ← zpow_natCast, ← zpow_add₀ (by norm_num), add_sub_assoc]

theorem head_of_written {mantissa : ℕ} {exponent : ℤ} {text : List Char}
    (h : Written mantissa exponent text) : ∃ c rest, text = c :: rest ∧ c.isDigit = true := by
  obtain ⟨whole, fraction, hne, hwhole, -, shift, htext, -⟩ := h.shape
  obtain ⟨c, rest, rfl⟩ := List.exists_cons_of_ne_nil hne
  refine ⟨c, ?_⟩
  rcases htext with ⟨rfl, -⟩ | rfl
  · exact ⟨_, rfl, hwhole c List.mem_cons_self⟩
  · exact ⟨_, rfl, hwhole c List.mem_cons_self⟩

theorem readNumber_toText (d : Decimal) : readNumber d.toText.toList = d.value := by
  have hwritten := written_magnitude d
  rw [toText_eq, value]
  split
  next hneg =>
    rw [String.toList_append]
    change -readMagnitude d.magnitude.toList = _
    have habs : (d.mantissa : ℚ) = -(d.mantissa.natAbs : ℚ) := by
      rw [← Int.cast_natCast, ← Int.cast_neg]
      congr 1
      omega
    rw [readMagnitude_of_written hwritten, habs, neg_mul]
  next hpos =>
    obtain ⟨c, rest, htext, hdigit⟩ := head_of_written hwritten
    have habs : (d.mantissa : ℚ) = (d.mantissa.natAbs : ℚ) := by
      rw [← Int.cast_natCast]
      congr 1
      omega
    rw [habs, ← readMagnitude_of_written hwritten, htext, readNumber]
    rintro text heq
    cases heq
    cases hdigit

def NumberChar (c : Char) : Prop := c.isDigit = true ∨ c = '-' ∨ c = '+' ∨ c = '.' ∨ c = 'e'

theorem numberChar_significand {whole fraction : List Char} (hwhole : AllDigits whole)
    (hfraction : AllDigits fraction) : ∀ c ∈ significand whole fraction, NumberChar c := by
  intro c hc
  unfold significand at hc
  rcases List.mem_append.mp hc with hc | hc
  · exact .inl (hwhole c hc)
  · split at hc
    · cases hc
    · rcases List.mem_cons.mp hc with rfl | hc
      · exact .inr (.inr (.inr (.inl rfl)))
      · exact .inl (hfraction c hc)

theorem numberChar_signed (n : ℤ) : ∀ c ∈ (signed n).toList, NumberChar c := by
  intro c hc
  unfold signed at hc
  split at hc
  · rw [String.toList_append] at hc
    rcases List.mem_append.mp hc with hc | hc
    · exact .inr (.inl (List.mem_singleton.mp hc))
    · exact .inl (allDigits_toString _ c hc)
  · rw [String.toList_append] at hc
    rcases List.mem_append.mp hc with hc | hc
    · exact .inr (.inr (.inl (List.mem_singleton.mp hc)))
    · exact .inl (allDigits_toString _ c hc)

theorem numberChar_of_written {mantissa : ℕ} {exponent : ℤ} {text : List Char}
    (h : Written mantissa exponent text) : ∀ c ∈ text, NumberChar c := by
  obtain ⟨whole, fraction, -, hwhole, hfraction, shift, htext, -⟩ := h.shape
  have hsignificand := numberChar_significand hwhole hfraction
  rcases htext with ⟨rfl, -⟩ | rfl
  · exact hsignificand
  · intro c hc
    rcases List.mem_append.mp hc with hc | hc
    · exact hsignificand c hc
    · rcases List.mem_cons.mp hc with rfl | hc
      · exact .inr (.inr (.inr (.inr rfl)))
      · exact numberChar_signed shift c hc

theorem numberChar_toText (d : Decimal) : ∀ c ∈ d.toText.toList, NumberChar c := by
  intro c hc
  rw [toText_eq] at hc
  split at hc
  · rw [String.toList_append] at hc
    rcases List.mem_append.mp hc with hc | hc
    · exact .inr (.inl (List.mem_singleton.mp hc))
    · exact numberChar_of_written (written_magnitude d) c hc
  · exact numberChar_of_written (written_magnitude d) c hc

theorem head_toText (d : Decimal) :
    ∃ c rest, d.toText.toList = c :: rest ∧ (c.isDigit = true ∨ c = '-') := by
  obtain ⟨c, rest, htext, hdigit⟩ := head_of_written (written_magnitude d)
  rw [toText_eq]
  split
  · exact ⟨'-', d.magnitude.toList, by rw [String.toList_append]; rfl, .inr rfl⟩
  · exact ⟨c, rest, htext, .inl hdigit⟩

end Writing

-- of two texts of one number, the one with the smaller exponent has a trailing zero
theorem eq_of_value_eq_of_le {d d' : Decimal} (h : d.value = d'.value)
    (hle : d.exponent ≤ d'.exponent) : d = d' := by
  obtain ⟨k, hk⟩ := Int.le.dest hle
  have hmantissa : d.mantissa = d'.mantissa * 10 ^ k := by
    have hten : (10 : ℚ) ^ d.exponent ≠ 0 := zpow_ne_zero _ (by norm_num)
    have hvalue : (d.mantissa : ℚ) * 10 ^ d.exponent =
        (d'.mantissa * 10 ^ k : ℚ) * 10 ^ d.exponent := by
      rw [mul_assoc, ← zpow_natCast, ← zpow_add₀ (by norm_num), add_comm (k : ℤ), hk]
      exact h
    exact_mod_cast mul_right_cancel₀ hten hvalue
  have hsame : k = 0 := by
    by_contra hpos
    obtain ⟨k, rfl⟩ := Nat.exists_eq_succ_of_ne_zero hpos
    have hzero : d.mantissa % 10 = 0 := by
      rw [hmantissa, pow_succ, ← mul_assoc]
      exact Int.mul_emod_left _ _
    obtain ⟨hm, he⟩ := d.normal.resolve_left (not_not_intro hzero)
    have hm' : d'.mantissa = 0 := by
      rw [hmantissa] at hm
      exact (mul_eq_zero.mp hm).resolve_right (pow_ne_zero _ (by norm_num))
    have he' : d'.exponent = 0 :=
      (d'.normal.resolve_left (not_not_intro (by rw [hm']; rfl))).2
    rw [he, he'] at hk
    omega
  subst hsame
  obtain ⟨m, e, hnormal⟩ := d
  obtain ⟨m', e', hnormal'⟩ := d'
  obtain rfl : e = e' := by simpa using hk
  obtain rfl : m = m' := by simpa using hmantissa
  rfl

theorem value_injective : Function.Injective value := by
  intro d d' h
  rcases le_total d.exponent d'.exponent with hle | hle
  · exact eq_of_value_eq_of_le h hle
  · exact (eq_of_value_eq_of_le h.symm hle).symm

theorem toText_injective : Function.Injective toText := fun d d' h =>
  value_injective (by rw [← readNumber_toText, h, readNumber_toText])

end Decimal
