import Conduit.Foundation.Ipv6
import Conduit.Utils.UrlValidator
import Mathlib.Data.List.TakeWhile
import Mathlib.Tactic.IntervalCases

namespace Conduit.Utils

open Ipv6

section Characters

variable {c : Char}

theorem isHexDigit_of_isHexChar (h : IsHexChar c) : isHexDigit c = true := by
  obtain ⟨d, rfl⟩ := h
  revert d
  decide

theorem hexDigitValue_digitChar {d : ℕ} (h : d < 16) : hexDigitValue (Nat.digitChar d) = d := by
  have hall : ∀ d : Fin 16, hexDigitValue (Nat.digitChar d) = d := by decide
  exact hall ⟨d, h⟩

-- what is true of the sixteen digits and of the colon
theorem plain {p : Char → Bool} (hdigit : ∀ d : Fin 16, p (Nat.digitChar d) = true)
    (hcolon : p ':' = true) {a : Address} (h : c ∈ serialized a) : p c = true := by
  rcases mem_serialized h with ⟨d, rfl⟩ | rfl
  · exact hdigit d
  · exact hcolon

theorem not_isSpace_of_mem {a : Address} (h : c ∈ serialized a) : Text.isSpace c = false := by
  have hplain := plain (p := fun c => !Text.isSpace c) (by decide) (by decide) h
  simpa using hplain

theorem lowerChar_of_mem {a : Address} (h : c ∈ serialized a) : Text.lowerChar c = [c] := by
  have hplain := plain (p := fun c => Text.lowerChar c = [c]) (by decide) (by decide) h
  simpa using hplain

theorem not_mem_serialized {a : Address} (hdigit : ∀ d : Fin 16, Nat.digitChar d ≠ c)
    (hcolon : ':' ≠ c) : c ∉ serialized a := by
  intro h
  rcases mem_serialized h with ⟨d, rfl⟩ | rfl
  · exact hdigit d rfl
  · exact hcolon rfl

end Characters

section Reading

variable {ps : List ℕ}

theorem isHexGroup_digits {piece : ℕ} (h : piece < 65536) : isHexGroup (digits piece) = true := by
  obtain ⟨hpos, hshort⟩ := length_digits piece
  have hall : ∀ c ∈ digits piece, isHexDigit c = true :=
    fun c hc => isHexDigit_of_isHexChar (isHexChar_of_mem_digits h hc)
  simp [isHexGroup, hpos, hshort, List.all_eq_true.mpr hall]

theorem hexValue_digits {piece : ℕ} (h : piece < 65536) : hexValue (digits piece) = piece := by
  unfold digits
  split
  next hlt => simp [hexValue, hexDigitValue_digitChar hlt]
  · split
    next hlt =>
      simp only [hexValue, List.foldl_cons, List.foldl_nil]
      rw [hexDigitValue_digitChar (by omega), hexDigitValue_digitChar (by omega)]
      omega
    · split
      next hlt =>
        simp only [hexValue, List.foldl_cons, List.foldl_nil]
        rw [hexDigitValue_digitChar (by omega), hexDigitValue_digitChar (by omega),
          hexDigitValue_digitChar (by omega)]
        omega
      next =>
        simp only [hexValue, List.foldl_cons, List.foldl_nil]
        rw [hexDigitValue_digitChar (by omega), hexDigitValue_digitChar (by omega),
          hexDigitValue_digitChar (by omega), hexDigitValue_digitChar (by omega)]
        omega

theorem splitChars_joined (h : ∀ p ∈ ps, p < 65536) (hne : ps ≠ []) :
    Text.splitChars ':' (joined ps) = ps.map digits := by
  induction ps with
  | nil => exact absurd rfl hne
  | cons piece rest ih =>
      have hcolon := colon_not_mem_digits (h piece (List.mem_cons_self ..))
      cases rest with
      | nil => exact Text.splitChars_of_not_mem hcolon
      | cons next rest =>
          rw [joined_cons, Text.splitChars_append hcolon,
            ih (fun p hp => h p (List.mem_cons_of_mem _ hp)) (by simp)]
          rfl

theorem countGroups_digits (h : ∀ p ∈ ps, p < 65536) :
    countGroups (ps.map digits) = some ps.length := by
  induction ps with
  | nil => rfl
  | cons piece rest ih =>
      have hgroup := isHexGroup_digits (h piece (List.mem_cons_self ..))
      cases rest with
      | nil => simp [countGroups, hgroup]
      | cons next rest =>
          have hrest := ih fun p hp => h p (List.mem_cons_of_mem _ hp)
          simp only [List.map_cons] at hrest ⊢
          rw [countGroups, if_pos hgroup, hrest]
          · rfl
          · simp

theorem groupsOf_joined (h : ∀ p ∈ ps, p < 65536) : groupsOf (joined ps) = some ps.length := by
  cases ps with
  | nil => rfl
  | cons piece rest =>
      rw [groupsOf, if_neg (joined_ne_nil (by simp)), splitChars_joined h (by simp),
        countGroups_digits h]

theorem hexGroupsOf_joined (h : ∀ p ∈ ps, p < 65536) : hexGroupsOf (joined ps) = some ps.length := by
  cases ps with
  | nil => rfl
  | cons piece rest =>
      have hall : ((piece :: rest).map digits).all isHexGroup = true := by
        refine List.all_eq_true.mpr fun group hgroup => ?_
        obtain ⟨p, hp, rfl⟩ := List.mem_map.mp hgroup
        exact isHexGroup_digits (h p hp)
      rw [hexGroupsOf, if_neg (joined_ne_nil (by simp)), splitChars_joined h (by simp)]
      dsimp only
      rw [if_pos hall, List.length_map]

theorem splitDoubleColon_append {word : List Char} (h : ':' ∉ word) (rest : List Char) :
    splitDoubleColon (word ++ rest) =
      (splitDoubleColon rest).map fun e => (word ++ e.1, e.2) := by
  induction word with
  | nil => simp
  | cons c word ih =>
      obtain ⟨hc, hword⟩ := not_or.mp (List.mem_cons.not.mp h)
      rw [List.cons_append, splitDoubleColon, if_neg fun hand => hc hand.1.symm, ih hword,
        Option.map_map]
      rfl

theorem head_joined {piece : ℕ} (h : piece < 65536) (rest : List ℕ) (tail : List Char) :
    (joined (piece :: rest) ++ tail).head? ≠ some ':' := by
  have hne := digits_ne_nil piece
  have hcolon := colon_not_mem_digits h
  obtain ⟨c, more, hdigits⟩ := List.exists_cons_of_ne_nil hne
  have hc : c ≠ ':' := by
    rintro rfl
    exact hcolon (by simp [hdigits])
  cases rest with
  | nil => simp [joined, hdigits, hc]
  | cons next rest => simp [joined_cons, hdigits, hc]

theorem splitDoubleColon_colon {rest : List Char} (h : rest.head? ≠ some ':') :
    splitDoubleColon (':' :: rest) = (splitDoubleColon rest).map fun e => (':' :: e.1, e.2) := by
  rw [splitDoubleColon, if_neg fun hand => h hand.2]

theorem splitDoubleColon_joined (h : ∀ p ∈ ps, p < 65536) : splitDoubleColon (joined ps) = none := by
  induction ps with
  | nil => rfl
  | cons piece rest ih =>
      have hcolon := colon_not_mem_digits (h piece (List.mem_cons_self ..))
      cases rest with
      | nil =>
          have happend := splitDoubleColon_append hcolon []
          rw [List.append_nil] at happend
          exact happend
      | cons next rest =>
          have hnext := head_joined (h next (by simp)) rest []
          rw [List.append_nil] at hnext
          rw [joined_cons, splitDoubleColon_append hcolon, splitDoubleColon_colon hnext,
            ih fun p hp => h p (List.mem_cons_of_mem _ hp)]
          rfl

theorem splitDoubleColon_joined_append (h : ∀ p ∈ ps, p < 65536) (back : List Char) :
    splitDoubleColon (joined ps ++ ':' :: ':' :: back) = some (joined ps, back) := by
  induction ps with
  | nil => rfl
  | cons piece rest ih =>
      have hcolon := colon_not_mem_digits (h piece (List.mem_cons_self ..))
      cases rest with
      | nil =>
          rw [joined, splitDoubleColon_append hcolon]
          simp [splitDoubleColon]
      | cons next rest =>
          have hnext := head_joined (h next (by simp)) rest (':' :: ':' :: back)
          rw [joined_cons, List.append_assoc, List.cons_append, splitDoubleColon_append hcolon,
            splitDoubleColon_colon hnext, ih fun p hp => h p (List.mem_cons_of_mem _ hp)]
          rfl

end Reading

section Acceptance

variable (a : Address)

theorem isIPv6_serialized : isIPv6 (serialized a) = true := by
  have hpieces : ∀ p ∈ pieces a, p < 65536 := fun p => lt_of_mem_pieces
  have hpercent : ∀ c ∈ serialized a, (decide (c ≠ '%')) = true := by
    intro c hc
    exact plain (p := fun c => decide (c ≠ '%')) (by decide) (by decide) hc
  have htake : (serialized a).takeWhile (· ≠ '%') = serialized a :=
    List.takeWhile_eq_self_iff.mpr hpercent
  have hdrop : (serialized a).dropWhile (· ≠ '%') = [] := List.dropWhile_eq_nil_iff.mpr hpercent
  rw [isIPv6, htake, hdrop]
  unfold serialized
  cases hrun : compression a with
  | none =>
      dsimp only
      rw [splitDoubleColon_joined hpieces, groupsOf_joined hpieces]
      rfl
  | some run =>
      obtain ⟨start, length⟩ := run
      obtain ⟨hlong, hend⟩ := longestRun_bounds hrun
      have hfront : ∀ p ∈ (pieces a).take start, p < 65536 :=
        fun p hp => hpieces p (List.mem_of_mem_take hp)
      have hback : ∀ p ∈ (pieces a).drop (start + length), p < 65536 :=
        fun p hp => hpieces p (List.mem_of_mem_drop hp)
      dsimp only
      rw [splitDoubleColon_joined_append hfront]
      dsimp only
      rw [hexGroupsOf_joined hfront, groupsOf_joined hback]
      rw [List.length_map] at hend
      have hsum : ((pieces a).take start).length + ((pieces a).drop (start + length)).length ≤ 7 := by
        have htotal : (pieces a).length = 8 := rfl
        rw [List.length_take, List.length_drop]
        omega
      exact Bool.and_eq_true_iff.mpr ⟨rfl, decide_eq_true hsum⟩

theorem isIPv4_serialized : isIPv4 (serialized a) = false := by
  rw [isIPv4, Text.splitChars_of_not_mem (not_mem_serialized (by decide) (by decide))]
  rfl

theorem isIP_text : isIP (text a) = 6 := by
  rw [isIP, text, String.toList_ofList, isIPv4_serialized, isIPv6_serialized]
  rfl

theorem toLowerCase_text : Text.toLowerCase (text a) = text a :=
  Text.toLowerCase_of_forall fun _ => lowerChar_of_mem

theorem normalizeHost_text : normalizeHost (text a) = text a := by
  have hopen : (serialized a).head? ≠ some '[' := fun h =>
    not_mem_serialized (by decide) (by decide) (List.mem_of_mem_head? h)
  have hclose : (serialized a).getLast? ≠ some ']' := fun h =>
    not_mem_serialized (by decide) (by decide) (List.mem_of_mem_getLast? h)
  rw [normalizeHost, text, String.toList_ofList]
  rw [if_neg hopen, if_neg hclose, Text.trim_of_forall fun _ => not_isSpace_of_mem,
    Text.toLowerCase_of_forall fun _ => lowerChar_of_mem]

theorem normalizeHost_bracketed :
    normalizeHost (Text.toLowerCase ("[" ++ text a ++ "]")) = text a := by
  have hlower : Text.toLowerCase ("[" ++ text a ++ "]") = "[" ++ text a ++ "]" := by
    have hbrackets : "[" ++ text a ++ "]" = String.ofList ('[' :: (serialized a ++ [']'])) := by
      apply String.toList_injective
      simp [text, String.toList_append]
    rw [hbrackets]
    refine Text.toLowerCase_of_forall fun c hc => ?_
    simp only [List.mem_cons, List.mem_append, List.not_mem_nil, or_false] at hc
    rcases hc with rfl | hc | rfl
    · rfl
    · exact lowerChar_of_mem hc
    · rfl
  rw [hlower, normalizeHost]
  have hchars : ("[" ++ text a ++ "]").toList = '[' :: (serialized a ++ [']']) := by
    simp [text, String.toList_append]
  rw [hchars]
  simp only [List.head?_cons, if_true, List.drop_succ_cons, List.drop_zero,
    List.getLast?_append, List.getLast?_singleton, Option.some_or, List.dropLast_concat]
  rw [Text.trim_of_forall fun _ => not_isSpace_of_mem,
    Text.toLowerCase_of_forall fun _ => lowerChar_of_mem]
  rfl

theorem getBlockedIpReason_of_isIP {ip : String} (h : isIP (normalizeHost ip) = 6) :
    getBlockedIpReason ip = getBlockedIpv6Reason (normalizeHost ip) := by
  unfold getBlockedIpReason
  simp only [h]

theorem getBlockedIpReason_text : getBlockedIpReason (text a) = getBlockedIpv6Reason (text a) := by
  have hnormal := normalizeHost_text a
  have hfamily : isIP (normalizeHost (text a)) = 6 := by rw [hnormal, isIP_text]
  rw [getBlockedIpReason_of_isIP hfamily, hnormal]

theorem not_blockedHostname : blockedHostnames.contains (text a) = false := by
  have hnot : ∀ name ∈ blockedHostnames, 'a' ∈ name.toList ∧ 't' ∈ name.toList ∨ 'l' ∈ name.toList := by
    decide
  refine Bool.eq_false_iff.mpr fun h => ?_
  have hmem := List.contains_iff_mem.mp h
  have hchars : (text a).toList = serialized a := String.toList_ofList
  rcases hnot _ hmem with ⟨-, ht⟩ | hl
  · exact not_mem_serialized (by decide) (by decide) (hchars ▸ ht)
  · exact not_mem_serialized (by decide) (by decide) (hchars ▸ hl)

theorem not_localhost_suffix : ¬ ".localhost".toList.isSuffixOf (text a).toList = true := by
  intro h
  have hsuffix := List.isSuffixOf_iff_suffix.mp h
  have hchars : (text a).toList = serialized a := String.toList_ofList
  rw [hchars] at hsuffix
  have hmem : '.' ∈ ".localhost".toList := by decide
  have hnot : '.' ∉ serialized a := not_mem_serialized (by decide) (by decide)
  exact hnot (hsuffix.subset hmem)

-- the URL constructor reads the bracketed address back as the host
def ReadsAddress (api : UrlApi) (a : Address) : Prop :=
  ∃ parsed, api.parse ("http://[" ++ text a ++ "]/") = some parsed ∧ parsed.protocol = "http:" ∧
    parsed.username = "" ∧ parsed.password = "" ∧ parsed.hostname = "[" ++ text a ++ "]"

theorem valid_validateServerUrl {api : UrlApi} (h : ReadsAddress api a) :
    (validateServerUrl api ("http://[" ++ text a ++ "]/") false).valid = true ↔
      getBlockedIpv6Reason (text a) = none := by
  obtain ⟨parsed, hparse, hprotocol, husername, hpassword, hhostname⟩ := h
  have hliteral : isIpLiteral (text a) = true := by
    rw [isIpLiteral, normalizeHost_text, isIP_text]
    rfl
  have hhost : ¬ (blockedHostnames.contains (text a) = true ∨
      ".localhost".toList.isSuffixOf (text a).toList = true) := by
    rw [not_blockedHostname]
    simpa using not_localhost_suffix a
  have hscheme : (!isHttpProtocol parsed.protocol) = false := by
    rw [hprotocol]
    rfl
  rw [validateServerUrl, hparse]
  dsimp only
  rw [if_neg (by simp [hscheme]), if_neg (by simp [husername, hpassword]), if_neg Bool.false_ne_true,
    hhostname, normalizeHost_bracketed, if_neg hhost, if_pos hliteral, getBlockedIpReason_text]
  cases getBlockedIpv6Reason (text a) with
  | none => simp
  | some reason => simp [refusedUrl]

end Acceptance

section Verdict

def deniedIpv4 (address : ℕ) : Bool :=
  (blockedIpv4Range (address / 2 ^ 24 % 256) (address / 2 ^ 16 % 256)).isSome

theorem octetValue?_toString {n : ℕ} (h : n < 256) : octetValue? (toString n).toList = some n := by
  have hall : ∀ n : Fin 256, octetValue? (toString n.val).toList = some n.val := by decide +kernel
  exact hall ⟨n, h⟩

theorem dot_not_mem_toString (n : ℕ) : '.' ∉ (toString n).toList := by
  intro h
  have hdigit := Text.isDigit_of_mem_toString h
  revert hdigit
  decide

theorem splitChars_quad (high low : ℕ) : Text.splitChars '.' (quad high low).toList =
    [(toString (high / 256 % 256)).toList, (toString (high % 256)).toList,
      (toString (low / 256 % 256)).toList, (toString (low % 256)).toList] := by
  have hdot : ".".toList = ['.'] := rfl
  simp only [quad, String.toList_append, hdot, List.append_assoc, List.cons_append, List.nil_append]
  rw [Text.splitChars_append (dot_not_mem_toString _),
    Text.splitChars_append (dot_not_mem_toString _),
    Text.splitChars_append (dot_not_mem_toString _),
    Text.splitChars_of_not_mem (dot_not_mem_toString _)]

theorem getBlockedIpv4Reason_quad {high low : ℕ} (hlow : low < 65536) :
    (getBlockedIpv4Reason (quad high low)).isSome = deniedIpv4 (high * 65536 + low) := by
  rw [getBlockedIpv4Reason, splitChars_quad]
  simp only [List.map_cons, List.map_nil]
  rw [octetValue?_toString (Nat.mod_lt _ (by decide)), octetValue?_toString (Nat.mod_lt _ (by decide)),
    octetValue?_toString (Nat.mod_lt _ (by decide)), octetValue?_toString (Nat.mod_lt _ (by decide))]
  have hfirst : (high * 65536 + low) / 2 ^ 24 % 256 = high / 256 % 256 := by omega
  have hsecond : (high * 65536 + low) / 2 ^ 16 % 256 = high % 256 := by omega
  rw [deniedIpv4, hfirst, hsecond, Option.isSome_map]

theorem hexPair?_digits {high low : ℕ} (hhigh : high < 65536) (hlow : low < 65536) :
    hexPair? (digits high ++ ':' :: digits low) = some (quad high low) := by
  rw [hexPair?, Text.splitChars_append (colon_not_mem_digits hhigh),
    Text.splitChars_of_not_mem (colon_not_mem_digits hlow)]
  dsimp only
  rw [if_pos ⟨isHexGroup_digits hhigh, isHexGroup_digits hlow⟩, hexValue_digits hhigh,
    hexValue_digits hlow]

theorem hexPair?_of_not_mem {word : List Char} (h : ':' ∉ word) : hexPair? word = none := by
  rw [hexPair?, Text.splitChars_of_not_mem h]

theorem dotted?_of_not_mem {word : List Char} (h : '.' ∉ word) : dotted? word = none := by
  rw [dotted?, Text.splitChars_of_not_mem h]
  rfl

theorem afterPrefix_of_head {c c' : Char} (h : c ≠ c') (lead rest : List Char) :
    Text.afterPrefix (c :: lead) (c' :: rest) = none := by
  refine Option.eq_none_iff_forall_ne_some.mpr fun tail htail => ?_
  exact h (List.cons.inj (Text.afterPrefix_eq_some.1 htail)).1.symm

-- the forms with a dotted quad do not come up in what the serializer writes
theorem extractMappedIpv4_eq {chars : List Char} (h : '.' ∉ chars) :
    extractMappedIpv4 (String.ofList chars) =
      ((Text.afterPrefix "::ffff:".toList chars).bind hexPair?).or
        ((Text.afterPrefix "::".toList chars).bind hexPair?) := by
  have hdotted : ∀ lead rest, Text.afterPrefix lead chars = some rest → dotted? rest = none := by
    intro lead rest hrest
    refine dotted?_of_not_mem fun hmem => h ?_
    rw [Text.afterPrefix_eq_some.1 hrest]
    exact List.mem_append_right _ hmem
  simp only [extractMappedIpv4, String.toList_ofList, List.map_cons, List.map_nil,
    List.filterMap_cons, List.filterMap_nil]
  cases hfirst : Text.afterPrefix "::ffff:".toList chars with
  | none =>
      cases hsecond : Text.afterPrefix "::".toList chars with
      | none => rfl
      | some rest => simp [hdotted _ _ hsecond]
  | some rest =>
      cases hsecond : Text.afterPrefix "::".toList chars with
      | none => simp [hdotted _ _ hfirst]
      | some rest' =>
          simp only [List.findSome?, hdotted _ _ hfirst, hdotted _ _ hsecond, Option.none_or,
            Option.bind_some]
          cases hexPair? rest with
          | none => cases hexPair? rest' <;> rfl
          | some pair => rfl

-- the verdict as the disjunction of the checks
theorem getBlockedIpv6Reason_eq_none_iff {ip : String} (h : Text.toLowerCase ip = ip) :
    getBlockedIpv6Reason ip = none ↔
      (ip ≠ "::" ∧ ip ≠ "0:0:0:0:0:0:0:0") ∧ (ip ≠ "::1" ∧ ip ≠ "0:0:0:0:0:0:0:1") ∧
      ((extractMappedIpv4 ip).bind getBlockedIpv4Reason = none ∧
        (extractSixToFourIpv4 ip).bind getBlockedIpv4Reason = none ∧
        blockedIpv6Range ip.toList = none) := by
  simp only [getBlockedIpv6Reason, h]
  split
  next hzero => simp; tauto
  next hzero =>
    split
    next hone => simp; tauto
    next hone =>
      simp only [Option.or_eq_none_iff, Option.bind_eq_none_iff, Option.map_eq_none_iff]
      tauto

variable {a : Address}

theorem reason_eq_none_iff : getBlockedIpv6Reason (text a) = none ↔
    (text a ≠ "::" ∧ text a ≠ "0:0:0:0:0:0:0:0") ∧ (text a ≠ "::1" ∧ text a ≠ "0:0:0:0:0:0:0:1") ∧
    ((extractMappedIpv4 (text a)).bind getBlockedIpv4Reason = none ∧
      (extractSixToFourIpv4 (text a)).bind getBlockedIpv4Reason = none ∧
      blockedIpv6Range (serialized a) = none) := by
  rw [getBlockedIpv6Reason_eq_none_iff (toLowerCase_text a), text, String.toList_ofList]

theorem dot_not_mem_serialized : '.' ∉ serialized a := not_mem_serialized (by decide) (by decide)

theorem toList_text : (text a).toList = serialized a := String.toList_ofList

theorem text_eq_iff {s : String} : text a = s ↔ serialized a = s.toList := by
  constructor
  · rintro rfl
    exact String.toList_ofList.symm
  · intro h
    rw [text, h, String.ofList_toList]

-- an address in which the first piece is not zero
section Leading

variable (p : ℕ) (ps : List ℕ)

theorem joined_cons_append : ∃ tail, joined (p :: ps) ++ [':'] = digits p ++ ':' :: tail := by
  cases ps with
  | nil => exact ⟨[], rfl⟩
  | cons next rest => exact ⟨joined (next :: rest) ++ [':'], by simp [joined_cons]⟩

end Leading

theorem serialized_of_leading {p : ℕ} {ps : List ℕ} (h : pieces a = p :: ps) (hp : p ≠ 0)
    (hps : ps ≠ []) : ∃ tail, serialized a = digits p ++ ':' :: tail := by
  have hzero : (p == 0) = false := by simpa using hp
  unfold serialized
  split
  next =>
    obtain ⟨next, rest, rfl⟩ := List.exists_cons_of_ne_nil hps
    rw [h]
    exact ⟨_, joined_cons p next rest⟩
  next start length hrun =>
    rw [compression, h, List.map_cons, hzero] at hrun
    obtain ⟨k, rfl⟩ := Nat.exists_eq_add_of_le' (longestRun_false_cons hrun)
    rw [h, List.take_succ_cons]
    obtain ⟨tail, htail⟩ := joined_cons_append p (ps.take k)
    refine ⟨tail ++ ':' :: joined ((p :: ps).drop (k + 1 + length)), ?_⟩
    rw [← List.cons_append, ← List.append_assoc, ← htail, List.append_assoc]
    rfl

theorem range_isSome {x y : ℕ} (h : x = 12 ∨ x = 13 ∨ x = 15 ∨ x = 14 ∧ 8 ≤ y ∧ y < 16)
    (rest : List Char) :
    (blockedIpv6Range ('f' :: Nat.digitChar x :: Nat.digitChar y :: rest)).isSome = true := by
  rcases h with rfl | rfl | rfl | ⟨rfl, hy, hy'⟩
  · rfl
  · rfl
  · rfl
  · interval_cases y <;> rfl

theorem range_of_leading {p : ℕ} {ps : List ℕ} (h : pieces a = p :: ps) (hps : ps ≠ [])
    (hp : p / 512 = 126 ∨ p / 64 = 1018 ∨ p / 64 = 1019 ∨ p / 256 = 255) :
    (blockedIpv6Range (serialized a)).isSome = true := by
  obtain ⟨tail, htail⟩ := serialized_of_leading h (by omega) hps
  have hfirst : p / 4096 = 15 := by omega
  have hdigits : digits p = 'f' :: Nat.digitChar (p / 256 % 16) :: Nat.digitChar (p / 16 % 16) ::
      [Nat.digitChar (p % 16)] := by
    unfold digits
    rw [if_neg (by omega), if_neg (by omega), if_neg (by omega), hfirst]
    rfl
  rw [htail, hdigits]
  exact range_isSome (by omega) _

theorem digits_2002 : digits 0x2002 = "2002".toList := by decide

theorem extractSixToFourIpv4_none {s : String} {rest : List Char}
    (hs : s.toList = "2002:".toList ++ rest)
    (h : (Text.splitChars ':' rest).head? = some [] ∨
      ∃ high more, Text.splitChars ':' rest = high :: [] :: more) :
    extractSixToFourIpv4 s = none := by
  rw [extractSixToFourIpv4, hs, Text.afterPrefix_append, Option.bind_some]
  rcases h with hhead | ⟨high, more, hparts⟩
  · split
    next high low more hparts =>
      rw [hparts] at hhead
      obtain rfl := Option.some.inj hhead
      rfl
    next => rfl
  · rw [hparts]
    simp [isHexGroup]

theorem extractSixToFourIpv4_some {s : String} {high low : ℕ} (hhigh : high < 65536)
    (hlow : low < 65536) {tail : List Char}
    (hs : s.toList = "2002:".toList ++ (digits high ++ ':' :: (digits low ++ ':' :: tail))) :
    extractSixToFourIpv4 s = some (quad high low) := by
  rw [extractSixToFourIpv4, hs, Text.afterPrefix_append, Option.bind_some,
    Text.splitChars_append (colon_not_mem_digits hhigh),
    Text.splitChars_append (colon_not_mem_digits hlow)]
  dsimp only
  rw [if_pos ⟨isHexGroup_digits hhigh, isHexGroup_digits hlow⟩, hexValue_digits hhigh,
    hexValue_digits hlow]

section SixToFour

variable {p₁ p₂ p₃ : ℕ} {ps : List ℕ} (h : pieces a = 0x2002 :: p₁ :: p₂ :: p₃ :: ps)
include h

theorem sixToFour_shown (hshown : ∀ start length, compression a = some (start, length) → 3 ≤ start) :
    ∃ tail, serialized a = "2002:".toList ++ (digits p₁ ++ ':' :: (digits p₂ ++ ':' :: tail)) := by
  unfold serialized
  split
  next =>
    rw [h]
    refine ⟨joined (p₃ :: ps), ?_⟩
    rw [joined_cons, joined_cons, joined_cons, digits_2002]
    rfl
  next start length hrun =>
    obtain ⟨k, rfl⟩ := Nat.exists_eq_add_of_le' (hshown start length hrun)
    obtain ⟨tail, htail⟩ := joined_cons_append p₂ ((p₃ :: ps).take k)
    have htake : (pieces a).take (k + 3) = 0x2002 :: p₁ :: p₂ :: (p₃ :: ps).take k := by
      rw [h]
      rfl
    refine ⟨tail ++ ':' :: joined ((pieces a).drop (k + 3 + length)), ?_⟩
    rw [htake, joined_cons, joined_cons, digits_2002]
    have hassoc : joined (p₂ :: (p₃ :: ps).take k) ++
          ':' :: ':' :: joined ((pieces a).drop (k + 3 + length))
        = digits p₂ ++ ':' :: (tail ++ ':' :: joined ((pieces a).drop (k + 3 + length))) := by
      rw [← List.cons_append, ← List.append_assoc, ← htail, List.append_assoc]
      rfl
    simp only [List.append_assoc, List.cons_append]
    rw [hassoc]
    rfl

theorem sixToFour_hidden {start length : ℕ} (hrun : compression a = some (start, length))
    (hstart : start ≤ 2) : extractSixToFourIpv4 (text a) = none := by
  have hpos : 1 ≤ start := by
    rw [compression, h] at hrun
    exact longestRun_false_cons hrun
  have hp₁ : p₁ < 65536 := lt_of_mem_pieces (a := a) (by simp [h])
  have hserialized := serialized_of_run hrun
  rw [h] at hserialized
  have hcases : start = 1 ∨ start = 2 := by omega
  rcases hcases with rfl | rfl
  · have hchars : (text a).toList = "2002:".toList ++
        ':' :: joined ((0x2002 :: p₁ :: p₂ :: p₃ :: ps).drop (1 + length)) := by
      rw [toList_text, hserialized, List.take_succ_cons, List.take_zero, joined, digits_2002]
      rfl
    refine extractSixToFourIpv4_none hchars (.inl ?_)
    rw [Text.splitChars_sep]
    rfl
  · have hchars : (text a).toList = "2002:".toList ++ (digits p₁ ++
        ':' :: ':' :: joined ((0x2002 :: p₁ :: p₂ :: p₃ :: ps).drop (2 + length))) := by
      rw [toList_text, hserialized, List.take_succ_cons, List.take_succ_cons, List.take_zero,
        joined_cons, joined, digits_2002]
      simp
    have hparts := Text.splitChars_append (colon_not_mem_digits hp₁)
      (':' :: joined ((0x2002 :: p₁ :: p₂ :: p₃ :: ps).drop (2 + length)))
    rw [Text.splitChars_sep] at hparts
    exact extractSixToFourIpv4_none hchars (.inr ⟨_, _, hparts⟩)

end SixToFour

theorem extractMappedIpv4_of_head {c : Char} {rest : List Char} (hc : ':' ≠ c)
    (h : serialized a = c :: rest) : extractMappedIpv4 (text a) = none := by
  have hdot := dot_not_mem_serialized (a := a)
  rw [text, extractMappedIpv4_eq hdot, h]
  have hlong : Text.afterPrefix "::ffff:".toList (c :: rest) = none := afterPrefix_of_head hc _ _
  have hshort : Text.afterPrefix "::".toList (c :: rest) = none := afterPrefix_of_head hc _ _
  rw [hlong, hshort]
  rfl

-- the address in the last two pieces, in the mapped form
theorem extractMappedIpv4_mapped {high low : ℕ} (hhigh : high < 65536) (hlow : low < 65536)
    (h : serialized a = "::ffff:".toList ++ (digits high ++ ':' :: digits low)) :
    extractMappedIpv4 (text a) = some (quad high low) := by
  have hdot := dot_not_mem_serialized (a := a)
  rw [text, extractMappedIpv4_eq hdot, h, Text.afterPrefix_append, Option.bind_some,
    hexPair?_digits hhigh hlow]
  rfl

theorem extractMappedIpv4_compatible {high low : ℕ} (hhigh : high < 65536) (hlow : low < 65536)
    (h : serialized a = "::".toList ++ (digits high ++ ':' :: digits low)) :
    extractMappedIpv4 (text a) = some (quad high low) := by
  have hdot := dot_not_mem_serialized (a := a)
  rw [text, extractMappedIpv4_eq hdot, h, Text.afterPrefix_append, Option.bind_some,
    hexPair?_digits hhigh hlow]
  cases hfirst : Text.afterPrefix "::ffff:".toList
      ("::".toList ++ (digits high ++ ':' :: digits low)) with
  | none => rfl
  | some rest =>
      -- what the longer form would leave is a single group
      have hwhole := Text.afterPrefix_eq_some.1 hfirst
      have heq : "::".toList ++ (digits high ++ ':' :: digits low) =
          "::".toList ++ ("ffff".toList ++ ':' :: rest) := hwhole
      have hparts := congrArg (Text.splitChars ':') (List.append_cancel_left heq)
      rw [Text.splitChars_append (colon_not_mem_digits hhigh),
        Text.splitChars_of_not_mem (colon_not_mem_digits hlow),
        Text.splitChars_append (by decide)] at hparts
      have hrest : Text.splitChars ':' rest = [digits low] := (List.cons.inj hparts).2.symm
      rw [Option.bind_some, hexPair?, hrest]
      rfl

theorem extractMappedIpv4_short {low : ℕ} (hlow : low < 65536)
    (h : serialized a = "::".toList ++ digits low) : extractMappedIpv4 (text a) = none := by
  have hdot := dot_not_mem_serialized (a := a)
  have hlong : Text.afterPrefix "::ffff:".toList ("::".toList ++ digits low) = none := by
    refine Option.eq_none_iff_forall_ne_some.mpr fun rest hrest => ?_
    have hwhole := Text.afterPrefix_eq_some.1 hrest
    have heq : "::".toList ++ digits low = "::".toList ++ ("ffff:".toList ++ rest) := hwhole
    refine colon_not_mem_digits hlow ?_
    rw [List.append_cancel_left heq]
    exact List.mem_append_left _ (by decide)
  rw [text, extractMappedIpv4_eq hdot, h, Text.afterPrefix_append, hlong, Option.bind_some,
    hexPair?_of_not_mem (colon_not_mem_digits hlow)]
  rfl

section Classes

theorem compression_eq {ps : List ℕ} (h : pieces a = ps) :
    compression a = longestRun (ps.map fun piece => piece == 0) := by
  rw [compression, h]

theorem serialized_zero (h : a.toNat = 0) : serialized a = "::".toList := by
  have hpieces : pieces a = [0, 0, 0, 0, 0, 0, 0, 0] := by simp [pieces, h]
  exact serialized_of_pieces hpieces 0 8 rfl

theorem serialized_short (hpos : a.toNat ≠ 0) (h : a.toNat < 65536) :
    serialized a = "::".toList ++ digits a.toNat := by
  have hpieces : pieces a = [0, 0, 0, 0, 0, 0, 0, a.toNat] := by
    simp only [pieces, List.cons.injEq, and_true]
    omega
  have hzero : (a.toNat == 0) = false := by simpa using hpos
  refine serialized_of_pieces hpieces 0 7 ?_
  simp only [List.map_cons, List.map_nil, hzero]
  rfl

theorem serialized_compatible (hlow : 65536 ≤ a.toNat) (h : a.toNat < 2 ^ 32) :
    serialized a =
      "::".toList ++ (digits (a.toNat / 65536) ++ ':' :: digits (a.toNat % 65536)) := by
  have hpieces : pieces a = [0, 0, 0, 0, 0, 0, a.toNat / 65536, a.toNat % 65536] := by
    simp only [pieces, List.cons.injEq, and_true]
    omega
  have hhigh : (a.toNat / 65536 == 0) = false := beq_false_of_ne (by omega)
  refine serialized_of_pieces hpieces 0 6 ?_
  cases hzero : a.toNat % 65536 == 0 <;>
    simp only [List.map_cons, List.map_nil, hhigh, hzero] <;> rfl

theorem serialized_mapped (h : a.toNat / 2 ^ 32 = 0xffff) :
    serialized a = "::ffff:".toList ++
      (digits (a.toNat / 65536 % 65536) ++ ':' :: digits (a.toNat % 65536)) := by
  have hpieces : pieces a =
      [0, 0, 0, 0, 0, 0xffff, a.toNat / 65536 % 65536, a.toNat % 65536] := by
    simp only [pieces, List.cons.injEq, and_true]
    omega
  have hrun : longestRun ([0, 0, 0, 0, 0, 0xffff, a.toNat / 65536 % 65536, a.toNat % 65536].map
      fun piece => piece == 0) = some (0, 5) := by
    cases hhigh : a.toNat / 65536 % 65536 == 0 <;> cases hlow : a.toNat % 65536 == 0 <;>
      simp only [List.map_cons, List.map_nil, hhigh, hlow] <;> rfl
  have hffff : digits 0xffff = "ffff".toList := by decide
  rw [serialized_of_pieces hpieces 0 5 hrun]
  change ':' :: ':' :: (digits 0xffff ++ ':' :: _) = _
  rw [hffff]
  rfl

theorem pieces_sixToFour (h : a.toNat / 2 ^ 112 = 0x2002) : ∃ p₃ ps, pieces a =
    0x2002 :: (a.toNat / 2 ^ 96 % 65536) :: (a.toNat / 2 ^ 80 % 65536) :: p₃ :: ps := by
  exact ⟨_, _, by rw [pieces, h]⟩

end Classes

end Verdict

end Conduit.Utils
