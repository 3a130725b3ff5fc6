import Conduit.Utils.Ipv6Guard

namespace Conduit.Utils

open Ipv6

def embeddedIpv4 (a : Address) : ℕ := a.toNat % 2 ^ 32

-- bytes 2 to 5
def wrappedIpv4 (a : Address) : ℕ := a.toNat / 2 ^ 80 % 2 ^ 32

inductive Denied (a : Address) : Prop where
  | unspecified (h : a.toNat = 0)
  | loopback (h : a.toNat = 1)
  | mapped (h : InBlock a (0xffff * 2 ^ 32) 96) (hdenied : deniedIpv4 (embeddedIpv4 a) = true)
  | compatible (h : InBlock a 0 96) (hdenied : deniedIpv4 (embeddedIpv4 a) = true)
  | sixToFour (h : InBlock a (0x2002 * 2 ^ 112) 16) (hdenied : deniedIpv4 (wrappedIpv4 a) = true)
  | uniqueLocal (h : InBlock a (0xfc00 * 2 ^ 112) 7)
  | linkLocal (h : InBlock a (0xfe80 * 2 ^ 112) 10)
  | siteLocal (h : InBlock a (0xfec0 * 2 ^ 112) 10)
  | multicast (h : InBlock a (0xff00 * 2 ^ 112) 8)

-- written as two colons and one group, or with the second half of the wrapped address left out
inductive Overlooked (a : Address) : Prop where
  | short (hlow : 2 ≤ a.toNat) (hhigh : a.toNat < 2 ^ 16)
  | compressed (h : InBlock a (0x2002 * 2 ^ 112) 16) (hdenied : deniedIpv4 (wrappedIpv4 a) = true)
      {start length : ℕ} (hrun : compression a = some (start, length)) (hstart : start ≤ 2)
      (hend : 2 < start + length)

variable {a : Address}

theorem reason_of_mapped {high low : ℕ} (hlow : low < 65536)
    (h : extractMappedIpv4 (text a) = some (quad high low))
    (hdenied : deniedIpv4 (high * 65536 + low) = true) : getBlockedIpv6Reason (text a) ≠ none := by
  intro hnone
  have hmapped := (reason_eq_none_iff.1 hnone).2.2.1
  rw [h, Option.bind_some] at hmapped
  rw [← getBlockedIpv4Reason_quad hlow, hmapped] at hdenied
  cases hdenied

theorem reason_of_sixToFour {high low : ℕ} (hlow : low < 65536)
    (h : extractSixToFourIpv4 (text a) = some (quad high low))
    (hdenied : deniedIpv4 (high * 65536 + low) = true) : getBlockedIpv6Reason (text a) ≠ none := by
  intro hnone
  have hwrapped := (reason_eq_none_iff.1 hnone).2.2.2.1
  rw [h, Option.bind_some] at hwrapped
  rw [← getBlockedIpv4Reason_quad hlow, hwrapped] at hdenied
  cases hdenied

theorem reason_of_range (h : (blockedIpv6Range (serialized a)).isSome = true) :
    getBlockedIpv6Reason (text a) ≠ none := by
  intro hnone
  rw [(reason_eq_none_iff.1 hnone).2.2.2.2] at h
  cases h

theorem reason_of_leading (h : a.toNat / 2 ^ 112 / 512 = 126 ∨ a.toNat / 2 ^ 112 / 64 = 1018 ∨
    a.toNat / 2 ^ 112 / 64 = 1019 ∨ a.toNat / 2 ^ 112 / 256 = 255) :
    getBlockedIpv6Reason (text a) ≠ none :=
  reason_of_range (range_of_leading rfl (by simp) h)

theorem reason_of_compatible (h : a.toNat < 2 ^ 32) (hdenied : deniedIpv4 (embeddedIpv4 a) = true)
    (hnot : ¬ Overlooked a) : getBlockedIpv6Reason (text a) ≠ none := by
  intro hnone
  obtain ⟨⟨hzero, -⟩, ⟨hone, -⟩, -⟩ := reason_eq_none_iff.1 hnone
  by_cases hshort : a.toNat < 65536
  · have hcases : a.toNat = 0 ∨ a.toNat = 1 := by
      by_contra hlarge
      exact hnot (.short (by omega) (by omega))
    rcases hcases with heq | heq
    · exact hzero (text_eq_iff.2 (serialized_zero heq))
    · have hserialized := serialized_short (by omega) hshort
      rw [heq] at hserialized
      exact hone (text_eq_iff.2 hserialized)
  · have hmapped := extractMappedIpv4_compatible (by omega) (by omega)
      (serialized_compatible (by omega) h)
    refine reason_of_mapped (by omega) hmapped ?_ hnone
    have hwhole : a.toNat / 65536 * 65536 + a.toNat % 65536 = embeddedIpv4 a := by
      rw [embeddedIpv4]
      omega
    rw [hwhole, hdenied]

theorem reason_of_wrapped (h : a.toNat / 2 ^ 112 = 0x2002)
    (hdenied : deniedIpv4 (wrappedIpv4 a) = true) (hnot : ¬ Overlooked a) :
    getBlockedIpv6Reason (text a) ≠ none := by
  obtain ⟨p₃, ps, hpieces⟩ := pieces_sixToFour h
  have hshown : ∀ start length, compression a = some (start, length) → 3 ≤ start := by
    intro start length hrun
    by_contra hstart
    have hpos : 1 ≤ start := by
      have hfirst := hrun
      rw [compression_eq hpieces] at hfirst
      exact longestRun_false_cons hfirst
    have hlong := (longestRun_bounds hrun).1
    refine hnot (.compressed ?_ hdenied hrun (by omega) (by omega))
    rw [InBlock]
    norm_num
    omega
  obtain ⟨tail, htail⟩ := sixToFour_shown hpieces hshown
  have hextract := extractSixToFourIpv4_some (by omega) (by omega) (toList_text.trans htail)
  refine reason_of_sixToFour (by omega) hextract ?_
  have hwhole : a.toNat / 2 ^ 96 % 65536 * 65536 + a.toNat / 2 ^ 80 % 65536 = wrappedIpv4 a := by
    rw [wrappedIpv4]
    omega
  rw [hwhole, hdenied]

theorem reason_of_denied (h : Denied a) (hnot : ¬ Overlooked a) :
    getBlockedIpv6Reason (text a) ≠ none := by
  have hlt := a.isLt
  cases h with
  | unspecified h =>
      intro hnone
      exact (reason_eq_none_iff.1 hnone).1.1 (text_eq_iff.2 (serialized_zero h))
  | loopback h =>
      intro hnone
      have hserialized := serialized_short (a := a) (by omega) (by omega)
      rw [h] at hserialized
      exact (reason_eq_none_iff.1 hnone).2.1.1 (text_eq_iff.2 hserialized)
  | mapped h hdenied =>
      have hblock : a.toNat / 2 ^ 32 = 0xffff := by
        rw [InBlock] at h
        norm_num at h
        omega
      have hmapped := extractMappedIpv4_mapped (by omega) (by omega) (serialized_mapped hblock)
      refine reason_of_mapped (by omega) hmapped ?_
      have hwhole : a.toNat / 65536 % 65536 * 65536 + a.toNat % 65536 = embeddedIpv4 a := by
        rw [embeddedIpv4]
        omega
      rw [hwhole, hdenied]
  | compatible h hdenied =>
      refine reason_of_compatible ?_ hdenied hnot
      rw [InBlock] at h
      norm_num at h
      omega
  | sixToFour h hdenied =>
      refine reason_of_wrapped ?_ hdenied hnot
      rw [InBlock] at h
      norm_num at h
      omega
  | uniqueLocal h =>
      refine reason_of_leading (.inl ?_)
      rw [InBlock] at h
      norm_num at h
      omega
  | linkLocal h =>
      refine reason_of_leading (.inr (.inl ?_))
      rw [InBlock] at h
      norm_num at h
      omega
  | siteLocal h =>
      refine reason_of_leading (.inr (.inr (.inl ?_)))
      rw [InBlock] at h
      norm_num at h
      omega
  | multicast h =>
      refine reason_of_leading (.inr (.inr (.inr ?_)))
      rw [InBlock] at h
      norm_num at h
      omega

theorem blockedIpv6Range_of_head {c : Char} {rest : List Char} (hc : c ≠ 'f') :
    blockedIpv6Range (c :: rest) = none := by
  unfold blockedIpv6Range
  split
  next heq => exact absurd (List.cons.inj heq).1 hc
  next => rfl

theorem text_ne_of_head {c c' : Char} {rest rest' : List Char} (h : serialized a = c :: rest)
    {s : String} (hs : s.toList = c' :: rest') (hne : c' ≠ c) : text a ≠ s := by
  intro heq
  have hchars := text_eq_iff.1 heq
  rw [h, hs] at hchars
  exact hne (List.cons.inj hchars).1.symm

theorem denied_of_overlooked (h : Overlooked a) : Denied a := by
  cases h with
  | short hlow hhigh =>
      refine .compatible ?_ ?_
      · rw [InBlock]
        norm_num
        omega
      · have hfirst : embeddedIpv4 a / 2 ^ 24 % 256 = 0 := by
          rw [embeddedIpv4]
          omega
        rw [deniedIpv4, hfirst]
        rfl
  | compressed h hdenied hrun hstart hend => exact .sixToFour h hdenied

theorem reason_of_short (hlow : 2 ≤ a.toNat) (hhigh : a.toNat < 65536) :
    getBlockedIpv6Reason (text a) = none := by
  have hserialized := serialized_short (by omega) hhigh
  have hcolon : serialized a = ':' :: ':' :: digits a.toNat := hserialized
  have hmapped := extractMappedIpv4_short hhigh hserialized
  have hwrapped : extractSixToFourIpv4 (text a) = none := by
    rw [extractSixToFourIpv4, toList_text, hcolon]
    have hnone : Text.afterPrefix "2002:".toList (':' :: ':' :: digits a.toNat) = none :=
      afterPrefix_of_head (by decide) _ _
    rw [hnone]
    rfl
  have hrange : blockedIpv6Range (serialized a) = none := by
    rw [hcolon]
    exact blockedIpv6Range_of_head (by decide)
  refine reason_eq_none_iff.2 ⟨⟨?_, text_ne_of_head hcolon rfl (by decide)⟩,
    ⟨?_, text_ne_of_head hcolon rfl (by decide)⟩, ?_, ?_, hrange⟩
  · intro heq
    have hchars : ':' :: ':' :: digits a.toNat = [':', ':'] :=
      hcolon.symm.trans (text_eq_iff.1 heq)
    exact digits_ne_nil _ (List.cons.inj (List.cons.inj hchars).2).2
  · intro heq
    have hchars : ':' :: ':' :: digits a.toNat = [':', ':', '1'] :=
      hcolon.symm.trans (text_eq_iff.1 heq)
    have hvalue := hexValue_digits hhigh
    have hone : hexValue ['1'] = 1 := rfl
    rw [(List.cons.inj (List.cons.inj hchars).2).2, hone] at hvalue
    omega
  · rw [hmapped]
    rfl
  · rw [hwrapped]
    rfl

theorem reason_of_compressed (h : a.toNat / 2 ^ 112 = 0x2002) {start length : ℕ}
    (hrun : compression a = some (start, length)) (hstart : start ≤ 2) :
    getBlockedIpv6Reason (text a) = none := by
  obtain ⟨p₃, ps, hpieces⟩ := pieces_sixToFour h
  obtain ⟨tail, htail⟩ := serialized_of_leading hpieces (by decide) (by simp)
  have hfirst : serialized a = '2' :: ("002:".toList ++ tail) := by
    rw [htail, digits_2002]
    rfl
  have hmapped := extractMappedIpv4_of_head (by decide) hfirst
  have hwrapped := sixToFour_hidden hpieces hrun hstart
  have hrange : blockedIpv6Range (serialized a) = none := by
    rw [hfirst]
    exact blockedIpv6Range_of_head (by decide)
  refine reason_eq_none_iff.2
    ⟨⟨text_ne_of_head hfirst rfl (by decide), text_ne_of_head hfirst rfl (by decide)⟩,
      ⟨text_ne_of_head hfirst rfl (by decide), text_ne_of_head hfirst rfl (by decide)⟩, ?_, ?_,
      hrange⟩
  · rw [hmapped]
    rfl
  · rw [hwrapped]
    rfl

theorem reason_of_overlooked (h : Overlooked a) : getBlockedIpv6Reason (text a) = none := by
  have hlt := a.isLt
  cases h with
  | short hlow hhigh => exact reason_of_short hlow hhigh
  | compressed h hdenied hrun hstart hend =>
      refine reason_of_compressed ?_ hrun hstart
      rw [InBlock] at h
      norm_num at h
      omega

theorem denied_rejected_iff {api : UrlApi} (h : ReadsAddress api a) :
    (Denied a →
        (validateServerUrl api ("http://[" ++ text a ++ "]/") false).valid = false) ↔
      ¬ Overlooked a := by
  have hvalid := valid_validateServerUrl a h
  constructor
  · intro hrejects hoverlooked
    have hfalse := hrejects (denied_of_overlooked hoverlooked)
    rw [hvalid.mpr (reason_of_overlooked hoverlooked)] at hfalse
    cases hfalse
  · intro hnot hdenied
    refine Bool.eq_false_iff.mpr fun htrue => ?_
    exact reason_of_denied hdenied hnot (hvalid.mp htrue)

section Example

def literalUrl (a : Address) : Url where
  href := "http://[" ++ text a ++ "]/"
  protocol := "http:"
  hostname := "[" ++ text a ++ "]"
  pathname := "/"

-- as far as the URL of one address goes
def literalApi (a : Address) : UrlApi where
  parse text := if text = (literalUrl a).href then some (literalUrl a) else none
  parseRelative _ _ := none
  parse_href := by
    intro text url h
    split at h
    next =>
      obtain rfl := Option.some.inj h
      exact if_pos rfl
    next => cases h
  parseRelative_href := by
    intro text base url h
    cases h

theorem readsAddress_literalApi (a : Address) : ReadsAddress (literalApi a) a :=
  ⟨literalUrl a, if_pos rfl, rfl, rfl, rfl, rfl⟩

theorem denied_rejected_mapped :
    (Denied 0xffff7f000001#128 → (validateServerUrl (literalApi 0xffff7f000001#128)
        ("http://[" ++ text 0xffff7f000001#128 ++ "]/") false).valid = false) ↔
      ¬ Overlooked 0xffff7f000001#128 :=
  denied_rejected_iff (readsAddress_literalApi _)

-- `::2` and `2002:7f00::1`
theorem overlooked_addresses :
    (Denied 0x2#128 ∧ text 0x2#128 = "::2" ∧
      (validateServerUrl (literalApi 0x2#128) "http://[::2]/" false).valid = true) ∧
    (Denied 0x20027f00000000000000000000000001#128 ∧
      text 0x20027f00000000000000000000000001#128 = "2002:7f00::1" ∧
      (validateServerUrl (literalApi 0x20027f00000000000000000000000001#128)
        "http://[2002:7f00::1]/" false).valid = true) := by
  refine ⟨⟨.compatible (by decide) (by decide), by decide, by decide +kernel⟩,
    .sixToFour (by decide) (by decide), by decide, by decide +kernel⟩

end Example

end Conduit.Utils
