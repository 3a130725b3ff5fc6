import Conduit.Utils.Ipv6Guard

namespace Conduit.Utils

open Ipv6

-- lower case ASCII without the code points that a host may not hold
def isDomainChar (c : Char) : Bool :=
  33 ≤ c.toNat && c.toNat ≤ 126 && !c.isUpper && !("#/:<>?@[\\]^|%".toList.contains c)

-- a host that the URL parser does not read as an address: its last label is no number
structure DomainName where
  text : String
  plain : ∀ c ∈ text.toList, isDomainChar c = true
  named : ∀ label ∈ (Text.splitChars '.' text.toList).getLast?,
    ¬ (label ≠ [] ∧ label.all Char.isDigit = true)

inductive UrlHost where
  | ipv4 (address : BitVec 32)
  | ipv6 (address : Address)
  | name (domain : DomainName)

-- the host as the URL parser writes it
def UrlHost.text : UrlHost → String
  | ipv4 address => quad (address.toNat / 65536) (address.toNat % 65536)
  | ipv6 address => "[" ++ Ipv6.text address ++ "]"
  | name domain => domain.text

section Plain

theorem plain_of_isDomainChar {c : Char} (h : isDomainChar c = true) :
    Text.isSpace c = false ∧ Text.lowerChar c = [c] ∧ c ≠ '[' ∧ c ≠ ']' ∧ c ≠ ':' ∧ c ≠ '%' := by
  have hall : ∀ n : Fin 127, isDomainChar (Char.ofNat n.val) = true →
      Text.isSpace (Char.ofNat n.val) = false ∧
        Text.lowerChar (Char.ofNat n.val) = [Char.ofNat n.val] ∧ Char.ofNat n.val ≠ '[' ∧
          Char.ofNat n.val ≠ ']' ∧ Char.ofNat n.val ≠ ':' ∧ Char.ofNat n.val ≠ '%' := by
    decide +kernel
  have hlt : c.toNat < 127 := by
    simp only [isDomainChar, Bool.and_eq_true, decide_eq_true_eq] at h
    omega
  have hc := hall ⟨c.toNat, hlt⟩
  rw [Char.ofNat_toNat] at hc
  exact hc h

theorem normalizeHost_of_plain {host : String} (h : ∀ c ∈ host.toList, isDomainChar c = true) :
    Text.toLowerCase host = host ∧ Text.trim host = host ∧ normalizeHost host = host := by
  obtain ⟨chars, rfl⟩ : ∃ chars, host = String.ofList chars := ⟨host.toList, by simp⟩
  rw [String.toList_ofList] at h
  have hopen : chars.head? ≠ some '[' := fun hhead =>
    (plain_of_isDomainChar (h _ (List.mem_of_mem_head? hhead))).2.2.1 rfl
  have hclose : chars.getLast? ≠ some ']' := fun hlast =>
    (plain_of_isDomainChar (h _ (List.mem_of_mem_getLast? hlast))).2.2.2.1 rfl
  have htrim := Text.trim_of_forall fun c hc => (plain_of_isDomainChar (h c hc)).1
  have hlower := Text.toLowerCase_of_forall fun c hc => (plain_of_isDomainChar (h c hc)).2.1
  refine ⟨hlower, htrim, ?_⟩
  rw [normalizeHost, String.toList_ofList, if_neg hopen, if_neg hclose, htrim, hlower]

theorem isIPv6_of_plain {chars : List Char} (h : ∀ c ∈ chars, isDomainChar c = true) :
    isIPv6 chars = false := by
  have haddress : chars.takeWhile (· ≠ '%') = chars := by
    refine List.takeWhile_eq_self_iff.mpr fun c hc => ?_
    simpa using (plain_of_isDomainChar (h c hc)).2.2.2.2.2
  have hcolon : ':' ∉ chars := fun hmem => (plain_of_isDomainChar (h _ hmem)).2.2.2.2.1 rfl
  have hdouble : splitDoubleColon chars = none := by
    clear haddress h
    induction chars with
    | nil => rfl
    | cons c rest ih =>
        obtain ⟨hc, hrest⟩ := not_or.mp (List.mem_cons.not.mp hcolon)
        rw [splitDoubleColon, if_neg (fun hcolons => hc hcolons.1.symm), ih hrest]
        rfl
  have hgroups : groupsOf chars ≠ some 8 := by
    unfold groupsOf
    split
    · simp
    · rw [Text.splitChars_of_not_mem hcolon]
      unfold countGroups
      split
      · simp
      · split <;> simp
  unfold isIPv6
  dsimp only
  rw [haddress, hdouble]
  simp [hgroups]

end Plain

section Quads

variable (high low : ℕ)

theorem isDomainChar_of_isDigit {c : Char} (h : c.isDigit = true) : isDomainChar c = true := by
  have hall : ∀ n : Fin 58, (Char.ofNat n.val).isDigit = true →
      isDomainChar (Char.ofNat n.val) = true := by decide +kernel
  have hlt : c.toNat < 58 := by
    have hnine : '9'.toNat = 57 := rfl
    have hrange := Char.isDigit_iff_toNat.mp h
    omega
  have hc := hall ⟨c.toNat, hlt⟩
  rw [Char.ofNat_toNat] at hc
  exact hc h

theorem mem_quad {high low : ℕ} {c : Char} (h : c ∈ (quad high low).toList) : c.isDigit = true ∨ c = '.' := by
  have hdot : ".".toList = ['.'] := rfl
  simp only [quad, String.toList_append, hdot, List.mem_append, List.mem_singleton] at h
  rcases h with (((((h | h) | h) | h) | h) | h) | h
  all_goals first | exact .inl (Text.isDigit_of_mem_toString h) | exact .inr h

theorem plain_quad : ∀ c ∈ (quad high low).toList, isDomainChar c = true := by
  intro c hc
  rcases mem_quad hc with hdigit | rfl
  · exact isDomainChar_of_isDigit hdigit
  · rfl

theorem isOctet_toString {n : ℕ} (h : n < 256) : isOctet (toString n).toList = true := by
  have hall : ∀ n : Fin 256, isOctet (toString n.val).toList = true := by decide +kernel
  exact hall ⟨n, h⟩

theorem isIP_quad : isIP (quad high low) = 4 := by
  have hquad : isIPv4 (quad high low).toList = true := by
    unfold isIPv4
    rw [splitChars_quad]
    have hoctet (n : ℕ) : isOctet (toString (n % 256)).toList = true :=
      isOctet_toString (Nat.mod_lt n (by decide))
    simp only [List.length_cons, List.length_nil, List.all_cons, List.all_nil, hoctet]
    rfl
  rw [isIP, if_pos hquad]

theorem getBlockedIpReason_quad :
    getBlockedIpReason (quad high low) = getBlockedIpv4Reason (quad high low) := by
  have hnormal := (normalizeHost_of_plain (plain_quad high low)).2.2
  unfold getBlockedIpReason
  simp only [hnormal, isIP_quad]

-- a letter that stands in a name stands in no address
theorem ne_quad_of_letter {high low : ℕ} {name : String} {c : Char} (hc : c ∈ name.toList)
    (hletter : c.isDigit = false ∧ c ≠ '.') : quad high low ≠ name := by
  rintro rfl
  rcases mem_quad hc with hdigit | hdot
  · rw [hletter.1] at hdigit
    cases hdigit
  · exact hletter.2 hdot

theorem not_suffix_quad {high low : ℕ} {tail : String} {c : Char} (hc : c ∈ tail.toList)
    (hletter : c.isDigit = false ∧ c ≠ '.') :
    tail.toList.isSuffixOf (quad high low).toList = false := by
  refine Bool.eq_false_iff.mpr fun h => ?_
  rcases mem_quad ((List.isSuffixOf_iff_suffix.mp h).subset hc) with hdigit | hdot
  · rw [hletter.1] at hdigit
    cases hdigit
  · exact hletter.2 hdot

theorem not_blocked_quad : blockedHostnames.contains (quad high low) = false := by
  have hletters : ∀ name ∈ blockedHostnames, 't' ∈ name.toList ∨ 'l' ∈ name.toList := by decide
  refine Bool.eq_false_iff.mpr fun h => ?_
  rcases hletters _ (List.contains_iff_mem.mp h) with ht | hl
  · exact ne_quad_of_letter ht ⟨rfl, by decide⟩ rfl
  · exact ne_quad_of_letter hl ⟨rfl, by decide⟩ rfl

end Quads

section Names

variable (domain : DomainName)

theorem isIP_name : isIP domain.text = 0 := by
  have hfour : ¬ isIPv4 domain.text.toList = true := by
    intro h
    simp only [isIPv4, Bool.and_eq_true, decide_eq_true_eq, List.all_eq_true] at h
    have hne := Text.splitChars_ne_nil '.' domain.text.toList
    have hlast := h.2 _ (List.getLast_mem hne)
    refine domain.named _ (List.getLast?_eq_some_getLast hne) ?_
    simp only [isOctet, Bool.and_eq_true, decide_eq_true_eq] at hlast
    exact ⟨hlast.1.1.1, hlast.1.1.2⟩
  rw [isIP, if_neg hfour, isIPv6_of_plain domain.plain]
  rfl

end Names

section Guard

variable {api : UrlApi} {url : String} {parsed : Url}

-- what the guard denies among the hosts
def UrlHost.Guarded : UrlHost → Prop
  | ipv4 address => deniedIpv4 address.toNat = true
  | ipv6 address => getBlockedIpv6Reason (Ipv6.text address) ≠ none
  | name domain =>
      domain.text ∈ blockedHostnames ∨ ".localhost".toList.isSuffixOf domain.text.toList = true

theorem valid_of_https (hparse : api.parse url = some parsed)
    (hprotocol : isHttpProtocol parsed.protocol = true) {host : String}
    (hhost : normalizeHost (Text.toLowerCase parsed.hostname) = host) :
    (validateServerUrl api url false).valid = true ↔
      (parsed.username = "" ∧ parsed.password = "") ∧
        ¬ (host ∈ blockedHostnames ∨ ".localhost".toList.isSuffixOf host.toList = true) ∧
          (isIpLiteral host = true → getBlockedIpReason host = none) := by
  unfold validateServerUrl
  rw [hparse]
  dsimp only
  rw [hprotocol, hhost, Bool.not_true, if_neg Bool.false_ne_true]
  by_cases hcredentials : parsed.username = "" ∧ parsed.password = ""
  · rw [if_neg (by simp [hcredentials]), if_neg Bool.false_ne_true]
    by_cases hblocked : host ∈ blockedHostnames ∨ ".localhost".toList.isSuffixOf host.toList = true
    · rw [if_pos (hblocked.imp_left List.contains_iff_mem.mpr)]
      exact iff_of_false Bool.false_ne_true fun h => h.2.1 hblocked
    · rw [if_neg fun h => hblocked (h.imp_left List.contains_iff_mem.mp)]
      cases hliteral : isIpLiteral host with
      | false =>
          rw [if_neg Bool.false_ne_true]
          exact iff_of_true rfl ⟨hcredentials, hblocked, fun h => absurd h Bool.false_ne_true⟩
      | true =>
          rw [if_pos rfl]
          cases hreason : getBlockedIpReason host with
          | none => exact iff_of_true rfl ⟨hcredentials, hblocked, fun _ => rfl⟩
          | some reason =>
              refine iff_of_false Bool.false_ne_true fun h => ?_
              cases h.2.2 rfl
  · rw [if_pos (not_and_or.mp hcredentials)]
    exact iff_of_false Bool.false_ne_true fun h => hcredentials h.1

theorem valid_iff_not_guarded (hparse : api.parse url = some parsed)
    (hprotocol : isHttpProtocol parsed.protocol = true) {host : UrlHost}
    (hhost : parsed.hostname = host.text) :
    (validateServerUrl api url false).valid = true ↔
      (parsed.username = "" ∧ parsed.password = "") ∧ ¬ host.Guarded := by
  cases host with
  | ipv4 address =>
      obtain ⟨hlower, -, hnormal⟩ := normalizeHost_of_plain
        (plain_quad (address.toNat / 65536) (address.toNat % 65536))
      have hread : normalizeHost (Text.toLowerCase parsed.hostname) =
          quad (address.toNat / 65536) (address.toNat % 65536) := by
        rw [hhost, UrlHost.text, hlower, hnormal]
      have hname : ¬ (quad (address.toNat / 65536) (address.toNat % 65536) ∈ blockedHostnames ∨
          ".localhost".toList.isSuffixOf
            (quad (address.toNat / 65536) (address.toNat % 65536)).toList = true) := by
        rintro (hmem | hsuffix)
        · exact Bool.eq_false_iff.mp (not_blocked_quad _ _) (List.contains_iff_mem.mpr hmem)
        · exact Bool.eq_false_iff.mp (not_suffix_quad (c := 'l') (by decide) ⟨rfl, by decide⟩) hsuffix
      have hwhole : address.toNat / 65536 * 65536 + address.toNat % 65536 = address.toNat := by omega
      have hlow : address.toNat % 65536 < 65536 := Nat.mod_lt _ (by decide)
      have hdenied : (getBlockedIpv4Reason
          (quad (address.toNat / 65536) (address.toNat % 65536))).isSome =
            deniedIpv4 address.toNat := by
        rw [getBlockedIpv4Reason_quad hlow, hwhole]
      rw [valid_of_https hparse hprotocol hread, getBlockedIpReason_quad, UrlHost.Guarded, ← hdenied]
      have hliteral : isIpLiteral (quad (address.toNat / 65536) (address.toNat % 65536)) = true := by
        rw [isIpLiteral, hnormal, isIP_quad]
        rfl
      simp only [hname, not_false_iff, hliteral, forall_true_left, true_and,
        Option.isSome_iff_ne_none, not_not]
  | ipv6 address =>
      have hread : normalizeHost (Text.toLowerCase parsed.hostname) = Ipv6.text address := by
        rw [hhost, UrlHost.text, normalizeHost_bracketed]
      have hname : ¬ (Ipv6.text address ∈ blockedHostnames ∨
          ".localhost".toList.isSuffixOf (Ipv6.text address).toList = true) := by
        rintro (hmem | hsuffix)
        · exact Bool.eq_false_iff.mp (not_blockedHostname address) (List.contains_iff_mem.mpr hmem)
        · exact not_localhost_suffix address hsuffix
      have hliteral : isIpLiteral (Ipv6.text address) = true := by
        rw [isIpLiteral, normalizeHost_text, isIP_text]
        rfl
      rw [valid_of_https hparse hprotocol hread, getBlockedIpReason_text, UrlHost.Guarded]
      simp only [hname, not_false_iff, hliteral, forall_true_left, true_and, not_not]
  | name domain =>
      obtain ⟨hlower, -, hnormal⟩ := normalizeHost_of_plain domain.plain
      have hread : normalizeHost (Text.toLowerCase parsed.hostname) = domain.text := by
        rw [hhost, UrlHost.text, hlower, hnormal]
      have hliteral : isIpLiteral domain.text = false := by
        rw [isIpLiteral, hnormal, isIP_name]
        rfl
      rw [valid_of_https hparse hprotocol hread, UrlHost.Guarded]
      simp only [hliteral, Bool.false_eq_true, false_implies, and_true]

end Guard

end Conduit.Utils
