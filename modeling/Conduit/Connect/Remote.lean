import Conduit.Connect.Export
import Conduit.Utils.UrlHosts

namespace Conduit.Connect

open Utils

structure RemoteTargetSettings where
  label : String
  url : String
deriving DecidableEq, Repr

-- `none` when the source throws: the target is no remote connector
def getRemoteTargetSettings : ConnectTarget → Option RemoteTargetSettings
  | .claude => some ⟨"Claude connector settings", "https://claude.ai/settings/connectors"⟩
  | .chatgpt => some ⟨"ChatGPT apps settings", "https://chatgpt.com/"⟩
  | .v0 => some ⟨"v0 MCP settings", "https://v0.app/"⟩
  | _ => none

section PrivateHosts

def isNumber (part : List Char) : Bool := part ≠ [] && part.all Char.isDigit

-- 1[6-9], 2\d and 3[0-1]
def isClassB : List Char → Bool
  | ['1', c] => '6' ≤ c && c ≤ '9'
  | ['2', c] => c.isDigit
  | ['3', c] => c = '0' || c = '1'
  | _ => false

def matchesPrivateRange (hostname : String) : Bool :=
  match Text.splitChars '.' hostname.toList with
  | [a, b, c, d] =>
      (a = ['1', '0'] && isNumber b || a = ['1', '9', '2'] && b = ['1', '6', '8'] ||
        a = ['1', '7', '2'] && isClassB b) && isNumber c && isNumber d
  | _ => false

def isPrivateHost (hostname : String) : Bool :=
  let normalized := Text.toLowerCase (Text.trim hostname)
  normalized = "localhost" || normalized = "127.0.0.1" || normalized = "::1" ||
    ".local".toList.isSuffixOf normalized.toList || matchesPrivateRange normalized

end PrivateHosts

def buildRemoteBlockers (api : UrlApi) (config : ConduitGatewayConfig) (profileUrl : String) :
    List String :=
  (if authMethod config = .none then []
    else ["Conduit remote distribution currently requires an authless gateway or a future OAuth " ++
      "bridge."]) ++
    match api.parse profileUrl with
    | none => ["The exported Conduit profile URL is invalid."]
    | some parsed =>
        (if parsed.protocol = "https:" then []
          else ["Remote connectors require an HTTPS Conduit URL."]) ++
        if isPrivateHost parsed.hostname then
          ["Remote connectors require a public Conduit host reachable from the internet."]
        else []

structure ConnectRemoteBundle where
  target : ConnectTarget
  targetLabel : String
  profile : String
  profileLabel : String
  createdAt : ℕ
  expiresAt : ℕ
  profileUrl : String
  settings : RemoteTargetSettings
  remoteReady : Bool
  blockers : List String
  exported : ConnectExportResult

structure ConnectRemoteSessionResponse where
  token : String
  bundle : ConnectRemoteBundle
  bundleUrl : String

-- the sessions by their token; a token is drawn at random
abbrev ConnectRemoteSessionStore := OrderedMap String ConnectRemoteBundle

structure CreateConnectRemoteSessionOptions extends ConnectExportOptions where
  ttlMs : Option ℕ := none
  bundleBaseUrl : String

def defaultRemoteTtlMs : ℕ := 10 * 60 * 1000

namespace ConnectRemoteSessionStore

variable (api : UrlEditor) (gateway : GatewayListen) (config : ConduitGatewayConfig)
  (S : ConnectRemoteSessionStore) (now : ℕ)

def pruneExpired : ConnectRemoteSessionStore where
  entries := S.entries.filter fun e => now < e.2.expiresAt
  nodup := S.nodup.sublist (List.filter_sublist.map Prod.fst)

def getBundle (token : String) : Option ConnectRemoteBundle := (pruneExpired S now).get? token

def createSession (token : String) (options : CreateConnectRemoteSessionOptions) :
    Option (ConnectRemoteSessionStore × ConnectRemoteSessionResponse) := do
  if !options.target.isRemote then none
  else
    let exported ← exportConnectProfile api gateway config options.toConnectExportOptions
    let settings ← getRemoteTargetSettings exported.target
    let profileUrl := (exported.servers.head?.map (·.url)).getD exported.baseUrl
    let blockers := buildRemoteBlockers api.toUrlApi config profileUrl
    let bundle : ConnectRemoteBundle :=
      { target := exported.target
        targetLabel := exported.target.label
        profile := exported.profile
        profileLabel := exported.profileLabel
        createdAt := now
        expiresAt := now + options.ttlMs.getD defaultRemoteTtlMs
        profileUrl := profileUrl
        settings := settings
        remoteReady := blockers.isEmpty
        blockers := blockers
        exported := exported }
    return ((pruneExpired S now).set token bundle,
      { token := token
        bundle := bundle
        bundleUrl := withoutSlashes options.bundleBaseUrl ++ "/conduit/connect/remote/bundles/" ++
          token })

end ConnectRemoteSessionStore

section Recognition

-- the hosts that the connector knows to be private
def Recognised : UrlHost → Prop
  | .ipv4 address =>
      address.toNat / 2 ^ 24 = 10 ∨ address.toNat / 2 ^ 16 = 192 * 256 + 168 ∨
        address.toNat / 2 ^ 20 = 172 * 16 + 1 ∨ address.toNat = 127 * 2 ^ 24 + 1
  | .ipv6 _ => False
  | .name domain =>
      domain.text = "localhost" ∨ ".local".toList.isSuffixOf domain.text.toList = true

theorem isNumber_toString (n : ℕ) : isNumber (toString n).toList = true := by
  have hne : (toString n).toList ≠ [] := by
    have hrepr : (toString n).toList = Nat.toDigits 10 n := String.toList_ofList
    rw [hrepr]
    exact Nat.toDigits_ne_nil
  simp only [isNumber, Bool.and_eq_true, decide_eq_true_eq, List.all_eq_true]
  exact ⟨hne, fun c hc => Text.isDigit_of_mem_toString hc⟩

theorem toList_toString_inj {m n : ℕ} : (toString m).toList = (toString n).toList ↔ m = n :=
  String.toList_inj.trans Text.toString_inj

theorem isClassB_toString {n : ℕ} (h : n < 256) :
    isClassB (toString n).toList = true ↔ 16 ≤ n ∧ n ≤ 31 := by
  have hall : ∀ n : Fin 256, isClassB (toString n.val).toList = true ↔ 16 ≤ n.val ∧ n.val ≤ 31 := by
    decide +kernel
  exact hall ⟨n, h⟩

theorem matchesPrivateRange_quad {high low : ℕ} : matchesPrivateRange (quad high low) = true ↔
    high / 256 % 256 = 10 ∨ high / 256 % 256 = 192 ∧ high % 256 = 168 ∨
      high / 256 % 256 = 172 ∧ 16 ≤ high % 256 ∧ high % 256 ≤ 31 := by
  have hten : ['1', '0'] = (toString 10).toList := by decide
  have hclassC : ['1', '9', '2'] = (toString 192).toList := by decide
  have hsecond : ['1', '6', '8'] = (toString 168).toList := by decide
  have hclassB : ['1', '7', '2'] = (toString 172).toList := by decide
  unfold matchesPrivateRange
  rw [splitChars_quad]
  dsimp only
  rw [hten, hclassC, hsecond, hclassB]
  simp only [isNumber_toString, Bool.and_true, Bool.or_eq_true, Bool.and_eq_true, decide_eq_true_eq,
    toList_toString_inj, isClassB_toString (Nat.mod_lt high (y := 256) (by decide)), or_assoc]

theorem quad_inj {high low high' low' : ℕ} (h : quad high low = quad high' low') :
    high / 256 % 256 = high' / 256 % 256 ∧ high % 256 = high' % 256 ∧
      low / 256 % 256 = low' / 256 % 256 ∧ low % 256 = low' % 256 := by
  have hparts := congrArg (fun s => Text.splitChars '.' s.toList) h
  simp only [splitChars_quad, List.cons.injEq, toList_toString_inj, and_true] at hparts
  exact hparts

theorem isPrivateHost_ipv4 (address : BitVec 32) :
    isPrivateHost (UrlHost.ipv4 address).text = true ↔ Recognised (.ipv4 address) := by
  have hlt := address.isLt
  obtain ⟨hlower, htrim, -⟩ := normalizeHost_of_plain
    (plain_quad (address.toNat / 65536) (address.toNat % 65536))
  have hname : ¬ quad (address.toNat / 65536) (address.toNat % 65536) = "localhost" :=
    ne_quad_of_letter (c := 'l') (by decide) ⟨rfl, by decide⟩
  have hloop : ¬ quad (address.toNat / 65536) (address.toNat % 65536) = "::1" :=
    ne_quad_of_letter (c := ':') (by decide) ⟨rfl, by decide⟩
  have hsuffix : ".local".toList.isSuffixOf
      (quad (address.toNat / 65536) (address.toNat % 65536)).toList = false :=
    not_suffix_quad (c := 'l') (by decide) ⟨rfl, by decide⟩
  have hlocal : quad (address.toNat / 65536) (address.toNat % 65536) = "127.0.0.1" ↔
      address.toNat = 127 * 2 ^ 24 + 1 := by
    have hquad : "127.0.0.1" = quad 32512 1 := by decide
    rw [hquad]
    constructor
    · intro h
      have hparts := quad_inj h
      omega
    · intro h
      rw [h]
      rfl
  unfold isPrivateHost
  rw [UrlHost.text, htrim, hlower]
  simp only [hname, hloop, hsuffix, decide_false, Bool.false_or, Bool.or_false, Bool.or_eq_true,
    decide_eq_true_eq, hlocal, matchesPrivateRange_quad, Recognised]
  omega

theorem isPrivateHost_ipv6 (address : Ipv6.Address) :
    isPrivateHost (UrlHost.ipv6 address).text = false := by
  have htext : (UrlHost.ipv6 address).text =
      String.ofList ('[' :: (Ipv6.serialized address ++ [']'])) := by
    apply String.toList_injective
    simp [UrlHost.text, Ipv6.text, String.toList_append]
  have hmem {c : Char} (hc : c ∈ '[' :: (Ipv6.serialized address ++ [']'])) :
      c = '[' ∨ c ∈ Ipv6.serialized address ∨ c = ']' := by
    simpa using hc
  have hspace : ∀ c ∈ '[' :: (Ipv6.serialized address ++ [']']), Text.isSpace c = false := by
    intro c hc
    rcases hmem hc with rfl | hc | rfl
    · rfl
    · exact not_isSpace_of_mem hc
    · rfl
  have hsame : ∀ c ∈ '[' :: (Ipv6.serialized address ++ [']']), Text.lowerChar c = [c] := by
    intro c hc
    rcases hmem hc with rfl | hc | rfl
    · rfl
    · exact lowerChar_of_mem hc
    · rfl
  have htrim := Text.trim_of_forall hspace
  have hlower := Text.toLowerCase_of_forall hsame
  have hne {s : String} (hhead : s.toList.head? ≠ some '[') :
      ¬ String.ofList ('[' :: (Ipv6.serialized address ++ [']'])) = s := by
    rintro rfl
    exact hhead (by rw [String.toList_ofList]; rfl)
  have hsuffix : ".local".toList.isSuffixOf
      (String.ofList ('[' :: (Ipv6.serialized address ++ [']']))).toList = false := by
    refine Bool.eq_false_iff.mpr fun h => ?_
    obtain ⟨front, hfront⟩ := List.isSuffixOf_iff_suffix.mp h
    have hlast := congrArg List.getLast? hfront
    simp only [String.toList_ofList, ← List.cons_append, List.getLast?_append] at hlast
    cases hlast
  have hdot : '.' ∉ '[' :: (Ipv6.serialized address ++ [']']) := by
    intro hc
    rcases hmem hc with h | h | h
    · cases h
    · exact dot_not_mem_serialized h
    · cases h
  have hrange : matchesPrivateRange (String.ofList ('[' :: (Ipv6.serialized address ++ [']']))) =
      false := by
    unfold matchesPrivateRange
    rw [String.toList_ofList, Text.splitChars_of_not_mem hdot]
  unfold isPrivateHost
  rw [htext, htrim, hlower]
  simp only [hsuffix, hrange, hne (s := "localhost") (by decide), hne (s := "127.0.0.1") (by decide),
    hne (s := "::1") (by decide), decide_false, Bool.or_false]

theorem isPrivateHost_name (domain : DomainName) :
    isPrivateHost (UrlHost.name domain).text = true ↔ Recognised (.name domain) := by
  obtain ⟨hlower, htrim, -⟩ := normalizeHost_of_plain domain.plain
  have hlabel (parts : List (List Char)) (d : List Char)
      (h : Text.splitChars '.' domain.text.toList = parts ++ [d]) : ¬ isNumber d = true := by
    intro hnumber
    simp only [isNumber, Bool.and_eq_true, decide_eq_true_eq] at hnumber
    refine domain.named d ?_ hnumber
    rw [h]
    simp
  have hrange : matchesPrivateRange domain.text = false := by
    refine Bool.eq_false_iff.mpr fun h => ?_
    unfold matchesPrivateRange at h
    split at h
    next a b c d hparts =>
      refine hlabel [a, b, c] d hparts ?_
      simp only [Bool.and_eq_true] at h
      exact h.2
    next => cases h
  have hlocal : ¬ domain.text = "127.0.0.1" := by
    intro h
    refine hlabel [['1', '2', '7'], ['0'], ['0']] ['1'] ?_ rfl
    rw [h]
    decide
  have hloop : ¬ domain.text = "::1" := by
    intro h
    have hcolon := (plain_of_isDomainChar (domain.plain ':' (by rw [h]; decide))).2.2.2.2.1
    exact hcolon rfl
  unfold isPrivateHost
  rw [UrlHost.text, htrim, hlower]
  simp only [hlocal, hloop, hrange, decide_false, Bool.or_false, Bool.or_eq_true, decide_eq_true_eq,
    Recognised]

theorem isPrivateHost_text (host : UrlHost) : isPrivateHost host.text = true ↔ Recognised host := by
  cases host with
  | ipv4 address => exact isPrivateHost_ipv4 address
  | ipv6 address =>
      rw [isPrivateHost_ipv6]
      exact iff_of_false Bool.false_ne_true id
  | name domain => exact isPrivateHost_name domain

end Recognition

section Readiness

variable {api : UrlEditor} {gateway : GatewayListen} {config : ConduitGatewayConfig}

-- a session that is reported ready although the guard refuses its URL
structure Misjudged (config : ConduitGatewayConfig) (base : Url) (host : UrlHost) : Prop where
  authless : authMethod config = .none
  https : base.protocol = "https:"
  unrecognised : ¬ Recognised host
  refused : base.username ≠ "" ∨ base.password ≠ "" ∨ host.Guarded

theorem mem_encodeURIComponent {value : String} {c : Char}
    (h : c ∈ (encodeURIComponent value).toList) : isUriUnreserved c = true ∨ c = '%' := by
  unfold encodeURIComponent at h
  rw [String.toList_ofList] at h
  obtain ⟨x, -, hc⟩ := List.mem_flatMap.mp h
  split at hc
  next hplain =>
    obtain rfl := List.mem_singleton.mp hc
    exact .inl hplain
  next =>
    have hdigit : ∀ n : Fin 17, isUriUnreserved (hexDigit n.val) = true := by decide
    have hhex (n : ℕ) : isUriUnreserved (hexDigit n) = true := by
      by_cases hn : n < 16
      · exact hdigit ⟨n, by omega⟩
      · have hdefault : hexDigit n = '0' := by
          rw [hexDigit, List.getD_eq_getElem?_getD, List.getElem?_eq_none (by simpa using hn)]
          rfl
        rw [hdefault]
        rfl
    obtain ⟨byte, -, hbyte⟩ := List.mem_flatMap.mp hc
    simp only [encodeByte, List.mem_cons, List.not_mem_nil, or_false] at hbyte
    rcases hbyte with rfl | rfl | rfl
    · exact .inr rfl
    · exact .inl (hhex _)
    · exact .inl (hhex _)

theorem isPlainPath_profile (profileId : String) :
    IsPlainPath ("/mcp/profile/" ++ encodeURIComponent profileId) := by
  have hlead : ∀ c ∈ "/mcp/profile/".toList, isUriUnreserved c = true ∨ c = '%' ∨ c = '/' := by
    intro c hc
    have hall : ("/mcp/profile/".toList.all fun c => isUriUnreserved c || c == '/') = true := by
      decide +kernel
    have h := List.all_eq_true.mp hall c hc
    rw [Bool.or_eq_true, beq_iff_eq] at h
    exact h.imp_right .inr
  refine .inr ⟨by rw [String.toList_append]; rfl, fun c hc => ?_⟩
  rw [String.toList_append, List.mem_append] at hc
  rcases hc with hc | hc
  · exact hlead c hc
  · exact (mem_encodeURIComponent hc).imp_right .inl

theorem ite_eq_nil_iff {p : Prop} [Decidable p] (blocker : String) :
    (if p then [] else [blocker]) = [] ↔ p := by
  split
  next h => exact iff_of_true rfl h
  next h => exact iff_of_false (List.cons_ne_nil _ _) h

theorem ready_iff {profileUrl : String} :
    (buildRemoteBlockers api.toUrlApi config profileUrl).isEmpty = true ↔
      authMethod config = .none ∧ ∃ parsed, api.parse profileUrl = some parsed ∧
        parsed.protocol = "https:" ∧ isPrivateHost parsed.hostname = false := by
  unfold buildRemoteBlockers
  rw [List.isEmpty_iff, List.append_eq_nil_iff, ite_eq_nil_iff]
  refine and_congr_right fun _ => ?_
  cases api.parse profileUrl with
  | none =>
      refine iff_of_false (List.cons_ne_nil _ _) ?_
      rintro ⟨parsed, hnone, -⟩
      cases hnone
  | some parsed =>
      rw [List.append_eq_nil_iff, ite_eq_nil_iff]
      constructor
      · rintro ⟨hprotocol, hhost⟩
        refine ⟨parsed, rfl, hprotocol, Bool.eq_false_iff.mpr fun hprivate => ?_⟩
        rw [if_pos hprivate] at hhost
        cases hhost
      · rintro ⟨url, hurl, hprotocol, hhost⟩
        obtain rfl := Option.some.inj hurl
        exact ⟨hprotocol, if_neg (Bool.eq_false_iff.mp hhost)⟩

theorem exported_remote {options : ConnectExportOptions} {exported : ConnectExportResult}
    (hremote : options.target.isRemote = true)
    (h : exportConnectProfile api gateway config options = some exported) :
    ∃ profileId baseUrl profileUrl,
      normalizeBaseUrl api (options.baseUrl.getD (deriveBaseUrl gateway)) = some baseUrl ∧
        buildConnectProfileUrl api baseUrl profileId = some profileUrl ∧
          exported.servers.head?.map (·.url) = some profileUrl := by
  obtain ⟨profile, -, h⟩ := Option.bind_eq_some_iff.mp h
  obtain ⟨baseUrl, hbase, h⟩ := Option.bind_eq_some_iff.mp h
  have hresult {input : ExportInput} {snippet : AuthExportSpec → String → String → String}
      (h : input.remoteResult api snippet = some exported) (hurl : input.baseUrl = baseUrl) :
      ∃ profileUrl, buildConnectProfileUrl api baseUrl input.profile.id = some profileUrl ∧
        exported.servers.head?.map (·.url) = some profileUrl := by
    obtain ⟨profileUrl, hprofile, h⟩ := Option.bind_eq_some_iff.mp h
    obtain rfl := Option.some.inj h
    exact ⟨profileUrl, hurl ▸ hprofile, rfl⟩
  unfold ExportInput.build at h
  dsimp only at h
  cases htarget : options.target with
  | claude | chatgpt | v0 =>
      rw [htarget] at h
      obtain ⟨profileUrl, hprofile, hservers⟩ := hresult h rfl
      exact ⟨_, baseUrl, profileUrl, hbase, hprofile, hservers⟩
  | _ =>
      rw [htarget] at hremote
      cases hremote

theorem origin_of_normalized {base : Url} {text baseUrl profileUrl profileId : String}
    (hbase : api.parse text = some base) (hnormal : normalizeBaseUrl api text = some baseUrl)
    (hprofile : buildConnectProfileUrl api baseUrl profileId = some profileUrl) :
    (isHttpProtocol base.protocol = true → ∃ url, api.parse profileUrl = some url ∧
      SameOrigin base url) ∧
      ∀ url, api.parse profileUrl = some url → url.protocol = base.protocol := by
  have hempty : IsPlainPath "" := .inl rfl
  obtain ⟨base', hbase', rfl⟩ := Option.map_eq_some_iff.mp hnormal
  obtain rfl := Option.some.inj (hbase.symm.trans hbase')
  obtain ⟨lean, hlean, rfl⟩ := Option.map_eq_some_iff.mp hprofile
  obtain ⟨again, hagain, rfl⟩ := Option.map_eq_some_iff.mp hlean
  have hpath := isPlainPath_profile profileId
  rw [String.append_assoc]
  rw [← String.append_empty (s := withoutSlash _)] at hagain
  have hsame := api.protocol_relocated hbase hempty hagain
  constructor
  · intro hhttp
    obtain ⟨url₁, hparse₁, horigin₁⟩ := api.parse_relocated hbase hhttp hempty
    obtain rfl := Option.some.inj (hagain.symm.trans hparse₁)
    obtain ⟨url₂, hparse₂, horigin₂⟩ := api.parse_relocated hagain (by rw [hsame, hhttp]) hpath
    refine ⟨url₂, hparse₂, horigin₂.1.trans horigin₁.1, horigin₂.2.1.trans horigin₁.2.1,
      horigin₂.2.2.1.trans horigin₁.2.2.1, horigin₂.2.2.2.trans horigin₁.2.2.2⟩
  · exact fun url hurl => (api.protocol_relocated hagain hpath hurl).trans hsame

theorem created_profileUrl {S S' : ConnectRemoteSessionStore} {now : ℕ} {token : String}
    {options : CreateConnectRemoteSessionOptions} {response : ConnectRemoteSessionResponse}
    (h : S.createSession api gateway config now token options = some (S', response)) :
    ∃ profileId baseUrl,
      normalizeBaseUrl api (options.baseUrl.getD (deriveBaseUrl gateway)) = some baseUrl ∧
        buildConnectProfileUrl api baseUrl profileId = some response.bundle.profileUrl ∧
          response.bundle.remoteReady =
            (buildRemoteBlockers api.toUrlApi config response.bundle.profileUrl).isEmpty := by
  unfold ConnectRemoteSessionStore.createSession at h
  split at h
  next => cases h
  next hremote =>
    obtain ⟨exported, hexported, h⟩ := Option.bind_eq_some_iff.mp h
    obtain ⟨settings, -, h⟩ := Option.bind_eq_some_iff.mp h
    obtain ⟨profileId, baseUrl, profileUrl, hbase, hprofile, hservers⟩ :=
      exported_remote (by simpa using hremote) hexported
    obtain ⟨-, rfl⟩ := Prod.mk.inj (Option.some.inj h)
    refine ⟨profileId, baseUrl, hbase, ?_, rfl⟩
    rw [hprofile, hservers]
    rfl

theorem ready_accepted_iff {S S' : ConnectRemoteSessionStore} {now : ℕ} {token : String}
    {options : CreateConnectRemoteSessionOptions} {response : ConnectRemoteSessionResponse}
    (h : S.createSession api gateway config now token options = some (S', response)) {base : Url}
    (hbase : api.parse (options.baseUrl.getD (deriveBaseUrl gateway)) = some base)
    {host : UrlHost} (hhost : base.hostname = host.text) :
    (response.bundle.remoteReady = true →
        (validateServerUrl api.toUrlApi response.bundle.profileUrl false).valid = true) ↔
      ¬ Misjudged config base host := by
  obtain ⟨profileId, baseUrl, hnormal, hprofile, hready⟩ := created_profileUrl h
  obtain ⟨horigin, hprotocol⟩ := origin_of_normalized hbase hnormal hprofile
  rw [hready, ready_iff]
  by_cases hhttps : base.protocol = "https:"
  · have hhttp : isHttpProtocol base.protocol = true := by
      rw [hhttps]
      rfl
    obtain ⟨url, hurl, hsame⟩ := horigin hhttp
    have hhost' : url.hostname = host.text := hsame.2.2.2.trans hhost
    have hvalid := valid_iff_not_guarded hurl (by rw [hsame.1, hhttp]) hhost'
    have hprivate := isPrivateHost_text host
    rw [hvalid, hsame.2.1, hsame.2.2.1]
    constructor
    · intro haccepts hmisjudged
      have hpublic : isPrivateHost url.hostname = false := by
        rw [hhost']
        exact Bool.eq_false_iff.mpr fun htrue => hmisjudged.unrecognised (hprivate.mp htrue)
      have haccepted := haccepts ⟨hmisjudged.authless, url, hurl, hsame.1.trans hhttps, hpublic⟩
      exact hmisjudged.refused.elim (fun hne => hne haccepted.1.1)
        fun hrefused => hrefused.elim (fun hne => hne haccepted.1.2) haccepted.2
    · intro hnot hready
      have hunrecognised : ¬ Recognised host := by
        intro hrecognised
        obtain ⟨-, url', hurl', -, hpublic⟩ := hready
        obtain rfl := Option.some.inj (hurl.symm.trans hurl')
        rw [hhost', hprivate.mpr hrecognised] at hpublic
        cases hpublic
      have hrefused (hne : base.username ≠ "" ∨ base.password ≠ "" ∨ host.Guarded) : False :=
        hnot ⟨hready.1, hhttps, hunrecognised, hne⟩
      refine ⟨⟨?_, ?_⟩, fun hguarded => hrefused (.inr (.inr hguarded))⟩
      · exact by_contra fun hne => hrefused (.inl hne)
      · exact by_contra fun hne => hrefused (.inr (.inl hne))
  · refine iff_of_true ?_ fun hmisjudged => hhttps hmisjudged.https
    rintro ⟨-, url, hurl, hurlprotocol, -⟩
    exact absurd ((hprotocol url hurl).symm.trans hurlprotocol) hhttps

end Readiness

section Example

def hostLead (host : String) : List Char := ("https://" ++ host).toList

def slashed (path : List Char) : List Char := if path = [] then ['/'] else path

def hostUrl (host : String) (path : List Char) : Url where
  href := String.ofList (hostLead host ++ slashed path)
  protocol := "https:"
  hostname := host
  pathname := String.ofList (slashed path)

theorem afterPrefix_hostLead (host : String) (path : List Char) :
    Text.afterPrefix (hostLead host) (hostLead host ++ path) = some path := by
  unfold Text.afterPrefix
  rw [if_pos (List.isPrefixOf_iff_prefix.mpr (List.prefix_append _ _)), List.drop_left]

theorem slashed_slashed (path : List Char) : slashed (slashed path) = slashed path := by
  unfold slashed
  split <;> rfl

def parseHost (host text : String) : Option Url :=
  (Text.afterPrefix (hostLead host) text.toList).map (hostUrl host)

theorem parseHost_below (host : String) (path : List Char) (rest : String) :
    ∃ below, parseHost host
      (withoutSlash (String.ofList (hostLead host ++ slashed path)) ++ rest) =
        some (hostUrl host below) := by
  have hslashed : ∃ tail, withoutSlash (String.ofList (hostLead host ++ slashed path)) =
      String.ofList (hostLead host ++ tail) := by
    have hne : slashed path ≠ [] := by
      unfold slashed
      split
      · exact List.cons_ne_nil _ _
      · assumption
    unfold withoutSlash
    rw [String.toList_ofList]
    split
    · exact ⟨(slashed path).dropLast, by rw [List.dropLast_append_of_ne_nil hne]⟩
    · exact ⟨slashed path, rfl⟩
  obtain ⟨tail, htail⟩ := hslashed
  refine ⟨tail ++ rest.toList, ?_⟩
  rw [parseHost, htail, String.toList_append, String.toList_ofList, List.append_assoc,
    afterPrefix_hostLead]
  rfl

-- as far as the URLs of one https host go
def hostApi (host : String) : UrlEditor where
  parse := parseHost host
  parseRelative _ _ := none
  parse_href := by
    intro text url h
    obtain ⟨path, -, rfl⟩ := Option.map_eq_some_iff.mp h
    unfold parseHost
    rw [hostUrl, String.toList_ofList, afterPrefix_hostLead, Option.map_some, hostUrl,
      slashed_slashed]
  parseRelative_href := by
    intro text base url h
    cases h
  relocate _ path := hostUrl host path.toList
  protocol_relocated := by
    intro text url h path rest url' _ h'
    obtain ⟨_, -, rfl⟩ := Option.map_eq_some_iff.mp h
    obtain ⟨_, -, rfl⟩ := Option.map_eq_some_iff.mp h'
    rfl
  parse_relocated := by
    intro text url h _ path rest _
    obtain ⟨_, -, rfl⟩ := Option.map_eq_some_iff.mp h
    obtain ⟨below, hbelow⟩ := parseHost_below host path.toList rest
    exact ⟨_, hbelow, rfl, rfl, rfl, rfl⟩

def openGateway : ConduitGatewayConfig where
  servers := []

def claudeAt (host : String) : CreateConnectRemoteSessionOptions where
  target := .claude
  baseUrl := some ("https://" ++ host)
  bundleBaseUrl := "https://" ++ host

def listening : GatewayListen where
  host := "0.0.0.0"
  port := 9090

def exampleDomain : DomainName where
  text := "conduit.example"
  plain := List.all_eq_true.mp (by decide +kernel)
  named := by decide +kernel

theorem ready_accepted_example : ∃ S response,
    ConnectRemoteSessionStore.createSession (hostApi "conduit.example") listening openGateway {} 0
      "t" (claudeAt "conduit.example") = some (S, response) ∧
    ((response.bundle.remoteReady = true → (validateServerUrl (hostApi "conduit.example").toUrlApi
        response.bundle.profileUrl false).valid = true) ↔
      ¬ Misjudged openGateway (hostUrl "conduit.example" []) (.name exampleDomain)) := by
  obtain ⟨⟨S, response⟩, h⟩ := Option.isSome_iff_exists.mp (by decide +kernel :
    (ConnectRemoteSessionStore.createSession (hostApi "conduit.example") listening openGateway {} 0
      "t" (claudeAt "conduit.example")).isSome = true)
  exact ⟨S, response, h, ready_accepted_iff h (by decide +kernel) rfl⟩

-- the metadata service of a cloud, and the loopback address of IPv6
theorem metadata_ready :
    (((ConnectRemoteSessionStore.createSession (hostApi "169.254.169.254") listening openGateway {} 0
      "t" (claudeAt "169.254.169.254")).map fun e => (e.2.bundle.remoteReady,
        (validateServerUrl (hostApi "169.254.169.254").toUrlApi e.2.bundle.profileUrl false).valid)) =
          some (true, false)) ∧
    (((ConnectRemoteSessionStore.createSession (hostApi "[::1]") listening openGateway {} 0
      "t" (claudeAt "[::1]")).map fun e => (e.2.bundle.remoteReady,
        (validateServerUrl (hostApi "[::1]").toUrlApi e.2.bundle.profileUrl false).valid)) =
          some (true, false)) ∧
    (UrlHost.ipv4 0xa9fea9fe#32).text = "169.254.169.254" ∧ (UrlHost.ipv6 1#128).text = "[::1]" := by
  refine ⟨?_, ?_, ?_, ?_⟩ <;> decide +kernel

end Example

end Conduit.Connect
