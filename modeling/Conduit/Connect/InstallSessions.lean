import Conduit.Connect.Remote
import Conduit.Foundation.PercentText
import Mathlib.Data.List.Induction

namespace Conduit.Connect

open Utils

inductive ConnectInstallBundleAuth where
  | none
  | bearer (secret description headerName tokenPrefix : String)
deriving DecidableEq

structure ConnectInstallBundle where
  target : ConnectTarget
  targetLabel : String
  profile : String
  profileLabel : String
  scope : String
  scopeEffective : String
  baseUrl : String
  servers : List ConnectServerBinding
  createdAt : ℕ
  expiresAt : ℕ
  auth : ConnectInstallBundleAuth
deriving DecidableEq

structure CreateConnectInstallSessionOptions extends ConnectExportOptions where
  authSecret : Option String := none
  ttlMs : Option ℕ := none
  bundleBaseUrl : String

structure ConnectInstallSessionResponse where
  token : String
  target : ConnectTarget
  targetLabel : String
  profile : String
  profileLabel : String
  scope : String
  scopeEffective : String
  expiresAt : ℕ
  bundleUrl : String
  installCommand : String
  deeplink : Option String

def defaultInstallTtlMs : ℕ := 10 * 60 * 1000

def buildConnectDeeplink (bundleUrl : String) : String :=
  "conduit://install?bundle_url=" ++ encodeURIComponent bundleUrl

def parseConnectDeeplink (api : UrlApi) (deeplink : String) : Except String String :=
  match api.parse deeplink with
  | none => .error "Invalid conduit deeplink"
  | some parsed =>
      if parsed.protocol ≠ "conduit:" then .error "Unsupported deeplink protocol"
      else if parsed.hostname ≠ "install" ∧ parsed.pathname ≠ "/install" ∧
          parsed.pathname ≠ "install" then
        .error "Unsupported conduit deeplink action"
      else
        match (Percent.searchParam (parsed.search.toList.drop 1) "bundle_url".toList).filter
            (· ≠ []) with
        | none => .error "Missing bundle_url in conduit deeplink"
        | some bundleUrl => .ok (String.ofList bundleUrl)

-- `none` when the source throws for want of a gateway token
def buildBundleAuth (result : ConnectExportResult) (authSecret : Option String) :
    Option ConnectInstallBundleAuth :=
  match result.env with
  | [] => some .none
  | env :: _ =>
      (authSecret.filter (· ≠ "")).map fun secret =>
        .bearer secret env.description "Authorization" "Bearer "

def joinUrl (baseUrl path : String) : String :=
  withoutSlashes baseUrl ++ (if path.toList.head? = some '/' then path else "/" ++ path)

def buildInstallCommand (bundleUrl scopeEffective : String) : String :=
  if scopeEffective = "project" then
    "conduit connect install --bundle-url \"" ++ bundleUrl ++ "\" --project-dir \"$PWD\""
  else "conduit connect install --bundle-url \"" ++ bundleUrl ++ "\""

-- the sessions by their token; a token is drawn at random
abbrev ConnectInstallSessionStore := OrderedMap String ConnectInstallBundle

-- the arguments of conduit connect install
structure InstallArgs where
  bundleUrl : Option String := none
  deeplink : Option String := none
  token : Option String := none
  baseUrl : Option String := none

def resolveBundleUrl (api : UrlApi) (args : InstallArgs) : Except String String :=
  match args.bundleUrl.filter (· ≠ ""), args.deeplink.filter (· ≠ ""),
      args.token.filter (· ≠ ""), args.baseUrl.filter (· ≠ "") with
  | some bundleUrl, _, _, _ => .ok bundleUrl
  | none, some deeplink, _, _ => parseConnectDeeplink api deeplink
  | none, none, some token, some baseUrl =>
      .ok (withoutSlashes baseUrl ++ "/conduit/connect/install/bundles/" ++ token)
  | none, none, _, _ => .error "Use --bundle-url, --deeplink, or --token with --base-url"

namespace ConnectInstallSessionStore

variable (api : UrlEditor) (gateway : GatewayListen) (config : ConduitGatewayConfig)
  (S : ConnectInstallSessionStore) (now : ℕ)

def pruneExpired : ConnectInstallSessionStore where
  entries := S.entries.filter fun e => now < e.2.expiresAt
  nodup := S.nodup.sublist (List.filter_sublist.map Prod.fst)

def bundleOf (options : CreateConnectInstallSessionOptions) : Option ConnectInstallBundle := do
  let result ← exportConnectProfile api gateway config options.toConnectExportOptions
  let auth ← buildBundleAuth result options.authSecret
  return {
    target := result.target
    targetLabel := result.target.label
    profile := result.profile
    profileLabel := result.profileLabel
    scope := result.scope
    scopeEffective := result.scopeEffective
    baseUrl := result.baseUrl
    servers := result.servers
    createdAt := now
    expiresAt := now + options.ttlMs.getD defaultInstallTtlMs
    auth := auth }

def respond (token bundleBaseUrl : String) (bundle : ConnectInstallBundle) :
    ConnectInstallSessionResponse :=
  let bundleUrl := joinUrl bundleBaseUrl ("/conduit/connect/install/bundles/" ++ token)
  { token := token
    target := bundle.target
    targetLabel := bundle.targetLabel
    profile := bundle.profile
    profileLabel := bundle.profileLabel
    scope := bundle.scope
    scopeEffective := bundle.scopeEffective
    expiresAt := bundle.expiresAt
    bundleUrl := bundleUrl
    installCommand := buildInstallCommand bundleUrl bundle.scopeEffective
    deeplink :=
      if bundle.scopeEffective = "project" then none else some (buildConnectDeeplink bundleUrl) }

-- what has expired is gone also when the source throws
def createSession (token : String) (options : CreateConnectInstallSessionOptions) :
    ConnectInstallSessionStore × Option ConnectInstallSessionResponse :=
  match bundleOf api gateway config now options with
  | none => (pruneExpired S now, none)
  | some bundle =>
      ((pruneExpired S now).set token bundle, some (respond token options.bundleBaseUrl bundle))

def getBundle (token : String) : ConnectInstallSessionStore × Option ConnectInstallBundle :=
  (pruneExpired S now, (pruneExpired S now).get? token)

end ConnectInstallSessionStore

section Runs

open ConnectInstallSessionStore

-- one call of the store, with the configuration and the clock it reads
inductive InstallSessionEvent where
  | create (gateway : GatewayListen) (config : ConduitGatewayConfig) (now : ℕ) (token : String)
      (options : CreateConnectInstallSessionOptions)
  | fetch (now : ℕ) (token : String)

namespace InstallSessionEvent

def now : InstallSessionEvent → ℕ
  | create _ _ now _ _ => now
  | fetch now _ => now

variable (api : UrlEditor)

def issued : InstallSessionEvent → Option (String × ConnectInstallBundle)
  | create gateway config now token options =>
      (bundleOf api gateway config now options).map fun bundle => (token, bundle)
  | fetch _ _ => none

def applyTo (S : ConnectInstallSessionStore) : InstallSessionEvent → ConnectInstallSessionStore
  | create gateway config now token options =>
      (createSession api gateway config S now token options).1
  | fetch now token => (getBundle S now token).1

end InstallSessionEvent

open InstallSessionEvent

def sessionsAfter (api : UrlEditor) (es : List InstallSessionEvent) : ConnectInstallSessionStore :=
  es.foldl (applyTo api) OrderedMap.empty

-- the last session of the token is not over at any call since
def Open (api : UrlEditor) (es : List InstallSessionEvent) (token : String)
    (bundle : ConnectInstallBundle) : Prop :=
  ∃ before e after, es = before ++ e :: after ∧ e.issued api = some (token, bundle) ∧
    ∀ f ∈ after, (∀ other, f.issued api ≠ some (token, other)) ∧ f.now < bundle.expiresAt

variable {api : UrlEditor}

theorem get?_pruneExpired (S : ConnectInstallSessionStore) (now : ℕ) (token : String) :
    (pruneExpired S now).get? token = (S.get? token).filter fun bundle => now < bundle.expiresAt := by
  apply Option.ext
  intro bundle
  rw [Option.filter_eq_some_iff, OrderedMap.get?_eq_some_iff, OrderedMap.get?_eq_some_iff]
  exact List.mem_filter

variable (api) in
theorem get?_applyTo (S : ConnectInstallSessionStore) (e : InstallSessionEvent) (token : String) :
    (e.applyTo api S).get? token =
      match e.issued api with
      | some (issuedToken, bundle) =>
          if issuedToken = token then some bundle else (pruneExpired S e.now).get? token
      | none => (pruneExpired S e.now).get? token := by
  cases e with
  | create gateway config now issuedToken options =>
      simp only [InstallSessionEvent.applyTo, createSession, InstallSessionEvent.issued,
        InstallSessionEvent.now]
      cases bundleOf api gateway config now options with
      | none => rfl
      | some bundle => exact OrderedMap.get?_set ..
  | fetch now issuedToken => rfl

theorem open_concat {es : List InstallSessionEvent} {e : InstallSessionEvent} {token : String}
    {bundle : ConnectInstallBundle} : Open api (es ++ [e]) token bundle ↔
      e.issued api = some (token, bundle) ∨
        (∀ other, e.issued api ≠ some (token, other)) ∧ Open api es token bundle ∧
          e.now < bundle.expiresAt := by
  constructor
  · rintro ⟨before, f, after, hsplit, hissued, hafter⟩
    rcases List.eq_nil_or_concat after with rfl | ⟨after, last, rfl⟩
    · obtain ⟨rfl, hlast⟩ := List.append_inj' hsplit rfl
      cases hlast
      exact .inl hissued
    · have hlast : es = before ++ f :: after ∧ [e] = [last] :=
        List.append_inj' (by simpa using hsplit) rfl
      obtain ⟨rfl, hlast⟩ := hlast
      cases hlast
      obtain ⟨hother, hnow⟩ := hafter e (by simp)
      exact .inr ⟨hother, ⟨before, f, after, rfl, hissued, fun g hg =>
        hafter g (by simp [hg])⟩, hnow⟩
  · rintro (hissued | ⟨hother, ⟨before, f, after, rfl, hissued, hafter⟩, hnow⟩)
    · exact ⟨es, e, [], rfl, hissued, by simp⟩
    · refine ⟨before, f, after ++ [e], by simp, hissued, ?_⟩
      intro g hg
      rcases List.mem_append.mp hg with hg | hg
      · exact hafter g hg
      · obtain rfl := List.mem_singleton.mp hg
        exact ⟨hother, hnow⟩

theorem get?_sessionsAfter (es : List InstallSessionEvent) (token : String)
    (bundle : ConnectInstallBundle) :
    (sessionsAfter api es).get? token = some bundle ↔ Open api es token bundle := by
  induction es using List.reverseRecOn with
  | nil =>
      constructor
      · intro h
        cases h
      · rintro ⟨before, e, after, hsplit, -⟩
        cases before <;> cases hsplit
  | append_singleton es e ih =>
      have hstep := get?_applyTo api (sessionsAfter api es) e token
      have hpruned : (pruneExpired (sessionsAfter api es) e.now).get? token = some bundle ↔
          Open api es token bundle ∧ e.now < bundle.expiresAt := by
        rw [get?_pruneExpired, Option.filter_eq_some_iff, ih, decide_eq_true_eq]
      rw [sessionsAfter, List.foldl_append, open_concat]
      change (e.applyTo api (sessionsAfter api es)).get? token = _ ↔ _
      rw [hstep]
      cases hissued : e.issued api with
      | none => simp [hpruned]
      | some pair =>
          obtain ⟨issuedToken, other⟩ := pair
          by_cases htoken : issuedToken = token
          · simp [htoken]
          · simp [htoken, hpruned]

-- a bundle is handed out for its token and until its time is over, and nothing else is
theorem getBundle_eq_some_iff (es : List InstallSessionEvent) (now : ℕ) (token : String)
    (bundle : ConnectInstallBundle) :
    (getBundle (sessionsAfter api es) now token).2 = some bundle ↔
      Open api es token bundle ∧ now < bundle.expiresAt := by
  rw [getBundle, get?_pruneExpired, Option.filter_eq_some_iff, get?_sessionsAfter,
    decide_eq_true_eq]

end Runs

section Links

open ConnectInstallSessionStore

-- the URL constructor reads a link whose query needs no escape
structure DeeplinkApi extends UrlApi where
  parse_install : ∀ query : String,
    (∀ c ∈ query.toList, isUriUnreserved c = true ∨ c = '%' ∨ c = '=') →
      ∃ url, parse ("conduit://install?" ++ query) = some url ∧ url.protocol = "conduit:" ∧
        url.hostname = "install" ∧ url.search = "?" ++ query

theorem encodeURIComponent_eq (value : String) :
    encodeURIComponent value = String.ofList (Percent.encode isUriUnreserved value.toList) := by
  rw [encodeURIComponent, Percent.encode]
  congr 1
  apply List.flatMap_congr
  intro c _
  rw [Percent.toUTF8_singleton]
  rfl

theorem buildConnectDeeplink_eq (bundleUrl : String) : buildConnectDeeplink bundleUrl =
    "conduit://install?" ++ ("bundle_url=" ++ encodeURIComponent bundleUrl) := by
  unfold buildConnectDeeplink
  generalize encodeURIComponent bundleUrl = value
  simp only [← String.append_assoc, String.reduceAppend]

theorem parseConnectDeeplink_build (api : DeeplinkApi) {bundleUrl : String} (h : bundleUrl ≠ "") :
    parseConnectDeeplink api.toUrlApi (buildConnectDeeplink bundleUrl) = .ok bundleUrl := by
  have hquery : ∀ c ∈ ("bundle_url=" ++ encodeURIComponent bundleUrl).toList,
      isUriUnreserved c = true ∨ c = '%' ∨ c = '=' := by
    intro c hc
    rw [String.toList_append, List.mem_append] at hc
    rcases hc with hc | hc
    · exact Text.forall_mem (P := fun c => isUriUnreserved c = true ∨ c = '%' ∨ c = '=') rfl c hc
    · exact (mem_encodeURIComponent hc).imp_right .inl
  obtain ⟨url, hparse, hprotocol, hhostname, hsearch⟩ := api.parse_install _ hquery
  have hlink := buildConnectDeeplink_eq bundleUrl
  have hvalue : Percent.searchParam (url.search.toList.drop 1) "bundle_url".toList =
      some bundleUrl.toList := by
    have hname : ∀ c ∈ "bundle_url".toList, isUriUnreserved c = true := Text.forall_mem rfl
    have hencoded := Percent.searchParam_encode rfl rfl rfl rfl hname bundleUrl.toList
    rw [hsearch, encodeURIComponent_eq]
    simpa using hencoded
  have hfilter : (some bundleUrl.toList).filter (· ≠ []) = some bundleUrl.toList := by
    rw [Option.filter_some, if_pos (by simpa using h)]
  rw [parseConnectDeeplink, hlink, hparse]
  dsimp only
  rw [if_neg (by simp [hprotocol]), if_neg (by simp [hhostname]), hvalue, hfilter]
  dsimp only
  rw [String.ofList_toList]

variable {api : UrlEditor} {gateway : GatewayListen} {config : ConduitGatewayConfig}
  {S : ConnectInstallSessionStore} {now : ℕ} {token : String}

theorem createSession_eq_some {options : CreateConnectInstallSessionOptions}
    {response : ConnectInstallSessionResponse}
    (h : (createSession api gateway config S now token options).2 = some response) :
    ∃ bundle, bundleOf api gateway config now options = some bundle ∧
      response = respond token options.bundleBaseUrl bundle := by
  unfold createSession at h
  split at h
  next => cases h
  next bundle hbundle =>
    cases h
    exact ⟨bundle, hbundle, rfl⟩

theorem filter_nonempty {text : String} (h : text ≠ "") :
    (some text).filter (· ≠ "") = some text := by
  rw [Option.filter_some, if_pos (by simpa using h)]

theorem resolve_url (links : UrlApi) {url : String} (h : url ≠ "") :
    resolveBundleUrl links { bundleUrl := some url } = .ok url := by
  rw [resolveBundleUrl]
  dsimp only
  rw [filter_nonempty h]

theorem resolve_deeplink (links : DeeplinkApi) {url : String} (h : url ≠ "") :
    resolveBundleUrl links.toUrlApi { deeplink := some (buildConnectDeeplink url) } = .ok url := by
  have hlink : buildConnectDeeplink url ≠ "" := by
    rw [buildConnectDeeplink_eq]
    generalize "bundle_url=" ++ encodeURIComponent url = query
    simp
  rw [resolveBundleUrl]
  dsimp only
  rw [filter_nonempty hlink]
  exact parseConnectDeeplink_build links h

end Links

section Secrets

open ConnectInstallSessionStore

variable {api : UrlEditor} {gateway : GatewayListen} {config : ConduitGatewayConfig}
  {S : ConnectInstallSessionStore} {now : ℕ} {token : String}

def ConnectInstallBundle.withoutSecret (bundle : ConnectInstallBundle) : ConnectInstallBundle :=
  { bundle with
    auth :=
      match bundle.auth with
      | .none => .none
      | .bearer _ description headerName tokenPrefix =>
          .bearer "" description headerName tokenPrefix }

theorem respond_withoutSecret (bundleBaseUrl : String) (bundle : ConnectInstallBundle) :
    respond token bundleBaseUrl bundle.withoutSecret = respond token bundleBaseUrl bundle := rfl

theorem buildBundleAuth_some {result : ConnectExportResult} {secret : String} (h : secret ≠ "") :
    buildBundleAuth result (some secret) =
      some (match result.env with
        | [] => .none
        | env :: _ => .bearer secret env.description "Authorization" "Bearer ") := by
  unfold buildBundleAuth
  cases result.env with
  | nil => rfl
  | cons env envs =>
      dsimp only
      rw [filter_nonempty h]
      rfl

theorem bundleOf_secret (options : CreateConnectInstallSessionOptions) {secret secret' : String}
    (h : secret ≠ "") (h' : secret' ≠ "") :
    (bundleOf api gateway config now { options with authSecret := some secret }).map
        ConnectInstallBundle.withoutSecret =
      (bundleOf api gateway config now { options with authSecret := some secret' }).map
        ConnectInstallBundle.withoutSecret := by
  unfold bundleOf
  dsimp only
  cases hexport : exportConnectProfile api gateway config options.toConnectExportOptions with
  | none => rfl
  | some result =>
      simp only [Option.bind_eq_bind, Option.bind_some, buildBundleAuth_some h,
        buildBundleAuth_some h', Option.pure_def, Option.map_some]
      cases result.env with
      | nil => rfl
      | cons env envs => rfl

end Secrets

section Example

open ConnectInstallSessionStore

def installLead : List Char := "conduit://install?".toList

def installUrl (query : List Char) : Url where
  href := String.ofList (installLead ++ query)
  protocol := "conduit:"
  hostname := "install"
  search := String.ofList ('?' :: query)

-- as far as links to install go
def linkApi : DeeplinkApi where
  parse text := (Text.afterPrefix installLead text.toList).map installUrl
  parseRelative _ _ := none
  parse_href := by
    intro text url h
    obtain ⟨query, -, rfl⟩ := Option.map_eq_some_iff.mp h
    rw [installUrl, String.toList_ofList, Text.afterPrefix_append]
    rfl
  parseRelative_href := by
    intro text base url h
    cases h
  parse_install := by
    intro query _
    refine ⟨installUrl query.toList, ?_, rfl, rfl, ?_⟩
    · rw [String.toList_append]
      change (Text.afterPrefix installLead (installLead ++ query.toList)).map installUrl = _
      rw [Text.afterPrefix_append]
      rfl
    · apply String.toList_injective
      rw [installUrl, String.toList_ofList, String.toList_append]
      rfl

def cursorAt (host : String) : CreateConnectInstallSessionOptions where
  target := .cursor
  baseUrl := some ("https://" ++ host)
  bundleBaseUrl := "https://" ++ host

end Example

end Conduit.Connect
