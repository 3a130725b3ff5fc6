import Conduit.Foundation.Fallible
import Conduit.Foundation.Layering
import Conduit.Gateway.Mediation
import Conduit.Proxy.McpClient

namespace Conduit.Proxy

open OrderedMap Gateway

-- header names are compared without regard to case
def fieldName (key : String) : String := String.ofList (key.toList.map Char.toLower)

-- fetch appends a value to what the name already has
def joined : List String → Option String
  | [] => none
  | value :: rest => some (rest.foldl (fun text value => text ++ ", " ++ value) value)

def sent (headers : Headers) (name : String) : Option String :=
  joined ((headers.named fieldName name).map Prod.snd)

-- the foremost of the sources that sets the header says what is sent under its name
def OneSource (sources : List Headers) (headers : Headers) : Prop :=
  ∀ name, match foremost fieldName sources name with
    | none => sent headers name = none
    | some source => ∃ values, values.Perm ((source.named fieldName name).map Prod.snd) ∧
        sent headers name = joined values

def OneSpelling (sources : List Headers) : Prop := ∀ name, Uniform fieldName sources name

section Joining

variable {values values' : List String} {text : String}

theorem length_foldl_joined (rest : List String) (text : String) :
    (rest.foldl (fun text value => text ++ ", " ++ value) text).length =
      text.length + (rest.map fun value => value.length + 2).sum := by
  induction rest generalizing text with
  | nil => rfl
  | cons value rest ih =>
      have hcomma : ", ".length = 2 := rfl
      rw [List.foldl_cons, ih, String.length_append, String.length_append, List.map_cons,
        List.sum_cons, hcomma]
      omega

theorem length_of_joined (h : joined values = some text) :
    text.length + 2 = (values.map fun value => value.length + 2).sum := by
  cases values with
  | nil => cases h
  | cons value rest =>
      obtain rfl := Option.some.inj h
      rw [length_foldl_joined, List.map_cons, List.sum_cons]
      omega

theorem joined_isSome (h : values ≠ []) : ∃ text, joined values = some text := by
  cases values with
  | nil => exact absurd rfl h
  | cons value rest => exact ⟨_, rfl⟩

theorem sum_length_of_joined_eq (h : joined values = joined values') :
    (values.map fun value => value.length + 2).sum =
      (values'.map fun value => value.length + 2).sum := by
  cases htext : joined values with
  | none =>
      have hnil : values = [] := by
        by_contra hne
        obtain ⟨text, hsome⟩ := joined_isSome hne
        rw [htext] at hsome
        cases hsome
      have hnil' : values' = [] := by
        by_contra hne
        obtain ⟨text, hsome⟩ := joined_isSome hne
        rw [← h, htext] at hsome
        cases hsome
      rw [hnil, hnil']
  | some text => rw [← length_of_joined htext, ← length_of_joined (h.symm.trans htext)]

end Joining

theorem oneSource_iff {sources : List Headers} {headers : Headers} (h : headers.Layers sources) :
    OneSource sources headers ↔ OneSpelling sources := by
  refine forall_congr' fun name => ?_
  cases hforemost : foremost fieldName sources name with
  | none =>
      refine iff_of_true ?_ fun first hfirst => ?_
      · change joined _ = none
        rw [h.named_of_none hforemost]
        rfl
      · rw [hforemost] at hfirst
        cases hfirst
  | some source =>
      constructor
      · rintro ⟨values, hperm, hsent⟩
        by_contra hnot
        have hlt := h.sum_named_lt hforemost hnot (w := fun e => e.2.length + 2) (by simp)
        have hsum := sum_length_of_joined_eq hsent
        rw [(hperm.map _).sum_nat, List.map_map, List.map_map] at hsum
        exact absurd hsum.symm (Nat.ne_of_lt hlt)
      · exact fun huniform => ⟨_, (h.named_perm hforemost huniform).map Prod.snd, rfl⟩

section Merging

variable {C : McpClient} {headers : Headers} {sources : List Headers}

def sessionHeaders (sessionId : Option String) : Headers :=
  match sessionId.filter (· ≠ "") with
  | some id => .set .empty "Mcp-Session-Id" id
  | none => .empty

def McpClient.staticHeaders (C : McpClient) : Headers := C.server.headers.getD .empty

theorem layers_withServerHeaders (h : headers.Layers sources) :
    (C.withServerHeaders headers).Layers (C.staticHeaders :: sources) := by
  have hassign := h.assign C.staticHeaders
  unfold McpClient.staticHeaders at hassign ⊢
  unfold McpClient.withServerHeaders
  split
  next serverHeaders hserver =>
    rw [hserver] at hassign ⊢
    exact hassign
  next hserver =>
    rw [hserver] at hassign ⊢
    exact hassign

theorem layers_withSession (h : headers.Layers sources) (sessionId : Option String) :
    (McpClient.withSession headers sessionId).Layers (sessionHeaders sessionId :: sources) := by
  have hassign := h.assign (sessionHeaders sessionId)
  unfold sessionHeaders at hassign ⊢
  unfold McpClient.withSession
  split <;> simp_all only <;> exact hassign

variable (C)

def forwardSources (extra : List Headers) (sessionId : Option String) : List Headers :=
  extra ++ [sessionHeaders (sessionId.or C.sessionId), C.staticHeaders,
    (OrderedMap.empty.set "Content-Type" "application/json").set "Accept"
      "application/json, text/event-stream"]

def openSseSources (extra : List Headers) : List Headers :=
  extra ++ [sessionHeaders C.sessionId, C.staticHeaders,
    OrderedMap.empty.set "Accept" "text/event-stream"]

variable {C}

theorem layers_forwardHeaders {options : UpstreamRequestOptions} {extra : List Headers}
    (h : options.extraHeaders.Layers extra) :
    (C.forwardHeaders options).Layers (forwardSources C extra options.sessionId) := by
  have hbuiltIn := layers_withSession (layers_withServerHeaders (C := C) (layers_self
    ((OrderedMap.empty.set "Content-Type" "application/json").set "Accept"
      "application/json, text/event-stream"))) (options.sessionId.or C.sessionId)
  exact h.append (hbuiltIn.assign options.extraHeaders)

theorem layers_openSseHeaders {extraHeaders : Headers} {extra : List Headers}
    (h : extraHeaders.Layers extra) :
    (C.openSseHeaders extraHeaders).Layers (openSseSources C extra) := by
  have hbuiltIn := layers_withSession (layers_withServerHeaders (C := C) (layers_self
    (OrderedMap.empty.set "Accept" "text/event-stream"))) C.sessionId
  exact h.append (hbuiltIn.assign extraHeaders)

end Merging

theorem not_oneSource {sources : List Headers} {headers : Headers} (name key value : String)
    (h : (foremost fieldName sources name).map (·.named fieldName name) = some [(key, value)])
    (hsent : sent headers name ≠ some value) : ¬ OneSource sources headers := by
  intro hone
  obtain ⟨source, hforemost, hnamed⟩ := Option.map_eq_some_iff.mp h
  have hname := hone name
  rw [hforemost] at hname
  obtain ⟨values, hperm, hvalues⟩ := hname
  rw [hnamed] at hperm
  rw [List.perm_singleton.mp hperm] at hvalues
  exact hsent hvalues

end Conduit.Proxy

namespace Conduit.Identity.IdentityRuntime

variable (I : IdentityRuntime) (server : ServerConfig) (principal : AuthenticatedPrincipal)

def accountHeaders : Headers :=
  let workspaceId := I.resolveWorkspace principal.tenantId
  match I.resolveConnectedAccount server principal workspaceId with
  | .ok (some (account, accessToken)) =>
      let headerTemplates :=
        ((server.upstreamAuth.bind (·.connectedAccount)).bind (·.headers)).getD
          defaultHeaderTemplates
      let values := buildTemplateValues principal workspaceId accessToken account
      headerTemplates.entries.foldl
        (fun headers (headerName, template) =>
          headers.set headerName (interpolateTemplate template values)) .empty
  | _ => .empty

def identityHeaders : Headers :=
  forwardedIdentity server principal (I.resolveWorkspace principal.tenantId)

variable {I server principal}

theorem layers_resolveUpstreamHeaders {headers : Headers}
    (h : I.resolveUpstreamHeaders server principal = .ok headers) :
    headers.Layers [I.accountHeaders server principal, I.identityHeaders server principal] := by
  unfold resolveUpstreamHeaders at h
  unfold accountHeaders
  dsimp only at h ⊢
  cases haccount : I.resolveConnectedAccount server principal
      (I.resolveWorkspace principal.tenantId) with
  | error error =>
      rw [haccount] at h
      cases h
  | ok found =>
      rw [haccount] at h
      cases found with
      | none =>
          obtain rfl := Except.ok.inj h
          exact (OrderedMap.layers_self (I.identityHeaders server principal)).assign .empty
      | some found =>
          obtain ⟨account, accessToken⟩ := found
          obtain rfl := Except.ok.inj h
          intro k
          have hget (headers : Headers) := OrderedMap.get?_foldl_assign
            (f := fun template => interpolateTemplate template (buildTemplateValues principal
              (I.resolveWorkspace principal.tenantId) accessToken account))
            (((server.upstreamAuth.bind (·.connectedAccount)).bind (·.headers)).getD
              defaultHeaderTemplates).nodup headers k
          refine (hget _).trans ?_
          rw [List.findSome?_cons, hget .empty, OrderedMap.get?_empty, Option.or_none,
            ← OrderedMap.layers_self (I.identityHeaders server principal) k]
          cases Option.map _ _ <;> rfl

end Conduit.Identity.IdentityRuntime

namespace Conduit.Gateway

open OrderedMap Proxy
open Identity (IdentityRuntime AuthenticatedPrincipal)

def traceHeaders (context : RequestContext) : Headers :=
  let traced : Headers := .set .empty "X-Conduit-Trace-Id" context.traceId
  match context.groupHeader.filter (· ≠ "") with
  | some group => traced.set "X-Conduit-Group" group
  | none => traced

-- the client's own header, where the server is configured to be given it
def clientHeaders (authHeader : Option String) (serverConfig : ServerConfig) : Headers :=
  match authHeader.filter (· ≠ "") with
  | some authHeader =>
      if serverConfig.upstreamAuth.isNone && serverConfig.forwardAuthorization then
        .set .empty "Authorization" authHeader
      else .empty
  | none => .empty

-- what the route for server notifications adds to its request
def sseExtraHeaders (traceId : String) (authHeader : Option String) (server : ServerConfig) :
    Headers :=
  let extraHeaders : Headers := .set .empty "X-Conduit-Trace-Id" traceId
  if server.forwardAuthorization && server.upstreamAuth.isNone then
    match authHeader.filter (· ≠ "") with
    | some authHeader => extraHeaders.set "Authorization" authHeader
    | none => extraHeaders
  else extraHeaders

def sseSources (traceId : String) (authHeader : Option String) (server : ServerConfig) :
    List Headers :=
  [clientHeaders authHeader server, .set .empty "X-Conduit-Trace-Id" traceId]

section Unauthenticated

variable {I : IdentityRuntime} {server : ServerConfig} {principal : AuthenticatedPrincipal}

theorem accountHeaders_of_none (h : server.upstreamAuth = none) :
    I.accountHeaders server principal = .empty := by
  simp only [IdentityRuntime.accountHeaders, IdentityRuntime.resolveConnectedAccount, h,
    Option.bind_none]

theorem identityHeaders_of_none (h : server.upstreamAuth = none) :
    I.identityHeaders server principal = .empty := by
  simp only [IdentityRuntime.identityHeaders, IdentityRuntime.forwardedIdentity, h,
    Option.bind_none]

theorem get?_traceHeaders (context : RequestContext) :
    (traceHeaders context).get? "Authorization" = none := by
  unfold traceHeaders
  split <;> simp [get?_set]

theorem layers_sseExtraHeaders (traceId : String) (authHeader : Option String) :
    (sseExtraHeaders traceId authHeader server).Layers (sseSources traceId authHeader server) := by
  have htrace := layers_self (OrderedMap.empty.set "X-Conduit-Trace-Id" traceId)
  have hassign := htrace.assign (clientHeaders authHeader server)
  unfold sseSources
  unfold clientHeaders at hassign ⊢
  unfold sseExtraHeaders
  rw [Bool.and_comm]
  cases hauth : authHeader.filter (· ≠ "") with
  | none =>
      rw [hauth] at hassign
      rw [ite_self]
      exact hassign
  | some header =>
      rw [hauth] at hassign
      dsimp only at hassign ⊢
      split
      next henabled =>
        rw [if_pos henabled] at hassign
        exact hassign
      next hdisabled =>
        rw [if_neg hdisabled] at hassign
        exact hassign

end Unauthenticated

namespace RequestPipeline

variable (P : RequestPipeline) (call : ToolCall) (serverConfig : ServerConfig)

def extraSources : List Headers :=
  [P.identityRuntime.accountHeaders serverConfig call.principal,
    P.identityRuntime.identityHeaders serverConfig call.principal,
    clientHeaders call.context.authHeader serverConfig, traceHeaders call.context]

variable {P call serverConfig}

theorem layers_buildExtraHeaders {extra : Headers}
    (h : P.buildExtraHeaders call serverConfig = .ok extra) :
    extra.Layers (P.extraSources call serverConfig) := by
  unfold buildExtraHeaders at h
  obtain ⟨resolved, hresolved, hextra⟩ := Except.bind_eq_ok_iff.1 h
  have hlayers := (IdentityRuntime.layers_resolveUpstreamHeaders hresolved).append
    ((layers_self (traceHeaders call.context)).assign resolved)
  unfold extraSources clientHeaders
  cases hauth : call.context.authHeader.filter (· ≠ "") with
  | none =>
      rw [hauth] at hextra
      obtain rfl := Except.ok.inj hextra
      exact hlayers.insert_empty
  | some authHeader =>
      rw [hauth] at hextra
      dsimp only at hextra ⊢
      by_cases hforwards : (serverConfig.upstreamAuth.isNone && serverConfig.forwardAuthorization) = true
      · have hnone : serverConfig.upstreamAuth = none :=
          Option.isNone_iff_eq_none.mp ((Bool.and_eq_true _ _).mp hforwards).1
        rw [accountHeaders_of_none hnone, identityHeaders_of_none hnone] at hlayers ⊢
        have hunset : (traceHeaders call.context |>.assign resolved).has "Authorization" = false := by
          rw [has, Bool.eq_false_iff, Headers.assign, hlayers]
          simp [List.findSome?_cons, get?_traceHeaders]
        have hset : (serverConfig.upstreamAuth.isNone && serverConfig.forwardAuthorization &&
            !(traceHeaders call.context |>.assign resolved).has "Authorization") = true := by
          rw [hforwards, hunset]
          rfl
        obtain rfl := Except.ok.inj ((if_pos hset).symm.trans hextra)
        rw [if_pos hforwards]
        exact hlayers.assign (.set .empty "Authorization" authHeader)
      · rw [if_neg hforwards]
        rw [if_neg fun h => hforwards ((Bool.and_eq_true _ _).mp h).1] at hextra
        obtain rfl := Except.ok.inj hextra
        exact hlayers.insert_empty

end RequestPipeline

theorem upstream_headers (C : McpClient) :
    (∀ P call serverConfig extra body sessionId,
      RequestPipeline.buildExtraHeaders P call serverConfig = .ok extra →
      (OneSource (forwardSources C (P.extraSources call serverConfig) sessionId)
          (C.forwardHeaders ⟨body, extra, sessionId⟩) ↔
        OneSpelling (forwardSources C (P.extraSources call serverConfig) sessionId))) ∧
    (∀ P call serverConfig extra, RequestPipeline.buildExtraHeaders P call serverConfig = .ok extra →
      (OneSource (openSseSources C (P.extraSources call serverConfig)) (C.openSseHeaders extra) ↔
        OneSpelling (openSseSources C (P.extraSources call serverConfig)))) ∧
    ∀ traceId authHeader server,
      OneSource (openSseSources C (sseSources traceId authHeader server))
          (C.openSseHeaders (sseExtraHeaders traceId authHeader server)) ↔
        OneSpelling (openSseSources C (sseSources traceId authHeader server)) := by
  refine ⟨fun P call serverConfig extra body sessionId h => oneSource_iff ?_,
    fun P call serverConfig extra h => oneSource_iff ?_,
    fun traceId authHeader server => oneSource_iff ?_⟩
  · exact layers_forwardHeaders (RequestPipeline.layers_buildExtraHeaders h)
  · exact layers_openSseHeaders (RequestPipeline.layers_buildExtraHeaders h)
  · exact layers_openSseHeaders (layers_sseExtraHeaders traceId authHeader)

section Example

-- a server with credentials of its own that is also given those of the client
def credentialed : ServerConfig where
  id := "crm"
  url := "http://crm"
  headers := some (.set .empty "authorization" "Basic c2hvcA==")
  forwardAuthorization := true

def credentialedPipeline : RequestPipeline where
  host := plainHost
  config := { servers := [credentialed] }

def agentCall : ToolCall where
  self := 0
  serverId := "crm"
  message := .null
  context := { traceId := "t", authHeader := some "Bearer agent", rawHeaders := .empty }
  principal := { clientId := "agent-7", tenantId := "acme" }

def agentHeaders : Headers :=
  (OrderedMap.empty.set "X-Conduit-Trace-Id" "t").set "Authorization" "Bearer agent"

theorem authorization_of_two_sources :
    credentialedPipeline.buildExtraHeaders agentCall credentialed = .ok agentHeaders ∧
    sent ((McpClient.init credentialed none).forwardHeaders ⟨.null, agentHeaders, none⟩)
      "authorization" = some "Basic c2hvcA==, Bearer agent" ∧
    ¬ OneSource (forwardSources (McpClient.init credentialed none)
        (credentialedPipeline.extraSources agentCall credentialed) none)
      ((McpClient.init credentialed none).forwardHeaders ⟨.null, agentHeaders, none⟩) ∧
    ¬ OneSource (openSseSources (McpClient.init credentialed none)
        (sseSources "t" (some "Bearer agent") credentialed))
      ((McpClient.init credentialed none).openSseHeaders
        (sseExtraHeaders "t" (some "Bearer agent") credentialed)) := by
  refine ⟨rfl, by decide +kernel,
    not_oneSource "authorization" "Authorization" "Bearer agent" ?_ ?_,
    not_oneSource "authorization" "Authorization" "Bearer agent" ?_ ?_⟩
  all_goals decide +kernel

end Example

end Conduit.Gateway
