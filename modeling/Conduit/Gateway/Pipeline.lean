import Conduit.Cache.Policy
import Conduit.Gateway.Operations

namespace Conduit.Gateway

open Router Governance Cache Proxy Identity Program

def governanceDeniedCode : ℤ := -32010

def approvalRequiredCode : ℤ := -32011

def governanceQuotaCode : ℤ := -32012

def approvalHeader : String := "x-conduit-approval-id"

structure RequestPipeline where
  host : Host
  config : ConduitGatewayConfig
  identityStore : Option IdentityStore := none
  hasGovernanceStore : Bool := false
  hasRateLimiter : Bool := false
  hasL2Cache : Bool := false
  l2TtlMultiplier : ℚ := 3
  hasPlugins : Bool := false

structure ToolCall where
  self : CallId
  serverId : String
  message : Json
  context : RequestContext
  principal : AuthenticatedPrincipal

namespace ToolCall

variable (call : ToolCall)

def clientId : String := call.principal.clientId

def toolName : String := (extractToolName call.message).getD ""

def toolArgs : List (String × Json) := extractToolArgs call.message

def profileId : Option String := (Connect.extractProfileIdFromTarget call.serverId).filter (· ≠ "")

-- the server whose client is asked for directly, unless the target is a profile
def directServerId : Option String :=
  match call.profileId with
  | none => some call.serverId
  | some _ => none

def approvalId : Option String := (call.context.rawHeaders.get? approvalHeader).filter (· ≠ "")

def respond (body : Json) : Outcome := .answered { body := body }

def refusal (code : ℤ) (message : String) (data : Option Json) : Outcome :=
  respond (buildJsonRpcError (messageId call.message) code message data)

def refuse (code : ℤ) (message : String) (data : Option Json) : Proc Unit :=
  .exit (call.refusal code message data)

def limited (code : ℤ) (message : String) (data : Option Json) (retryAfter : ℤ) : Proc Unit :=
  .exit (.answered
    { body := buildJsonRpcError (messageId call.message) code message data
      retryAfter := some retryAfter })

end ToolCall

namespace Resolution

variable (resolution : Resolution) (serverId toolName : String)

def actual : ToolTarget :=
  match resolution.directClient with
  | some _ =>
      ⟨serverId,
        match resolution.resolvedToolName with
        | some resolved => if resolved.serverId = serverId then resolved.toolName else toolName
        | none => toolName⟩
  | none =>
      match resolution.resolvedCall with
      | some routed => ⟨routed.serverId, routed.toolName⟩
      | none => ⟨serverId, toolName⟩

def routed? : Option RoutedRequest :=
  match resolution.directClient with
  | some client =>
      some ⟨serverId, (resolution.actual serverId toolName).toolName, client⟩
  | none => resolution.resolvedCall

end Resolution

def buildForwardMessage (message : Json) (actualToolName : String) : Json :=
  match params? message with
  | none => message
  | some params =>
      if params.get? "name" = some (.str actualToolName) then message
      else
        .obj (Json.setField message.spread "params"
          (.obj (Json.setField params.spread "name" (.str actualToolName))))

structure Service where
  actual : ToolTarget
  client : ClientRef
  serverConfig : ServerConfig
  policy : CachePolicyDecision

inductive Exchange where
  | identityError (message : String)
  | failed (message : String)
  | completed (result : CoreResult)

def upstreamError : Json → Option (Json × Json)
  | body =>
      ((body.get? "error").filter Json.truthy).map fun error =>
        (((error.get? "code").filter (· ≠ .null)).getD (ofInt internalError),
          ((error.get? "message").filter (· ≠ .null)).getD (.str "Upstream error"))

def upstreamResult (body : Json) : Json :=
  ((body.get? "result").filter (· ≠ .null)).getD (.obj [])

def settlementOf : Exchange → Settlement
  | .identityError message => .identityError message
  | .failed message => .failed message
  | .completed result =>
      match upstreamError result.body with
      | some (code, message) => .rpcError code message
      | none => .resolved (upstreamResult result.body)

namespace RequestPipeline

variable (P : RequestPipeline) (call : ToolCall)

def identityRuntime : IdentityRuntime := ⟨P.config.identity, P.identityStore⟩

def governanceRuntime : GovernanceRuntime := ⟨P.config.governance, P.hasGovernanceStore⟩

def limitsRequests : Bool := (P.config.rateLimits.any (·.enabled)) && P.hasRateLimiter

def workspaceId : String := P.identityRuntime.resolveWorkspace call.principal.tenantId

def workspaceRoles : List WorkspaceRole :=
  P.governanceRuntime.getRolesForClient (P.workspaceId call) call.clientId

def runHook (name : HookName) : Proc Unit :=
  if P.hasPlugins then do
    match ← perform (.runHook name) with
    | some response => exit (.answered { response with origin := none })
    | none => return
  else return

-- an unknown profile makes the source throw
def getProfileServerIdSet : Proc (Option (List String)) :=
  match call.profileId with
  | none => return none
  | some profileId =>
      match P.config.resolveConnectProfile profileId with
      | some profile => return some (profile.servers.map ServerConfig.id)
      | none => exit (.thrown s!"Unknown connect profile \"{profileId}\"" none)

def checkProfile (profileServerIds : Option (List String)) (actual : ToolTarget) : Proc Unit :=
  match profileServerIds with
  | none => return
  | some serverIds =>
      if actual.serverId ∈ serverIds then return
      else call.refuse methodNotFound
        ("Outil introuvable dans le profil \"" ++ call.profileId.getD "" ++
          s!"\" : {call.toolName}") none

def aclDecision (acl : Auth.AclConfig) (actual : ToolTarget) : Auth.AclDecision :=
  Auth.evaluateAcl call.clientId actual.serverId actual.toolName acl.policies acl.defaultAction

def checkAcl (actual : ToolTarget) : Proc Unit :=
  match P.config.acl.filter (·.enabled) with
  | none => return
  | some acl =>
      if (aclDecision call acl actual).allowed then return
      else call.refuse (-32000)
        (s!"Access denied: client '{call.clientId}' is not allowed to call " ++
          s!"'{actual.toolName}' on server '{actual.serverId}'") none

def approvalQuery (actual : ToolTarget) (approvalId : String) : GovernanceApprovalGrantQuery where
  approvalId := approvalId
  workspaceId := P.workspaceId call
  requesterClientId := call.clientId
  serverId := actual.serverId
  toolName := actual.toolName
  requestFingerprint :=
    buildRequestFingerprint P.host actual.serverId actual.toolName call.toolArgs

def verifyApprovalGrant (actual : ToolTarget) (approvalId : String) :
    Proc (Option GovernanceApprovalRequestSummary) :=
  if P.hasGovernanceStore then perform (.verifyApprovalGrant (P.approvalQuery call actual approvalId))
  else return none

def approvalInput (actual : ToolTarget) (source : ApprovalSource) (ruleName reason : String) :
    CreateGovernanceApprovalRequestInput where
  source := source
  workspaceId := P.workspaceId call
  requesterClientId := call.clientId
  serverId := actual.serverId
  toolName := actual.toolName
  ruleName := ruleName
  reason := reason
  traceId := call.context.traceId
  requestFingerprint :=
    buildRequestFingerprint P.host actual.serverId actual.toolName call.toolArgs
  toolArgs := call.toolArgs

def buildApprovalErrorData (approval : GovernanceApprovalRequestSummary) : Json :=
  .obj [("approval_request_id", .str approval.id), ("status", .str approval.status.name),
    ("workspace_id", .str approval.workspaceId), ("approval_header", .str "X-Conduit-Approval-Id"),
    ("expires_at", .str approval.expiresAt)]

def requestApproval (actual : ToolTarget) (source : ApprovalSource) (ruleName reason : String) :
    Proc Unit :=
  if P.hasGovernanceStore then do
    let approval ← perform (.createApprovalRequest (P.approvalInput call actual source ruleName reason))
    call.refuse approvalRequiredCode reason (some (buildApprovalErrorData approval))
  else exit (.thrown "Governance store is disabled" none)

def enforceApprovalRequirement (actual : ToolTarget) (source : ApprovalSource)
    (ruleName reason : String) : Proc Unit :=
  match call.approvalId with
  | some approvalId => do
      match ← P.verifyApprovalGrant call actual approvalId with
      | some _ => return
      | none =>
          call.refuse approvalRequiredCode
            "Approval token is invalid, expired, or does not match this request"
            (some (.obj [("workspace_id", .str (P.workspaceId call)),
              ("approval_header", .str "X-Conduit-Approval-Id")]))
  | none => P.requestApproval call actual source ruleName reason

def toolSubject (actual : ToolTarget) : GovernanceToolSubject where
  workspaceId := P.workspaceId call
  clientId := call.clientId
  roles := P.workspaceRoles call
  serverId := actual.serverId
  toolName := actual.toolName

def toolPolicy (actual : ToolTarget) : GovernanceToolPolicyDecision :=
  P.governanceRuntime.evaluateToolPolicy (P.toolSubject call actual)

def nameOr (name fallback : String) : String := if name = "" then fallback else name

def checkToolPolicy (actual : ToolTarget) : Proc Unit :=
  if P.governanceRuntime.isEnabled then
    let decision := P.toolPolicy call actual
    match decision.effect with
    | .allow => return
    | .deny =>
        call.refuse governanceDeniedCode decision.reason
          (some (.obj [("workspace_id", .str (P.workspaceId call)),
            ("policy_name", .str decision.policyName),
            ("roles", .arr ((P.workspaceRoles call).map fun role => .str role.name))]))
    | .requireApproval =>
        P.enforceApprovalRequirement call actual .governance
          (nameOr decision.policyName "governance") decision.reason
  else return

def consumeWorkspaceQuota : Proc Unit :=
  if P.governanceRuntime.isEnabled then do
    let quota ← perform (.consumeWorkspaceQuota (P.workspaceId call))
    if quota.allowed then return
    else
      call.limited governanceQuotaCode
        ("Workspace quota exceeded: " ++ quota.blockedBy.getD "workspace")
        (some (.obj [("workspace_id", .str (P.workspaceId call)),
          ("retry_after", ofInt (quota.retryAfter.getD 60))]))
        (quota.retryAfter.getD 60)
  else return

def guardrailContext (actual : ToolTarget) : Guardrails.GuardrailContext where
  clientId := call.clientId
  serverId := actual.serverId
  toolName := actual.toolName
  toolArgs := call.toolArgs

def guardrailDecision (guardrails : Guardrails.GuardrailsConfig) (actual : ToolTarget) :
    Guardrails.GuardrailDecision :=
  Guardrails.evaluateGuardrails P.host (guardrailContext call actual) guardrails

def checkGuardrails (actual : ToolTarget) : Proc Unit :=
  match P.config.guardrails.filter (·.enabled) with
  | none => return
  | some guardrails =>
      let decision := P.guardrailDecision call guardrails actual
      match decision.action with
      | .block => call.refuse (-32000) decision.reason none
      | .requireApproval =>
          P.enforceApprovalRequirement call actual .guardrail
            (nameOr decision.ruleName "guardrail") decision.reason
      | .alert => return
      | .transform => return
      | .allow => return

def checkLimit (decision : LimitDecision) (scope : String) : Proc Unit :=
  if decision.allowed then return
  else
    call.limited (-32000)
      (s!"Rate limit exceeded: {decision.blockedBy.getD scope}. " ++
        s!"Retry after {decision.retryAfter.getD 60} seconds")
      none (decision.retryAfter.getD 60)

def consumeClientLimits : Proc Unit :=
  if P.limitsRequests then do
    let decision ← perform (.consumeClientLimits call.clientId)
    checkLimit call decision "client"
  else return

def consumeServerLimits (actual : ToolTarget) : Proc Unit :=
  if P.limitsRequests then do
    let decision ← perform (.consumeServerLimits call.clientId actual.serverId actual.toolName)
    checkLimit call decision "server"
  else return

-- every check that a call passes before it is routed
def check (profileServerIds : Option (List String)) (actual : ToolTarget) : Proc Unit := do
  checkProfile call profileServerIds actual
  P.checkAcl call actual
  P.checkToolPolicy call actual
  P.consumeWorkspaceQuota call
  P.checkGuardrails call actual
  P.consumeClientLimits call

def buildExtraHeaders (serverConfig : ServerConfig) : Except String Identity.Headers := do
  let traced : Identity.Headers := .set .empty "X-Conduit-Trace-Id" call.context.traceId
  let grouped :=
    match call.context.groupHeader.filter (· ≠ "") with
    | some group => traced.set "X-Conduit-Group" group
    | none => traced
  let resolved ← P.identityRuntime.resolveUpstreamHeaders serverConfig call.principal
  let extra := resolved.entries.foldl (fun extra e => extra.set e.1 e.2) grouped
  match call.context.authHeader.filter (· ≠ "") with
  | some authHeader =>
      if serverConfig.upstreamAuth.isNone && serverConfig.forwardAuthorization &&
          !extra.has "Authorization" then
        return extra.set "Authorization" authHeader
      else return extra
  | none => return extra

def completed (response : UpstreamResponse) : CoreResult where
  body := if response.isStream then .null else response.body
  upstreamSessionId := response.sessionId
  isStream := response.isStream
  rawResponse := if response.isStream then response.rawResponse else none
  origin := some call.self

def passthroughToServer (message : Json) (client : ClientRef) (serverConfig : ServerConfig) :
    Proc Exchange :=
  match P.buildExtraHeaders call serverConfig with
  | .error error => return .identityError error
  | .ok extraHeaders => do
      let options : UpstreamRequestOptions := ⟨message, extraHeaders, call.context.sessionId⟩
      match ← perform (.forward client options) with
      | .error error => return .failed error
      | .ok response => return .completed (completed call response)

def identityFailure (message : String) (origin : CallId) : Outcome :=
  .answered
    { body := buildJsonRpcError (messageId call.message) (-32000) message none
      origin := some origin }

def invalidateTool (serverId toolName : String) : Proc Unit := do
  perform (.l1DeleteByTool toolName serverId)
  if P.hasL2Cache then perform (.l2DeleteByTool toolName serverId) else return

def invalidateAll (serverId : String) : List String → Proc Unit
  | [] => return
  | toolName :: rest => do
      P.invalidateTool serverId toolName
      invalidateAll serverId rest

def invalidate (serverId : String) (policy : CachePolicyDecision) : Proc Unit :=
  if policy.isDestructive && policy.invalidates ≠ [] then
    P.invalidateAll serverId policy.invalidates
  else return

def callUpstream (service : Service) : Proc Outcome := do
  P.consumeServerLimits call service.actual
  match ← P.passthroughToServer call (buildForwardMessage call.message service.actual.toolName)
      service.client service.serverConfig with
  | .identityError message => return identityFailure call message call.self
  | .failed message => return .thrown message (some call.self)
  | .completed result =>
      return .answered
        { result with cacheStatus := some (if result.isStream then .bypass else .skip) }

def authIsActive : Bool := P.config.auth.any fun auth => auth.method ≠ .none

def resolvedTenantId : Option String :=
  if P.config.tenantIsolation.enabled then
    let tenantHeader :=
      String.ofList (P.config.tenantIsolation.header.toList.map Char.toLower)
    let tenantId := call.principal.tenantId
    if P.authIsActive then some tenantId
    else if tenantHeader = "authorization" then
      some ((extractTenantId P.host call.context.authHeader).getD tenantId)
    else some ((call.context.rawHeaders.get? tenantHeader).getD tenantId)
  else none

def cacheKey (service : Service) : CacheKeyOptions where
  serverId := service.actual.serverId
  toolName := service.actual.toolName
  args := call.toolArgs
  ignoreArgs := service.policy.ignoreArgs
  tenantId := P.resolvedTenantId call
  groupId := call.context.groupHeader

def hit (entry : CacheEntry) : Outcome :=
  .answered
    { body := buildJsonRpcResult (messageId call.message) entry.result
      cacheStatus := some .hit
      origin := some entry.origin }

def lookup (key : CacheKeyOptions) : Proc Unit := do
  match ← perform (.l1Get key) with
  | some entry => exit (hit call entry)
  | none => return

def lookupL2 (key : CacheKeyOptions) : Proc Unit :=
  if P.hasL2Cache then do
    match ← perform (.l2Get key) with
    | some entry => do
        perform (.l1Set key entry)
        exit (hit call entry)
    | none => return
  else return

def deduplicate (key : CacheKeyOptions) (factory : Proc Settlement) : Proc FlightResult := do
  match ← perform (.enterFlight key) with
  | .joined flight => perform (.awaitFlight flight)
  | .started flight => do
      let settlement ← factory
      perform (.settleFlight flight ⟨settlement, call.self⟩)
      perform (.awaitFlight flight)

def fetch (service : Service) : Proc Settlement := do
  let exchange ← P.passthroughToServer call
    (buildForwardMessage call.message service.actual.toolName) service.client service.serverConfig
  return settlementOf exchange

def isToolError (content : Json) : Bool := content.get? "isError" = some (.bool true)

def store (key : CacheKeyOptions) (entry : CacheEntry) : Proc Unit := do
  perform (.l1Set key entry)
  if P.hasL2Cache then perform (.l2Set key entry (entry.ttl * P.l2TtlMultiplier)) else return

def contentOf (result : FlightResult) : Proc Json :=
  match result.settlement with
  | .resolved content => return content
  | .identityError message => exit (identityFailure call message result.origin)
  | .rpcError code message =>
      exit (.answered
        { body := .obj [("jsonrpc", .str "2.0"), ("id", messageId call.message),
            ("error", .obj [("code", code), ("message", message)])]
          origin := some result.origin })
  | .failed message => exit (.thrown message (some result.origin))

def newEntry (service : Service) (content : Json) (createdAt : ℕ) (origin : CallId) :
    CacheEntry where
  result := content
  createdAt := createdAt
  ttl := service.policy.ttl.getD service.serverConfig.cache.defaultTtl
  toolName := service.actual.toolName
  serverId := service.actual.serverId
  origin := origin

def respondWith (content : Json) (status : CacheStatus) (origin : CallId) : Outcome :=
  .answered
    { body := buildJsonRpcResult (messageId call.message) content
      cacheStatus := some status
      origin := some origin }

def storeAndRespond (service : Service) (content : Json) (origin : CallId) : Proc Outcome := do
  let createdAt ← perform .now
  P.store (P.cacheKey call service) (newEntry service content createdAt origin)
  P.runHook .beforeResponse
  return respondWith call content .miss origin

def callThroughCache (service : Service) : Proc Outcome := do
  P.runHook .beforeCache
  lookup call (P.cacheKey call service)
  P.lookupL2 call (P.cacheKey call service)
  P.consumeServerLimits call service.actual
  let result ← deduplicate call (P.cacheKey call service) (P.fetch call service)
  let content ← contentOf call result
  P.runHook .afterUpstream
  if isToolError content then return respondWith call content .skipError result.origin
  else P.storeAndRespond call service content result.origin

def dispatch (service : Service) : Proc Outcome := do
  P.invalidate service.actual.serverId service.policy
  if service.policy.shouldCache && P.config.cache.enabled then P.callThroughCache call service
  else P.callUpstream call service

def routeCall (resolution : Resolution) : Proc RoutedRequest :=
  match resolution.routed? call.serverId call.toolName with
  | some routed => return routed
  | none => exit (call.refusal methodNotFound s!"Outil introuvable : {call.toolName}" none)

def findServerConfig (serverId : String) : Proc ServerConfig :=
  match P.config.server? serverId with
  | some serverConfig => return serverConfig
  | none =>
      exit (call.refusal internalError s!"Configuration manquante pour : {serverId}" none)

-- the first half of handleToolCall: resolution, checks, routing and cache policy
def admission : Proc Service := do
  let profileServerIds ← P.getProfileServerIdSet call
  let resolution ← perform (.resolve call.directServerId call.toolName)
  let actual := resolution.actual call.serverId call.toolName
  P.check call profileServerIds actual
  let routed ← routeCall call resolution
  let annotations ← perform (.getAnnotations actual.serverId actual.toolName)
  let serverConfig ← P.findServerConfig call actual.serverId
  return ⟨actual, routed.client, serverConfig,
    decideCachePolicy actual.toolName annotations serverConfig.cache⟩

def handleToolCall : Proc Outcome := do
  let service ← P.admission call
  P.dispatch call service

end RequestPipeline

end Conduit.Gateway
