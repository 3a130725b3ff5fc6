import Conduit.Gateway.Pipeline

namespace Conduit.Gateway

open Router Governance Proxy Identity Program

structure Request where
  self : CallId
  serverId : String
  message : Json
  context : RequestContext

def annotationHint (value : Json) (key : String) : Option Bool :=
  match value.get? key with
  | some (.bool b) => some b
  | _ => none

def toolAnnotations (value : Json) : ToolAnnotations where
  readOnlyHint := annotationHint value "readOnlyHint"
  idempotentHint := annotationHint value "idempotentHint"
  destructiveHint := annotationHint value "destructiveHint"
  openWorldHint := annotationHint value "openWorldHint"

def toolMetadata (tool : Json) : ToolMetadata where
  name := ((tool.get? "name").bind Json.asString?).getD ""
  description := (tool.get? "description").bind Json.asString?
  inputSchema := tool.get? "inputSchema"
  annotations := (tool.get? "annotations").map toolAnnotations

def annotationFields (annotations : ToolAnnotations) : List (String × Json) :=
  [("readOnlyHint", annotations.readOnlyHint), ("idempotentHint", annotations.idempotentHint),
    ("destructiveHint", annotations.destructiveHint),
    ("openWorldHint", annotations.openWorldHint)].filterMap fun e => e.2.map fun b => (e.1, .bool b)

def listedTool (tool : AggregatedTool) : Json :=
  .obj ([("name", .str tool.namespacedName)] ++
    (tool.toolDef.description.map fun d => ("description", Json.str d)).toList ++
    (tool.toolDef.inputSchema.map fun schema => ("inputSchema", schema)).toList ++
    (tool.toolDef.annotations.map fun a => ("annotations", Json.obj (annotationFields a))).toList)

-- the tools array of a tools/list answer
def tools? (body : Json) : Option (List Json) :=
  match (body.get? "result").bind (·.get? "tools") with
  | some (.arr tools) => some tools
  | _ => none

def withTools (body : Json) (tools : List Json) : Json :=
  .obj (Json.setField body.spread "result"
    (.obj (Json.setField (((body.get? "result").map Json.spread).getD []) "tools" (.arr tools))))

namespace RequestPipeline

variable (P : RequestPipeline) (call : ToolCall)

def missingConfiguration : Outcome :=
  call.refusal internalError s!"Configuration manquante pour : {call.serverId}" none

def aclAllows (actual : ToolTarget) : Bool :=
  match P.config.acl.filter (·.enabled) with
  | none => true
  | some acl => (aclDecision call acl actual).allowed

def canView (actual : ToolTarget) : Bool :=
  P.aclAllows call actual &&
    (!P.governanceRuntime.isEnabled || P.governanceRuntime.canViewTool (P.toolSubject call actual))

def filterTools (tools : List Json) : List Json :=
  tools.filter fun tool => P.canView call ⟨call.serverId, (toolMetadata tool).name⟩

def recordTools (tools : List Json) : Proc Unit :=
  if tools.contains .null then
    exit (.thrown "Cannot read properties of null (reading 'name')" none)
  else perform (.updateAnnotations call.serverId (tools.map toolMetadata))

def listFromServer (client : ClientRef) : Proc Outcome :=
  match P.config.server? call.serverId with
  | none => return missingConfiguration call
  | some serverConfig => do
      match ← P.passthroughToServer call call.message client serverConfig with
      | .identityError message => return identityFailure call message call.self
      | .failed message => return .thrown message (some call.self)
      | .completed result =>
          match tools? result.body with
          | none =>
              return .answered
                { body := result.body, cacheStatus := some .bypass, origin := result.origin }
          | some tools => do
              recordTools call tools
              return .answered
                { body := withTools result.body (P.filterTools call tools)
                  cacheStatus := some .bypass
                  origin := result.origin }

def visibleTools (profileServerIds : Option (List String)) (tools : List AggregatedTool) :
    List AggregatedTool :=
  tools.filter fun tool =>
    (match profileServerIds with
      | none => true
      | some serverIds => serverIds.contains tool.serverId) &&
      P.canView call ⟨tool.serverId, tool.toolName⟩

def toolsListing (tools : List AggregatedTool) : Outcome :=
  .answered
    { body := buildJsonRpcResult (messageId call.message)
        (.obj [("tools", .arr (tools.map listedTool))])
      cacheStatus := some .bypass }

def handleToolsList : Proc Outcome := do
  let profileServerIds ← P.getProfileServerIdSet call
  match ← perform (.getClientForServer call.serverId), profileServerIds with
  | some client, none => P.listFromServer call client
  | _, profileServerIds => do
      let tools ← perform .getAggregatedTools
      return toolsListing call (P.visibleTools call profileServerIds tools)

def profileVersion : String := "1.1.0"

def profileProtocolVersion : String := "2024-11-05"

def initializeResult (profile : Connect.ResolvedConnectProfile) : Json :=
  .obj [("protocolVersion", .str profileProtocolVersion),
    ("capabilities", .obj [("tools", .obj [("listChanged", .bool false)])]),
    ("serverInfo", .obj [("name", .str ("conduit-profile-" ++ profile.id)),
      ("title", .str ("Conduit " ++ profile.label)), ("version", .str profileVersion)])]

def handleProfilePassthrough (profileId : String) : Proc Outcome :=
  match method? call.message with
  | some "initialize" =>
      match P.config.resolveConnectProfile profileId with
      | none => exit (.thrown s!"Unknown connect profile \"{profileId}\"" none)
      | some profile =>
          return .answered
            { body := buildJsonRpcResult (messageId call.message) (initializeResult profile)
              cacheStatus := some .bypass
              upstreamSessionId := some ("conduit-profile-" ++ profile.id) }
  | some "notifications/initialized" =>
      return .answered
        { body := buildJsonRpcResult (messageId call.message) (.obj [("acknowledged", .bool true)])
          cacheStatus := some .bypass }
  | method =>
      return call.refusal methodNotFound
        ("La méthode " ++ method.getD "unknown" ++ " n'est pas prise en charge sur " ++
          s!"/mcp/profile/{profileId}") none

def handlePassthrough : Proc Outcome :=
  match call.profileId with
  | some profileId => P.handleProfilePassthrough call profileId
  | none => do
      match ← perform (.getClientForServer call.serverId) with
      | none =>
          return call.refusal internalError s!"Serveur indisponible : {call.serverId}" none
      | some client =>
          match P.config.server? call.serverId with
          | none => return missingConfiguration call
          | some serverConfig => do
              match ← P.passthroughToServer call call.message client serverConfig with
              | .identityError message => return identityFailure call message call.self
              | .failed message => return .thrown message (some call.self)
              | .completed result => return .answered { result with cacheStatus := some .bypass }

def authResult (headers : Auth.Headers) : Auth.AuthResult :=
  match P.config.auth with
  | none => { authenticated := true, clientId := "anonymous", tenantId := "default" }
  | some auth => Auth.authenticate P.host headers auth

def authenticationFailed (request : Request) (auth : Auth.AuthResult) : Outcome :=
  ToolCall.respond (buildJsonRpcError (messageId request.message) (-32000)
    ("Authentication failed: " ++ auth.error.getD "Authentification échouée") none)

def toolCall (request : Request) (auth : Auth.AuthResult) : ToolCall where
  self := request.self
  serverId := request.serverId
  message := request.message
  context := request.context
  principal :=
    { clientId := auth.clientId
      tenantId := auth.tenantId
      authHeader := request.context.authHeader.filter (· ≠ "")
      claims := auth.claims }

def handleMethod : Proc Outcome :=
  match method? call.message with
  | some "tools/call" => P.handleToolCall call
  | some "tools/list" => P.handleToolsList call
  | _ => P.handlePassthrough call

def handle (request : Request) : Proc Outcome := do
  P.runHook .beforeRequest
  let auth := P.authResult request.context.rawHeaders
  if auth.authenticated then do
    P.runHook .afterAuth
    P.handleMethod (toolCall request auth)
  else return authenticationFailed request auth

end RequestPipeline

end Conduit.Gateway
