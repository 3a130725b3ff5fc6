import Conduit.Gateway.Mediation
import Conduit.Observability.Trace

namespace Conduit.Proxy

open Gateway Observability

def maxRequestBodyBytes : ℕ := 10 * 1024 * 1024

def cacheStatusHeader : String := "X-Conduit-Cache-Status"

def serverIdHeader : String := "X-Conduit-Server-Id"

inductive Route where
  | postServer (serverId : String)
  | postProfile (profileId : String)
  | post
  | getServer (serverId : String)
  | getProfile (profileId : String)
deriving DecidableEq, Repr

-- `parsed` is what JSON.parse answers for the decoded chunks, `none` when it throws
structure RequestBody where
  chunks : List ℕ
  parsed : Option Json

def isNotificationMessage (message : Json) : Bool :=
  message.has "method" && !message.has "id" && !message.has "result" && !message.has "error"

structure HttpRequest where
  route : Route
  headers : Auth.Headers
  body : Option RequestBody
  generatedTraceId : String
  firstCall : CallId

inductive ResponseBody where
  | json (value : Json)
  | empty
  | stream (content : Option String)

structure HttpResponse where
  status : ℕ
  headers : List (String × String)
  body : ResponseBody

structure SseResponse where
  ok : Bool
  body : Option String

structure GatewayCore where
  pipeline : RequestPipeline
  clients : OrderedMap String TransportType

def GatewayCore.getClient (core : GatewayCore) (serverId : String) : Option TransportType :=
  core.clients.get? serverId

-- what a route does: answer at once, hand messages to the pipeline, or open an upstream stream
inductive Handling where
  | reply (response : HttpResponse)
  | requests (requests : List Request) (respond : List Outcome → HttpResponse)
  | openSseStream (serverId : String) (extraHeaders : Identity.Headers)
      (respond : Except String SseResponse → HttpResponse)

def jsonResponse (status : ℕ) (headers : List (String × String)) (value : Json) : HttpResponse :=
  ⟨status, headers, .json value⟩

def errorText (text : String) : Json := .obj [("error", .str text)]

namespace HttpRequest

variable (r : HttpRequest)

def traceId : String := resolveTraceId r.headers r.generatedTraceId

def requestContext : RequestContext where
  traceId := r.traceId
  authHeader := r.headers.get? "authorization"
  groupHeader := r.headers.get? "x-conduit-group"
  sessionId := r.headers.get? "mcp-session-id"
  rawHeaders := r.headers

def declaredTooLarge : Bool :=
  ((r.headers.get? "content-length").bind Text.parseInt).any fun n => (maxRequestBodyBytes : ℤ) < n

def tooLarge : Bool :=
  r.declaredTooLarge || r.body.any fun body => maxRequestBodyBytes < body.chunks.sum

def parsed : Option Json :=
  match r.body with
  | some body => body.parsed
  | none => some (.obj [])

def refuse (status : ℕ) (code : ℤ) (message : String) : Handling :=
  .reply (jsonResponse status [(traceHeader, r.traceId)] (buildJsonRpcError .null code message none))

def request (serverId : String) (message : Json) (index : ℕ) : Request where
  self := r.firstCall + index
  serverId := serverId
  message := message
  context := r.requestContext

end HttpRequest

inductive BatchEntry where
  | message (value : Json)
  | invalid (id : Json)

def rawEntryId : Json → Json
  | .obj fields =>
      match Json.field fields "id" with
      | some (.str s) => .str s
      | some (.num n) => .num n
      | _ => .null
  | _ => .null

def parseBatchEntry (item : Json) : BatchEntry :=
  if isValidJsonRpc item then .message item else .invalid (rawEntryId item)

def parseJsonRpcBatchPartial (items : List Json) : List BatchEntry := items.map parseBatchEntry

-- a message with an `invalid: true` field passes for an invalid entry
def invalidEntryId : BatchEntry → Option Json
  | .message value =>
      if value.get? "invalid" = some (.bool true) then some (messageId value) else none
  | .invalid id => some id

def entryMessage : BatchEntry → Option Json
  | .message value =>
      if value.get? "invalid" = some (.bool true) then none else some value
  | .invalid _ => none

def entryResult (message : Json) : Outcome → Json
  | .answered result => result.body
  | .thrown error _ => buildJsonRpcError (messageId message) internalError error none

def batchResults : List BatchEntry → List Outcome → List Json
  | [], _ => []
  | entry :: entries, outcomes =>
      match entryMessage entry, outcomes with
      | some message, out :: rest => entryResult message out :: batchResults entries rest
      | some _, [] => batchResults entries []
      | none, outcomes =>
          buildJsonRpcError ((invalidEntryId entry).getD .null) invalidRequest
            "Invalid JSON-RPC message in batch entry" none :: batchResults entries outcomes

def CacheStatus.name : CacheStatus → String
  | .hit => "HIT"
  | .miss => "MISS"
  | .bypass => "BYPASS"
  | .skip => "SKIP"
  | .skipError => "SKIP_ERROR"

def resultHeaders (result : CoreResult) : List (String × String) :=
  (result.cacheStatus.map fun status => (cacheStatusHeader, CacheStatus.name status)).toList ++
    ((result.upstreamSessionId.filter (· ≠ "")).map fun id => ("Mcp-Session-Id", id)).toList ++
    (result.retryAfter.map fun seconds => ("Retry-After", toString seconds)).toList

def streamHeaders : List (String × String) :=
  [("Cache-Control", "no-cache"), ("Connection", "keep-alive")]

def singleResponse (traceId serverId : String) (message : Json) : Outcome → HttpResponse
  | .thrown error _ =>
      jsonResponse 500 [(traceHeader, traceId)]
        (buildJsonRpcError (messageId message) internalError error none)
  | .answered result =>
      let headers :=
        [(traceHeader, traceId), (serverIdHeader, serverId)] ++ resultHeaders result
      if result.isStream && result.rawResponse.isSome then
        ⟨200, headers ++ streamHeaders, .stream result.rawResponse⟩
      else if result.body = .null && isNotificationMessage message then ⟨202, headers, .empty⟩
      else ⟨200, headers, .json result.body⟩

def handleBatch (r : HttpRequest) (serverId : String) (items : List Json) : Handling :=
  if items = [] then r.refuse 400 invalidRequest "Empty JSON-RPC batch"
  else if maxBatchSize < items.length then
    r.refuse 400 invalidRequest
      ("JSON-RPC batch exceeds maximum size (" ++ toString maxBatchSize ++ ")")
  else
    let entries := parseJsonRpcBatchPartial items
    .requests ((entries.filterMap entryMessage).mapIdx fun i message => r.request serverId message i)
      fun outcomes =>
        jsonResponse 200 [(traceHeader, r.traceId), (serverIdHeader, serverId)]
          (.arr (batchResults entries outcomes))

def handleMessage (r : HttpRequest) (serverId : String) (message : Json) : Handling :=
  if isValidJsonRpc message then
    .requests [r.request serverId message 0] fun outcomes =>
      match outcomes with
      | out :: _ => singleResponse r.traceId serverId message out
      | [] => singleResponse r.traceId serverId message (.thrown "Erreur interne" none)
  else r.refuse 400 invalidRequest "Message JSON-RPC invalide"

def handleMcpRequest (r : HttpRequest) (serverId : String) : Handling :=
  if r.tooLarge then r.refuse 413 invalidRequest "Request body too large"
  else
    match r.parsed with
    | none => r.refuse 400 parseError "JSON parse error"
    | some (.arr items) => handleBatch r serverId items
    | some message => handleMessage r serverId message

def sseHeaders (r : HttpRequest) (server : ServerConfig) : Identity.Headers :=
  let traced : Identity.Headers := .set .empty traceHeader r.traceId
  match (r.headers.get? "authorization").filter (· ≠ "") with
  | some authHeader =>
      if server.forwardAuthorization && server.upstreamAuth.isNone then
        traced.set "Authorization" authHeader
      else traced
  | none => traced

def sseResponse (r : HttpRequest) : Except String SseResponse → HttpResponse
  | .error _ => jsonResponse 500 [] (errorText "Erreur interne du flux SSE")
  | .ok response =>
      if response.ok then
        ⟨200, (traceHeader, r.traceId) :: streamHeaders, .stream response.body⟩
      else jsonResponse 502 [] (errorText "Erreur lors de l'ouverture du flux SSE")

-- a stdio client throws before it reaches its process
def openSse (r : HttpRequest) (server : ServerConfig) : TransportType → Handling
  | .http => .openSseStream server.id (sseHeaders r server) (sseResponse r)
  | .stdio =>
      .reply (sseResponse r (.error
        ("SSE streams are not supported for stdio transport (server \"" ++ server.id ++ "\")")))

def createTransport (core : GatewayCore) (r : HttpRequest) : Handling :=
  let config := core.pipeline.config
  match r.route with
  | .postServer serverId =>
      match config.server? serverId with
      | none =>
          .reply (jsonResponse 404 []
            (buildJsonRpcError .null methodNotFound ("Serveur inconnu : " ++ serverId) none))
      | some _ => handleMcpRequest r serverId
  | .postProfile profileId =>
      match config.resolveConnectProfile profileId with
      | none =>
          .reply (jsonResponse 404 []
            (buildJsonRpcError .null methodNotFound ("Profil inconnu : " ++ profileId) none))
      | some _ => handleMcpRequest r (Connect.buildProfileTargetId profileId)
  | .post =>
      match config.servers with
      | [] =>
          .reply (jsonResponse 503 []
            (buildJsonRpcError .null internalError "Aucun serveur configuré" none))
      | firstServer :: _ => handleMcpRequest r firstServer.id
  | .getServer serverId =>
      match config.server? serverId with
      | none => .reply (jsonResponse 404 [] (errorText ("Serveur inconnu : " ++ serverId)))
      | some server =>
          match core.getClient serverId with
          | none =>
              .reply (jsonResponse 503 []
                (errorText ("Client non disponible pour : " ++ serverId)))
          | some client => openSse r server client
  | .getProfile profileId =>
      match config.resolveConnectProfile profileId with
      | none => .reply (jsonResponse 404 [] (errorText ("Profil inconnu : " ++ profileId)))
      | some _ =>
          .reply (jsonResponse 405 [] (errorText
            ("Profile endpoints use streamable HTTP over POST. " ++
              "Use POST /mcp/profile/:profileId.")))

end Conduit.Proxy
