import Conduit.Cache.Inflight
import Conduit.Cache.Key
import Conduit.Cache.Store
import Conduit.Config.Gateway
import Conduit.Foundation.Program
import Conduit.Proxy.JsonRpc
import Conduit.Router.Router

namespace Conduit.Gateway

open Router Governance Cache

abbrev CallId := ℕ

structure RequestContext where
  traceId : String
  authHeader : Option String := none
  groupHeader : Option String := none
  sessionId : Option String := none
  rawHeaders : Auth.Headers

inductive CacheStatus where
  | hit
  | miss
  | bypass
  | skip
  | skipError
deriving DecidableEq, Repr

-- `origin` is the call whose upstream exchange the answer comes from; the source keeps no such record
structure CoreResult where
  body : Json
  cacheStatus : Option CacheStatus := none
  upstreamSessionId : Option String := none
  isStream : Bool := false
  rawResponse : Option String := none
  retryAfter : Option ℤ := none
  origin : Option CallId := none
deriving DecidableEq

inductive Outcome where
  | answered (result : CoreResult)
  | thrown (message : String) (origin : Option CallId)
deriving DecidableEq

def Outcome.origin : Outcome → Option CallId
  | .answered result => result.origin
  | .thrown _ origin => origin

inductive Settlement where
  | resolved (content : Json)
  | rpcError (code message : Json)
  | identityError (message : String)
  | failed (message : String)
deriving DecidableEq

structure FlightResult where
  settlement : Settlement
  origin : CallId
deriving DecidableEq

structure UpstreamRequestOptions where
  body : Json
  extraHeaders : Identity.Headers
  sessionId : Option String

structure UpstreamResponse where
  body : Json
  sessionId : Option String := none
  isStream : Bool := false
  rawResponse : Option String := none
deriving DecidableEq

structure LimitDecision where
  allowed : Bool
  retryAfter : Option ℤ := none
  blockedBy : Option String := none
deriving DecidableEq, Repr

inductive HookName where
  | beforeRequest
  | afterAuth
  | beforeCache
  | afterUpstream
  | beforeResponse
deriving DecidableEq, Repr

-- what the router answers, without an await in between, when a tool call starts
structure Resolution where
  directClient : Option ClientRef
  resolvedToolName : Option ToolTarget
  resolvedCall : Option RoutedRequest
deriving DecidableEq, Repr

inductive Op where
  | runHook (name : HookName)
  | resolve (serverId : Option String) (toolName : String)
  | getClientForServer (serverId : String)
  | getAggregatedTools
  | updateAnnotations (serverId : String) (tools : List ToolMetadata)
  | getAnnotations (serverId toolName : String)
  | verifyApprovalGrant (query : GovernanceApprovalGrantQuery)
  | createApprovalRequest (input : CreateGovernanceApprovalRequestInput)
  | consumeWorkspaceQuota (workspaceId : String)
  | consumeClientLimits (clientId : String)
  | consumeServerLimits (clientId serverId toolName : String)
  | forward (client : ClientRef) (options : UpstreamRequestOptions)
  | l1Get (key : CacheKeyOptions)
  | l1Set (key : CacheKeyOptions) (entry : CacheEntry)
  | l1DeleteByTool (toolName serverId : String)
  | l2Get (key : CacheKeyOptions)
  | l2Set (key : CacheKeyOptions) (entry : CacheEntry) (ttlSeconds : ℚ)
  | l2DeleteByTool (toolName serverId : String)
  | enterFlight (key : CacheKeyOptions)
  | settleFlight (flight : FlightId) (result : FlightResult)
  | awaitFlight (flight : FlightId)
  | now

abbrev Ans : Op → Type
  | .runHook _ => Option CoreResult
  | .resolve _ _ => Resolution
  | .getClientForServer _ => Option ClientRef
  | .getAggregatedTools => List AggregatedTool
  | .updateAnnotations _ _ => Unit
  | .getAnnotations _ _ => ToolAnnotations
  | .verifyApprovalGrant _ => Option GovernanceApprovalRequestSummary
  | .createApprovalRequest _ => GovernanceApprovalRequestSummary
  | .consumeWorkspaceQuota _ => GovernanceQuotaDecision
  | .consumeClientLimits _ => LimitDecision
  | .consumeServerLimits _ _ _ => LimitDecision
  | .forward _ _ => Except String UpstreamResponse
  | .l1Get _ => Option CacheEntry
  | .l1Set _ _ => Unit
  | .l1DeleteByTool _ _ => Unit
  | .l2Get _ => Option CacheEntry
  | .l2Set _ _ _ => Unit
  | .l2DeleteByTool _ _ => Unit
  | .enterFlight _ => FlightEntry
  | .settleFlight _ _ => Unit
  | .awaitFlight _ => FlightResult
  | .now => ℕ

abbrev Proc (α : Type) := Program Op Ans Outcome α

abbrev Trace := Program.History Op Ans

abbrev perform (o : Op) : Proc (Ans o) := Program.ask o

end Conduit.Gateway

namespace Conduit.Router.ConduitRouter

open Gateway

def resolve (C : ConduitRouter) (serverId : Option String) (toolName : String) :
    ConduitRouter × Resolution :=
  let (C', directClient) :=
    match serverId with
    | some serverId => C.getClientForServer serverId
    | none => (C, none)
  let resolvedToolName := C'.resolveToolName toolName
  match directClient with
  | some _ => (C', ⟨directClient, resolvedToolName, none⟩)
  | none =>
      let (C'', resolvedCall) := C'.resolveToolCall toolName
      (C'', ⟨none, resolvedToolName, resolvedCall⟩)

end Conduit.Router.ConduitRouter
