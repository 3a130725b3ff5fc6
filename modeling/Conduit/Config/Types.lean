import Conduit.Foundation.Json
import Conduit.Foundation.OrderedMap

namespace Conduit

structure ToolOverrideConfig where
  ttl : Option ℤ := none
  ignoreArgs : Option (List String) := none
  invalidates : Option (List String) := none

structure ServerCacheConfig where
  defaultTtl : ℤ := 0
  overrides : Option (OrderedMap String ToolOverrideConfig) := none

inductive TransportType where
  | http
  | stdio
deriving DecidableEq, Repr

inductive IdentityForwardMode where
  | none
  | bearer
  | claimsHeader
deriving DecidableEq, Repr

inductive ConnectedAccountBinding where
  | client
  | tenant
  | workspace
  | clientOrWorkspace
deriving DecidableEq, Repr

structure UpstreamIdentityForwardConfig where
  mode : Option IdentityForwardMode := none
  headerName : Option String := none

structure UpstreamConnectedAccountConfig where
  provider : String
  binding : Option ConnectedAccountBinding := none
  required : Option Bool := none
  headers : Option (OrderedMap String String) := none

structure UpstreamAuthConfig where
  connectedAccount : Option UpstreamConnectedAccountConfig := none
  forwardIdentity : Option UpstreamIdentityForwardConfig := none

structure ServerConfig where
  id : String
  url : String
  transport : Option TransportType := none
  headers : Option (OrderedMap String String) := none
  replicas : List String := []
  cache : ServerCacheConfig := {}
  upstreamAuth : Option UpstreamAuthConfig := none
  forwardAuthorization : Bool := false

def ServerConfig.isStdio (s : ServerConfig) : Bool := s.transport = some .stdio

structure L1CacheConfig where
  maxEntries : ℕ := 1000
  maxEntrySizeKb : ℕ := 64

structure L2CacheConfig where
  enabled : Bool := false
  defaultTtlMultiplier : ℕ := 3

structure CacheConfig where
  enabled : Bool := true
  l1 : L1CacheConfig := {}
  l2 : Option L2CacheConfig := none

structure HealthCheckConfig where
  unhealthyThreshold : ℕ := 3
  healthyThreshold : ℕ := 1
deriving DecidableEq, Repr

inductive LoadBalancingStrategy where
  | roundRobin
  | leastConnections
deriving DecidableEq, Repr

inductive NamespaceStrategy where
  | prefixed
  | none
deriving DecidableEq, Repr

structure CircuitBreakerConfig where
  enabled : Bool := true
  failureThreshold : ℕ := 5
  resetTimeoutMs : ℕ := 30000
  halfOpenMaxRequests : ℕ := 1
  successThreshold : ℕ := 2
deriving DecidableEq, Repr

structure RouterConfig where
  namespaceStrategy : NamespaceStrategy := .prefixed
  healthCheck : HealthCheckConfig := {}
  loadBalancing : Option LoadBalancingStrategy := none
  circuitBreaker : Option CircuitBreakerConfig := none
deriving DecidableEq, Repr

structure TenantIsolationConfig where
  enabled : Bool := false
  header : String := ""

structure ToolAnnotations where
  readOnlyHint : Option Bool := none
  idempotentHint : Option Bool := none
  destructiveHint : Option Bool := none
  openWorldHint : Option Bool := none
deriving DecidableEq, Repr

structure ToolMetadata where
  name : String
  description : Option String := none
  inputSchema : Option Json := none
  annotations : Option ToolAnnotations := none
deriving DecidableEq

end Conduit
