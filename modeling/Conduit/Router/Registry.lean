import Conduit.Router.CircuitBreaker
import Conduit.Router.Namespace

namespace Conduit.Router

structure BackendHealth where
  serverId : String
  healthy : Bool
  latencyMs : ℕ := 0
  lastChecked : ℕ := 0
  consecutiveFailures : ℕ := 0
  consecutiveSuccesses : ℕ := 0
deriving DecidableEq, Repr

structure ClientRef where
  serverId : String
  replica : ℕ
deriving DecidableEq, Repr

structure ReplicaInfo where
  url : String
  client : ClientRef
  activeConnections : ℕ := 0
  health : BackendHealth
  circuitBreaker : Option CircuitBreaker

structure ServerInfo where
  config : ServerConfig
  tools : List ToolMetadata
  health : BackendHealth
  annotations : OrderedMap String ToolAnnotations
  replicas : List ReplicaInfo

structure ServerRegistry where
  servers : OrderedMap String ServerInfo
  namespaceMap : NamespaceMap
  strategy : NamespaceStrategy
  healthConfig : HealthCheckConfig
  circuitBreakerConfig : Option CircuitBreakerConfig

def ReplicaInfo.isOpen (r : ReplicaInfo) : Bool :=
  match r.circuitBreaker with
  | some breaker => breaker.state = .opened
  | none => false

def ReplicaInfo.eligible (r : ReplicaInfo) : Bool := r.health.healthy && !r.isOpen

namespace ServerRegistry

def buildReplicas (circuitBreaker : Option CircuitBreakerConfig) (server : ServerConfig) :
    List ReplicaInfo :=
  (server.url :: server.replicas).mapIdx fun idx url =>
    { url := url
      client := ⟨server.id, idx⟩
      health := { serverId := server.id ++ ":" ++ toString idx, healthy := true }
      circuitBreaker := (circuitBreaker.filter (·.enabled)).map .init }

def buildServer (circuitBreaker : Option CircuitBreakerConfig) (server : ServerConfig) :
    ServerInfo where
  config := server
  tools := []
  health := { serverId := server.id, healthy := false }
  annotations := .empty
  replicas := buildReplicas circuitBreaker server

def init (router : RouterConfig) (servers : List ServerConfig) : ServerRegistry where
  servers := servers.foldl
    (fun m server => m.set server.id (buildServer router.circuitBreaker server)) .empty
  namespaceMap := .empty
  strategy := router.namespaceStrategy
  healthConfig := router.healthCheck
  circuitBreakerConfig := router.circuitBreaker

variable (R : ServerRegistry)

def getServerInfo (serverId : String) : Option ServerInfo := R.servers.get? serverId

def replica? (client : ClientRef) : Option ReplicaInfo :=
  (R.getServerInfo client.serverId).bind fun info => info.replicas[client.replica]?

def updateServer (serverId : String) (f : ServerInfo → ServerInfo) : ServerRegistry :=
  match R.getServerInfo serverId with
  | none => R
  | some info => { R with servers := R.servers.set serverId (f info) }

def updateReplica (client : ClientRef) (f : ReplicaInfo → ReplicaInfo) : ServerRegistry :=
  R.updateServer client.serverId fun info =>
    { info with replicas := info.replicas.modify client.replica f }

def rebuildNamespaceMap : ServerRegistry :=
  let healthy := R.servers.entries.filter fun e => e.2.health.healthy
  let toolsByServer := healthy.map fun e => (e.1, e.2.tools.map ToolMetadata.name)
  match buildNamespaceMap toolsByServer R.strategy with
  | some namespaceMap => { R with namespaceMap := namespaceMap }
  | none => R

def recordAnnotations (tools : List ToolMetadata) : OrderedMap String ToolAnnotations :=
  tools.foldl
    (fun m tool => if tool.name = "" then m else m.set tool.name (tool.annotations.getD {})) .empty

def updateAnnotations (serverId : String) (tools : List ToolMetadata) : ServerRegistry :=
  match R.getServerInfo serverId with
  | none => R
  | some _ =>
      (R.updateServer serverId fun info =>
        { info with tools := tools, annotations := recordAnnotations tools }).rebuildNamespaceMap

def markHealthy (now : ℕ) (health : BackendHealth) : BackendHealth :=
  { health with
    healthy := true
    lastChecked := now
    consecutiveFailures := 0
    consecutiveSuccesses := 1 }

-- `none` when tools/list failed, streamed or answered an error
def refreshServer (serverId : String) (now : ℕ) (listed : Option (List ToolMetadata)) :
    ServerRegistry :=
  R.updateServer serverId fun info =>
    match listed with
    | none => { info with health := { info.health with healthy := false, lastChecked := now } }
    | some tools =>
        { info with
          tools := tools
          health := markHealthy now info.health
          annotations := recordAnnotations tools
          replicas := info.replicas.modify 0 fun r => { r with health := markHealthy now r.health } }

def replicaSucceeded (healthConfig : HealthCheckConfig) (latencyMs now : ℕ)
    (health : BackendHealth) : BackendHealth :=
  let successes := health.consecutiveSuccesses + 1
  { health with
    healthy := if health.healthy then true else decide (healthConfig.healthyThreshold ≤ successes)
    latencyMs := latencyMs
    lastChecked := now
    consecutiveFailures := 0
    consecutiveSuccesses := successes }

def replicaFailed (healthConfig : HealthCheckConfig) (latencyMs now : ℕ)
    (health : BackendHealth) : BackendHealth :=
  let failures := health.consecutiveFailures + 1
  { health with
    healthy := !decide (healthConfig.unhealthyThreshold ≤ failures)
    latencyMs := latencyMs
    lastChecked := now
    consecutiveFailures := failures
    consecutiveSuccesses := 0 }

def checkReplicaHealth (client : ClientRef) (succeeded : Bool) (latencyMs now : ℕ) :
    ServerRegistry :=
  R.updateReplica client fun r =>
    { r with
      health :=
        if succeeded then replicaSucceeded R.healthConfig latencyMs now r.health
        else replicaFailed R.healthConfig latencyMs now r.health }

def checkServerHealth (serverId : String) (now : ℕ) : ServerRegistry :=
  R.updateServer serverId fun info =>
    { info with
      health :=
        { info.health with healthy := info.replicas.any ReplicaInfo.eligible, lastChecked := now } }

def getHealthyReplicas (serverId : String) : List ReplicaInfo :=
  match R.getServerInfo serverId with
  | none => []
  | some info => info.replicas.filter ReplicaInfo.eligible

def getAnnotations (serverId toolName : String) : ToolAnnotations :=
  ((R.getServerInfo serverId).bind fun info => info.annotations.get? toolName).getD {}

variable {R}

theorem getServerInfo_updateServer (serverId key : String) (f : ServerInfo → ServerInfo) :
    (R.updateServer serverId f).getServerInfo key =
      if serverId = key then (R.getServerInfo key).map f else R.getServerInfo key := by
  unfold updateServer
  cases hinfo : R.getServerInfo serverId with
  | none =>
      dsimp only
      split
      next heq =>
        rw [← heq, hinfo]
        rfl
      next => rfl
  | some info =>
      simp only [getServerInfo, OrderedMap.get?_set]
      split
      next heq =>
        rw [← heq, ← getServerInfo, hinfo]
        rfl
      next => rfl

theorem replica?_updateServer {serverId : String} {f : ServerInfo → ServerInfo}
    (h : ∀ info, (f info).replicas = info.replicas) (client : ClientRef) :
    (R.updateServer serverId f).replica? client = R.replica? client := by
  unfold replica?
  rw [getServerInfo_updateServer]
  split
  · cases R.getServerInfo client.serverId with
    | none => rfl
    | some info => simp [h]
  · rfl

theorem replica?_updateReplica (client key : ClientRef) (f : ReplicaInfo → ReplicaInfo) :
    (R.updateReplica client f).replica? key =
      if client = key then (R.replica? key).map f else R.replica? key := by
  obtain ⟨serverId, idx⟩ := client
  obtain ⟨keyServer, keyIdx⟩ := key
  unfold updateReplica replica?
  rw [getServerInfo_updateServer]
  rcases eq_or_ne serverId keyServer with rfl | hne
  · cases R.getServerInfo serverId with
    | none => simp
    | some info =>
        rcases eq_or_ne idx keyIdx with rfl | hidx <;> simp [*]
  · simp [hne]

@[simp] theorem replica?_checkServerHealth (serverId : String) (now : ℕ) (client : ClientRef) :
    (R.checkServerHealth serverId now).replica? client = R.replica? client := by
  rw [checkServerHealth, replica?_updateServer]
  exact fun _ => rfl

@[simp] theorem servers_rebuildNamespaceMap : R.rebuildNamespaceMap.servers = R.servers := by
  unfold rebuildNamespaceMap
  dsimp only
  split <;> rfl

@[simp] theorem replica?_rebuildNamespaceMap (client : ClientRef) :
    R.rebuildNamespaceMap.replica? client = R.replica? client := by
  simp [replica?, getServerInfo]

def WellIndexed (R : ServerRegistry) : Prop :=
  ∀ client r, R.replica? client = some r → r.client = client

theorem WellIndexed.updateReplica (h : R.WellIndexed) (client : ClientRef)
    {f : ReplicaInfo → ReplicaInfo} (hf : ∀ r, (f r).client = r.client) :
    (R.updateReplica client f).WellIndexed := by
  intro key r hr
  rw [replica?_updateReplica] at hr
  split at hr
  · obtain ⟨r', hr', rfl⟩ := Option.map_eq_some_iff.mp hr
    rw [hf]
    exact h key r' hr'
  · exact h key r hr

theorem mem_getHealthyReplicas {serverId : String} {r : ReplicaInfo} :
    r ∈ R.getHealthyReplicas serverId ↔
      r.eligible = true ∧ ∃ idx, R.replica? ⟨serverId, idx⟩ = some r := by
  unfold getHealthyReplicas replica?
  cases hinfo : R.getServerInfo serverId with
  | none => simp [hinfo]
  | some info => simp [hinfo, ← List.mem_iff_getElem?, and_comm]

theorem client_of_mem_buildReplicas {circuitBreaker : Option CircuitBreakerConfig}
    {server : ServerConfig} {idx : ℕ} {r : ReplicaInfo}
    (h : (buildReplicas circuitBreaker server)[idx]? = some r) : r.client = ⟨server.id, idx⟩ := by
  rw [buildReplicas, List.getElem?_mapIdx] at h
  obtain ⟨url, -, rfl⟩ := Option.map_eq_some_iff.mp h
  rfl

def WellIndexedServer (serverId : String) (info : ServerInfo) : Prop :=
  ∀ (idx : ℕ) (r : ReplicaInfo), info.replicas[idx]? = some r → r.client = ⟨serverId, idx⟩

theorem forall_buildServers {P : String → ServerInfo → Prop}
    {circuitBreaker : Option CircuitBreakerConfig}
    (hP : ∀ server : ServerConfig, P server.id (buildServer circuitBreaker server))
    (servers : List ServerConfig) (m : OrderedMap String ServerInfo)
    (hm : ∀ key info, m.get? key = some info → P key info) (key : String) (info : ServerInfo)
    (hinfo : (servers.foldl (fun m server =>
      m.set server.id (buildServer circuitBreaker server)) m).get? key = some info) :
    P key info := by
  induction servers generalizing m with
  | nil => exact hm key info hinfo
  | cons server servers ih =>
      refine ih _ (fun key' info' hinfo' => ?_) hinfo
      rw [OrderedMap.get?_set] at hinfo'
      split at hinfo'
      next heq =>
        subst heq
        obtain rfl := Option.some.inj hinfo'
        exact hP server
      next => exact hm key' info' hinfo'

theorem forall_init {P : String → ServerInfo → Prop} {router : RouterConfig}
    (hP : ∀ server : ServerConfig, P server.id (buildServer router.circuitBreaker server))
    {servers : List ServerConfig} {key : String} {info : ServerInfo}
    (hinfo : (init router servers).getServerInfo key = some info) : P key info :=
  forall_buildServers hP servers .empty (by simp) key info hinfo

theorem wellIndexed_init (router : RouterConfig) (servers : List ServerConfig) :
    (init router servers).WellIndexed := by
  rintro ⟨serverId, idx⟩ r hr
  obtain ⟨info, hinfo, hidx⟩ := Option.bind_eq_some_iff.mp hr
  have hserver : WellIndexedServer serverId info :=
    forall_init (fun _ _ _ hr => client_of_mem_buildReplicas hr) hinfo
  exact hserver idx r hidx

end ServerRegistry

end Conduit.Router
