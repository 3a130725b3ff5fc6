import Conduit.Gateway.Provenance

namespace Conduit.Gateway

open Router Cache Program

-- a tools/call under the configuration that it finds; `through` are the removals that its router
-- had seen, `asked` the purges that had been answered when its request left for the upstream
structure Session (P : RequestPipeline) where
  pipeline : RequestPipeline
  hosted : pipeline.host = P.host
  task : Task pipeline
  through : String → ℕ
  asked : Option (String → ℕ)

namespace Session

variable {P : RequestPipeline} (σ : Session P)

def startsFlight : Event Op Ans → Bool
  | ⟨.enterFlight _, .started _⟩ => true
  | _ => false

-- the factory of a flight sends its request before anything else can happen
def advanced (purges : String → ℕ) (thread : Thread σ.pipeline.handleToolCall) : Session P :=
  { σ with
    task := { σ.task with thread := thread, phase := .idle }
    asked := if thread.trace.any startsFlight then σ.asked.or (some purges) else σ.asked }

def inPhase (phase : Phase) : Session P := { σ with task := { σ.task with phase := phase } }

-- the router has resolved the call to the server
def Targets (serverId : String) : Prop :=
  ∃ asked toolName resolution, Answered σ.task.trace (.resolve asked toolName) resolution ∧
    (resolution.actual σ.task.call.serverId σ.task.call.toolName).serverId = serverId

end Session

-- a gateway whose servers come and go
structure Installation (P : RequestPipeline) where
  sessions : List (Session P)
  l1 : CacheStore
  inflight : InflightTracker FlightResult
  redis : OrderedMap String CacheEntry
  writes : List (String × CacheEntry)
  effects : List CallId
  router : ConduitRouter
  servers : List ServerConfig
  managed : List String
  removals : String → ℕ
  purges : String → ℕ

namespace Installation

variable {P : RequestPipeline}

def init (P : RequestPipeline) : Installation P where
  sessions := []
  l1 := .init P.config.cache.l1
  inflight := .init
  redis := .empty
  writes := []
  effects := []
  router := .init P.config.router P.config.servers
  servers := P.config.servers
  managed := []
  removals := fun _ => 0
  purges := fun _ => 0

variable (s : Installation P)

def world : World P where
  tasks := []
  l1 := s.l1
  inflight := s.inflight
  redis := s.redis
  writes := s.writes
  effects := s.effects

def put (w : World P) : Installation P :=
  { s with
    l1 := w.l1
    inflight := w.inflight
    redis := w.redis
    writes := w.writes
    effects := w.effects }

def setSession (caller : CallId) (σ : Session P) : Installation P :=
  { s with sessions := s.sessions.set caller σ }

section Calls

def resolve : (o : Op) → Option (ConduitRouter × Ans o)
  | .resolve serverId toolName => some (s.router.resolve serverId toolName)
  | _ => none

def session (pipeline : RequestPipeline) (thread : Thread
    ({ pipeline with host := P.host } : RequestPipeline).handleToolCall) : Session P where
  pipeline := { pipeline with host := P.host }
  hosted := rfl
  task := ⟨thread, .idle, []⟩
  through := s.removals
  asked := none

-- a call is resolved before anything else can happen
def arrive (pipeline : RequestPipeline) (call : ToolCall) : Installation P :=
  let thread := Thread.spawn ({ pipeline with host := P.host } : RequestPipeline).handleToolCall
    { call with self := s.sessions.length }
  match thread.advance s.resolve with
  | some (router, resolved) =>
      { s with router := router, sessions := s.sessions ++ [s.session pipeline resolved] }
  | none => { s with sessions := s.sessions ++ [s.session pipeline thread] }

def serve (caller : CallId) (phase : Phase) (environment : (o : Op) → Ans o) :
    (o : Op) → Option (World P × Ans o)
  | .resolve _ _ => none
  | .getAnnotations serverId toolName =>
      some (s.world, s.router.registry.getAnnotations serverId toolName)
  | o => s.world.serve caller phase environment o

def answer (caller : CallId) (environment : (o : Op) → Ans o) (σ : Session P) :
    Option (Installation P) :=
  (σ.task.thread.advance (s.serve caller σ.task.phase environment)).map fun r =>
    (s.put r.1).setSession caller (σ.advanced s.purges r.2)

def takeEffect (caller : CallId) (σ : Session P) : Option (Installation P) :=
  if (σ.task.awaitsUpstream || σ.task.hasForwarded) = true ∧ caller ∉ s.effects then
    some { s with effects := s.effects ++ [caller] }
  else none

def readL2 (caller : CallId) (σ : Session P) : Option (Installation P) :=
  match σ.task.phase, σ.task.pending? with
  | .idle, some (.l2Get key) =>
      some (s.setSession caller (σ.inPhase (.read (s.redis.get? (P.digest key)))))
  | _, _ => none

def startScan (caller : CallId) (σ : Session P) : Option (Installation P) :=
  match σ.task.phase, σ.task.pending? with
  | .idle, some (.l2DeleteByTool _ _) =>
      some (s.setSession caller (σ.inPhase (.scanning s.redis.keys)))
  | _, _ => none

def scan (caller : CallId) (digest : String) (σ : Session P) : Option (Installation P) :=
  match σ.task.phase, σ.task.pending? with
  | .scanning digests, some (.l2DeleteByTool toolName serverId) =>
      let left := World.deleteIfFor s.redis digest toolName serverId
      some ({ s with redis := left }.setSession caller
        (σ.inPhase (.scanning (digests.filter (· ≠ digest)))))
  | _, _ => none

def failScan (caller : CallId) (σ : Session P) : Option (Installation P) :=
  match σ.task.phase with
  | .scanning _ => some (s.setSession caller (σ.inPhase (.scanning [])))
  | _ => none

def landWrite (index : ℕ) (write : String × CacheEntry) : Installation P :=
  { s with redis := s.redis.set write.1 write.2, writes := s.writes.eraseIdx index }

end Calls

section Servers

-- registry.removeServer
def removeServer (serverId : String) : Installation P :=
  match s.router.registry.getServerInfo serverId with
  | none => s
  | some _ =>
      { s with
        router := s.router.withRegistry (s.router.registry.removeServer serverId)
        removals := Function.update s.removals serverId (s.removals serverId + 1) }

-- cacheStore.deleteByServer
def deleteByServer (serverId : String) : Installation P :=
  { s with l1 := (s.l1.deleteByServer serverId).1 }

-- createMcpClient and registry.addServer, for reload, reconcile and the admin routes alike
def addServer (server : ServerConfig) : Installation P :=
  { s with router := s.router.withRegistry (s.router.registry.addServer server) }

def spliceServer (serverId : String) : Installation P :=
  { s with servers := s.servers.eraseP fun server => server.id = serverId }

-- the removal loop of reload and the filter after it
def reloadRemovals (newIds : List String) : Installation P :=
  let gone := s.servers.filter fun server => server.id ∉ newIds
  let emptied := gone.foldl (fun s server => (s.removeServer server.id).deleteByServer server.id) s
  { emptied with servers := emptied.servers.filter fun server => server.id ∈ newIds }

-- the removal loop of DiscoveryManager.reconcile
def reconcileRemovals (discovered : List String) : Installation P :=
  let stale := s.managed.filter fun serverId => serverId ∉ discovered
  let left := stale.foldl (fun s serverId => s.removeServer serverId) s
  { left with managed := left.managed.filter fun serverId => serverId ∈ discovered }

-- addServersToConduit with replaceExisting, once the URL has been checked
def replaceServer (server : ServerConfig) : Installation P :=
  ((s.removeServer server.id).spliceServer server.id).addServer server

-- DELETE /conduit/servers/:id
def deleteServer (serverId : String) : Installation P :=
  match s.router.registry.getServerInfo serverId with
  | none => s
  | some _ => (s.removeServer serverId).spliceServer serverId

-- DELETE /conduit/cache/server/:id
def purge (serverId : String) : Installation P :=
  { s.deleteByServer serverId with
    purges := Function.update s.purges serverId (s.purges serverId + 1) }

-- what else happens to the router: listings, health checks, use
def isUpkeep : RouterEvent → Bool
  | .addServer _ => false
  | .removeServer _ => false
  | _ => true

end Servers

inductive Act where
  | arrive (pipeline : RequestPipeline) (call : ToolCall)
  | answer (caller : CallId) (environment : (o : Op) → Ans o)
  | takeEffect (caller : CallId)
  | readL2 (caller : CallId)
  | startScan (caller : CallId)
  | scan (caller : CallId) (digest : String)
  | failScan (caller : CallId)
  | landWrite (index : ℕ)
  | evict (key : String)
  | expire (key : String)
  | addServer (server : ServerConfig)
  | configure (server : ServerConfig)
  | manage (serverId : String)
  | reloadRemovals (newIds : List String)
  | reconcileRemovals (discovered : List String)
  | replaceServer (server : ServerConfig)
  | deleteServer (serverId : String)
  | purge (serverId : String)
  | route (event : RouterEvent)

def step : Act → Option (Installation P)
  | .arrive pipeline call => some (s.arrive pipeline call)
  | .answer caller environment => s.sessions[caller]?.bind (s.answer caller environment)
  | .takeEffect caller => s.sessions[caller]?.bind (s.takeEffect caller)
  | .readL2 caller => s.sessions[caller]?.bind (s.readL2 caller)
  | .startScan caller => s.sessions[caller]?.bind (s.startScan caller)
  | .scan caller digest => s.sessions[caller]?.bind (s.scan caller digest)
  | .failScan caller => s.sessions[caller]?.bind (s.failScan caller)
  | .landWrite index => s.writes[index]?.map (s.landWrite index)
  | .evict key => some { s with l1 := s.l1.evict key }
  | .expire key => some { s with redis := s.redis.delete key }
  | .addServer server => some (s.addServer server)
  | .configure server => some { s with servers := s.servers ++ [server] }
  | .manage serverId => some { s with managed := s.managed ++ [serverId] }
  | .reloadRemovals newIds => some (s.reloadRemovals newIds)
  | .reconcileRemovals discovered => some (s.reconcileRemovals discovered)
  | .replaceServer server => some (s.replaceServer server)
  | .deleteServer serverId => some (s.deleteServer serverId)
  | .purge serverId => some (s.purge serverId)
  | .route event => if isUpkeep event then some { s with router := s.router.step event } else none

end Installation

end Conduit.Gateway
