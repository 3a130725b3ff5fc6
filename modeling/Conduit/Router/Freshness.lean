import Conduit.Router.Operation
import Conduit.Foundation.Run

namespace Conduit.Router

-- what a server's tools/list came to; a server without a client is left as it was
inductive Listing where
  | noClient
  | failed
  | listed (tools : List ToolMetadata)

structure ReplicaProbe where
  succeeded : Bool
  latencyMs : ℕ
  now : ℕ

inductive RegistryCall where
  | initializeRegistry (now : ℕ) (listings : String → Listing)
  | addServer (server : ServerConfig) (now : ℕ) (listing : Listing)
  | removeServer (serverId : String)
  | refreshServer (serverId : String) (now : ℕ) (listing : Listing)
  | runHealthChecks (now : ℕ) (probes : ClientRef → ReplicaProbe)
  | updateAnnotations (serverId : String) (tools : List ToolMetadata)
  | clientUsed (client : ClientRef) (breaker : Option CircuitBreaker) (activeConnections : ℕ)

-- the name the strategy gives a tool
def finalName (strategy : NamespaceStrategy) (target : ToolTarget) : String :=
  match strategy with
  | .none => target.toolName
  | .prefixed => applyNamespace target.serverId target.toolName

def targets (toolsByServer : ToolsByServer) : List ToolTarget :=
  toolsByServer.flatMap fun e => e.2.map fun toolName => ⟨e.1, toolName⟩

theorem foldl_addTools (name : String → String → String) (toolsByServer : ToolsByServer)
    (m : NamespaceMap) :
    toolsByServer.foldl (fun m e => addTools name m e.1 e.2) m =
      (targets toolsByServer).foldl
        (fun m target => m.set (name target.serverId target.toolName) target) m := by
  rw [targets, List.foldl_flatMap]
  simp only [addTools, List.foldl_map]

theorem buildNamespaceMap_eq {toolsByServer : ToolsByServer} {strategy : NamespaceStrategy}
    {map : NamespaceMap} (h : buildNamespaceMap toolsByServer strategy = some map) :
    map = (targets toolsByServer).foldl
      (fun m target => m.set (finalName strategy target) target) .empty := by
  unfold buildNamespaceMap at h
  split at h
  · split at h
    · rw [foldl_addTools] at h
      exact (Option.some.inj h).symm
    · cases h
  · rw [foldl_addTools] at h
    exact (Option.some.inj h).symm

namespace ServerRegistry

variable (R : ServerRegistry)

def refresh (serverId : String) (now : ℕ) : Listing → ServerRegistry
  | .noClient => R
  | .failed => R.refreshServer serverId now none
  | .listed tools => R.refreshServer serverId now (some tools)

def refreshAll (now : ℕ) (listings : String → Listing) : ServerRegistry :=
  R.servers.keys.foldl (fun R serverId => R.refresh serverId now (listings serverId)) R

def checkReplicas (serverId : String) (probes : ClientRef → ReplicaProbe) : ServerRegistry :=
  (List.range ((R.getServerInfo serverId).elim 0 fun info => info.replicas.length)).foldl
    (fun R idx =>
      let probe := probes ⟨serverId, idx⟩
      R.checkReplicaHealth ⟨serverId, idx⟩ probe.succeeded probe.latencyMs probe.now) R

def checkAll (now : ℕ) (probes : ClientRef → ReplicaProbe) : ServerRegistry :=
  R.servers.keys.foldl
    (fun R serverId => (R.checkReplicas serverId probes).checkServerHealth serverId now) R

def call : RegistryCall → ServerRegistry
  | .initializeRegistry now listings => (R.refreshAll now listings).rebuildNamespaceMap
  | .addServer server now listing =>
      match R.getServerInfo server.id with
      | some _ => R
      | none => ((R.addServer server).refresh server.id now listing).rebuildNamespaceMap
  | .removeServer serverId => R.removeServer serverId
  | .refreshServer serverId now listing => R.refresh serverId now listing
  | .runHealthChecks now probes => (R.checkAll now probes).rebuildNamespaceMap
  | .updateAnnotations serverId tools => R.updateAnnotations serverId tools
  | .clientUsed client breaker activeConnections =>
      R.updateReplica client fun r =>
        { r with circuitBreaker := breaker, activeConnections := activeConnections }

-- the servers as the call leaves them, with the map it found
def beforeRebuild : RegistryCall → ServerRegistry
  | .initializeRegistry now listings => R.refreshAll now listings
  | .addServer server now listing =>
      match R.getServerInfo server.id with
      | some _ => R
      | none => (R.addServer server).refresh server.id now listing
  | .removeServer serverId =>
      match R.getServerInfo serverId with
      | none => R
      | some _ => { R with servers := R.servers.delete serverId }
  | .refreshServer serverId now listing => R.refresh serverId now listing
  | .runHealthChecks now probes => R.checkAll now probes
  | .updateAnnotations serverId tools =>
      R.updateServer serverId fun info =>
        { info with tools := tools, annotations := recordAnnotations tools }
  | .clientUsed client breaker activeConnections =>
      R.updateReplica client fun r =>
        { r with circuitBreaker := breaker, activeConnections := activeConnections }

-- the server is registered and healthy and lists the tool
def Offers (target : ToolTarget) : Prop :=
  ∃ info, R.getServerInfo target.serverId = some info ∧ info.health.healthy = true ∧
    ∃ tool ∈ info.tools, tool.name = target.toolName

structure Fresh : Prop where
  offered : ∀ name target, R.namespaceMap.get? name = some target → R.Offers target
  reachable : ∀ target, R.Offers target →
    (∃ name, R.namespaceMap.get? name = some target) ∨
      ∃ other, R.Offers other ∧ other.serverId ≠ target.serverId ∧
        finalName R.strategy other = finalName R.strategy target

def toolsByServer : ToolsByServer :=
  (R.servers.entries.filter fun e => e.2.health.healthy).map fun e =>
    (e.1, e.2.tools.map ToolMetadata.name)

-- no name is listed twice where the strategy does not tell the servers apart
def Buildable : Prop := R.strategy = .prefixed ∨ detectConflicts R.toolsByServer = []

def rebuilds : RegistryCall → Bool
  | .refreshServer _ _ _ => false
  | .clientUsed _ _ _ => false
  | _ => true

-- the call leaves the tools on offer as they were, or rebuilds the map without a conflict
def Renews (c : RegistryCall) : Prop :=
  (∀ target, (R.beforeRebuild c).Offers target ↔ R.Offers target) ∨
    rebuilds c = true ∧ (R.beforeRebuild c).Buildable

variable {R}

theorem mem_targets {target : ToolTarget} : target ∈ targets R.toolsByServer ↔ R.Offers target := by
  obtain ⟨serverId, toolName⟩ := target
  simp only [targets, toolsByServer, List.mem_flatMap, List.mem_map, List.mem_filter, Offers,
    getServerInfo, OrderedMap.get?_eq_some_iff, ToolTarget.mk.injEq]
  constructor
  · rintro ⟨e, ⟨⟨serverId', info⟩, ⟨hmem, hhealthy⟩, rfl⟩, name, hname, rfl, rfl⟩
    obtain ⟨tool, htool, hsame⟩ := List.mem_map.mp hname
    exact ⟨info, hmem, hhealthy, tool, htool, hsame⟩
  · rintro ⟨info, hmem, hhealthy, tool, htool, rfl⟩
    exact ⟨_, ⟨(serverId, info), ⟨hmem, hhealthy⟩, rfl⟩, tool.name, List.mem_map_of_mem htool,
      rfl, rfl⟩

theorem finalName_inj {strategy : NamespaceStrategy} {a b : ToolTarget}
    (hserver : a.serverId = b.serverId) (h : finalName strategy a = finalName strategy b) :
    a = b := by
  obtain ⟨serverId, toolName⟩ := a
  obtain ⟨serverId', toolName'⟩ := b
  obtain rfl : serverId = serverId' := hserver
  cases strategy with
  | none => exact congrArg _ h
  | prefixed => exact congrArg _ ((String.append_right_inj _).mp h)

theorem fresh_of_buildNamespaceMap {map : NamespaceMap}
    (hmap : buildNamespaceMap R.toolsByServer R.strategy = some map)
    (hsame : R.namespaceMap = map) : R.Fresh := by
  rw [buildNamespaceMap_eq hmap] at hsame
  have hnamed : ∀ name target, R.namespaceMap.get? name = some target →
      R.Offers target ∧ finalName R.strategy target = name := by
    intro name target htarget
    rw [hsame] at htarget
    rcases OrderedMap.get?_foldl_set htarget with ⟨hmem, hname⟩ | hempty
    · exact ⟨mem_targets.1 hmem, hname⟩
    · cases hempty
  constructor
  · exact fun name target htarget => (hnamed name target htarget).1
  · intro target htarget
    have hsome : (R.namespaceMap.get? (finalName R.strategy target)).isSome = true := by
      rw [hsame]
      exact OrderedMap.isSome_foldl_set (.inr ⟨target, mem_targets.2 htarget, rfl⟩)
    obtain ⟨held, hheld⟩ := Option.isSome_iff_exists.mp hsome
    obtain ⟨hoffered, hname⟩ := hnamed _ held hheld
    by_cases hserver : held.serverId = target.serverId
    · exact .inl ⟨_, finalName_inj hserver hname ▸ hheld⟩
    · exact .inr ⟨held, hoffered, hserver, hname⟩

theorem Fresh.congr {R' : ServerRegistry} (h : R.Fresh) (hmap : R'.namespaceMap = R.namespaceMap)
    (hstrategy : R'.strategy = R.strategy) (hoffers : ∀ target, R'.Offers target ↔ R.Offers target) :
    R'.Fresh where
  offered := by
    intro name target htarget
    rw [hmap] at htarget
    exact (hoffers target).mpr (h.offered name target htarget)
  reachable := by
    intro target htarget
    rw [hmap, hstrategy]
    rcases h.reachable target ((hoffers target).mp htarget) with hname | ⟨other, hother, hconflict⟩
    · exact .inl hname
    · exact .inr ⟨other, (hoffers other).mpr hother, hconflict⟩

section Frames

-- what touches neither the map nor the strategy
def Keeps (R R' : ServerRegistry) : Prop :=
  R'.namespaceMap = R.namespaceMap ∧ R'.strategy = R.strategy

theorem Keeps.refl (R : ServerRegistry) : R.Keeps R := ⟨rfl, rfl⟩

theorem Keeps.trans {R' R'' : ServerRegistry} (h : R.Keeps R') (h' : R'.Keeps R'') :
    R.Keeps R'' :=
  ⟨h'.1.trans h.1, h'.2.trans h.2⟩

theorem keeps_foldl {ι : Type} {f : ServerRegistry → ι → ServerRegistry}
    (hf : ∀ R i, Keeps R (f R i)) (is : List ι) : R.Keeps (is.foldl f R) := by
  induction is generalizing R with
  | nil => exact .refl R
  | cons i is ih => exact (hf R i).trans ih

theorem keeps_updateServer (serverId : String) (f : ServerInfo → ServerInfo) :
    R.Keeps (R.updateServer serverId f) := by
  unfold updateServer
  split
  · exact .refl R
  · exact ⟨rfl, rfl⟩

theorem keeps_addServer (server : ServerConfig) : R.Keeps (R.addServer server) := by
  unfold addServer
  split
  · exact .refl R
  · exact ⟨rfl, rfl⟩

theorem keeps_refresh (serverId : String) (now : ℕ) (listing : Listing) :
    R.Keeps (R.refresh serverId now listing) := by
  cases listing with
  | noClient => exact .refl R
  | failed => exact keeps_updateServer serverId _
  | listed tools => exact keeps_updateServer serverId _

theorem keeps_refreshAll (now : ℕ) (listings : String → Listing) :
    R.Keeps (R.refreshAll now listings) :=
  keeps_foldl (fun _ serverId => keeps_refresh serverId now _) _

theorem keeps_checkAll (now : ℕ) (probes : ClientRef → ReplicaProbe) :
    R.Keeps (R.checkAll now probes) := by
  apply keeps_foldl
  intro R serverId
  refine Keeps.trans ?_ (keeps_updateServer serverId _)
  exact keeps_foldl (fun R idx => keeps_updateServer _ _) _

end Frames

theorem strategy_rebuildNamespaceMap : R.rebuildNamespaceMap.strategy = R.strategy := by
  unfold rebuildNamespaceMap
  dsimp only
  split
  · rfl
  · rfl

theorem toolsByServer_rebuildNamespaceMap :
    R.rebuildNamespaceMap.toolsByServer = R.toolsByServer := by
  rw [toolsByServer, servers_rebuildNamespaceMap, toolsByServer]

theorem buildNamespaceMap_of_buildable (h : R.Buildable) :
    ∃ map, buildNamespaceMap R.toolsByServer R.strategy = some map := by
  unfold buildNamespaceMap
  cases hstrategy : R.strategy with
  | prefixed => exact ⟨_, rfl⟩
  | none =>
      have hnone := h.resolve_left fun hprefixed => by rw [hstrategy] at hprefixed; cases hprefixed
      exact ⟨_, if_pos hnone⟩

theorem namespaceMap_rebuildNamespaceMap {map : NamespaceMap}
    (h : buildNamespaceMap R.toolsByServer R.strategy = some map) :
    R.rebuildNamespaceMap.namespaceMap = map := by
  unfold rebuildNamespaceMap
  rw [toolsByServer] at h
  dsimp only
  rw [h]

theorem rebuildNamespaceMap_of_conflict
    (h : buildNamespaceMap R.toolsByServer R.strategy = none) : R.rebuildNamespaceMap = R := by
  unfold rebuildNamespaceMap
  rw [toolsByServer] at h
  dsimp only
  rw [h]

theorem fresh_rebuildNamespaceMap {map : NamespaceMap}
    (h : buildNamespaceMap R.toolsByServer R.strategy = some map) :
    R.rebuildNamespaceMap.Fresh := by
  apply fresh_of_buildNamespaceMap
  · rw [toolsByServer_rebuildNamespaceMap, strategy_rebuildNamespaceMap]
    exact h
  · exact namespaceMap_rebuildNamespaceMap h

-- a rebuild that fails leaves the map it found
theorem Fresh.rebuildNamespaceMap (h : R.Fresh) : R.rebuildNamespaceMap.Fresh := by
  cases hmap : buildNamespaceMap R.toolsByServer R.strategy with
  | none => exact (rebuildNamespaceMap_of_conflict hmap).symm ▸ h
  | some map => exact fresh_rebuildNamespaceMap hmap

theorem keeps_beforeRebuild (R : ServerRegistry) (c : RegistryCall) : R.Keeps (R.beforeRebuild c) := by
  cases c with
  | initializeRegistry now listings => exact keeps_refreshAll now listings
  | addServer server now listing =>
      simp only [beforeRebuild]
      split
      · exact .refl R
      · exact (keeps_addServer server).trans (keeps_refresh server.id now listing)
  | removeServer serverId =>
      simp only [beforeRebuild]
      split
      · exact .refl R
      · exact ⟨rfl, rfl⟩
  | refreshServer serverId now listing => exact keeps_refresh serverId now listing
  | runHealthChecks now probes => exact keeps_checkAll now probes
  | updateAnnotations serverId tools => exact keeps_updateServer serverId _
  | clientUsed client breaker activeConnections => exact keeps_updateServer client.serverId _

theorem call_eq (R : ServerRegistry) (c : RegistryCall) :
    R.call c = (R.beforeRebuild c).rebuildNamespaceMap ∧ rebuilds c = true ∨
      R.call c = R.beforeRebuild c ∧ (rebuilds c = true → R.beforeRebuild c = R) := by
  cases c with
  | initializeRegistry now listings => exact .inl ⟨rfl, rfl⟩
  | addServer server now listing =>
      simp only [call, beforeRebuild]
      split
      · exact .inr ⟨rfl, fun _ => rfl⟩
      · exact .inl ⟨rfl, rfl⟩
  | removeServer serverId =>
      simp only [call, beforeRebuild, ServerRegistry.removeServer]
      cases R.getServerInfo serverId with
      | none => exact .inr ⟨rfl, fun _ => rfl⟩
      | some info => exact .inl ⟨rfl, rfl⟩
  | refreshServer serverId now listing => exact .inr ⟨rfl, fun h => by cases h⟩
  | runHealthChecks now probes => exact .inl ⟨rfl, rfl⟩
  | updateAnnotations serverId tools =>
      simp only [call, beforeRebuild, ServerRegistry.updateAnnotations]
      cases hinfo : R.getServerInfo serverId with
      | none =>
          have hsame : ∀ f, R.updateServer serverId f = R := fun f => by
            unfold updateServer
            rw [hinfo]
          exact .inr ⟨(hsame _).symm, fun _ => hsame _⟩
      | some info => exact .inl ⟨rfl, rfl⟩
  | clientUsed client breaker activeConnections => exact .inr ⟨rfl, fun h => by cases h⟩

theorem fresh_call {c : RegistryCall} (h : R.Fresh) (hrenews : R.Renews c) : (R.call c).Fresh := by
  have hkeeps := keeps_beforeRebuild R c
  have hunchanged (hoffers : ∀ target, (R.beforeRebuild c).Offers target ↔ R.Offers target) :
      (R.beforeRebuild c).Fresh := h.congr hkeeps.1 hkeeps.2 hoffers
  rcases call_eq R c with ⟨hcall, _⟩ | ⟨hcall, hsame⟩
  · rw [hcall]
    rcases hrenews with hoffers | ⟨_, hbuildable⟩
    · exact (hunchanged hoffers).rebuildNamespaceMap
    · obtain ⟨map, hmap⟩ := buildNamespaceMap_of_buildable hbuildable
      exact fresh_rebuildNamespaceMap hmap
  · rw [hcall]
    rcases hrenews with hoffers | ⟨hrebuilds, _⟩
    · exact hunchanged hoffers
    · exact (hsame hrebuilds).symm ▸ h

theorem fresh_init (router : RouterConfig) (servers : List ServerConfig) :
    (init router servers).Fresh := by
  have hunhealthy : ∀ m : OrderedMap String ServerInfo,
      (∀ serverId info, m.get? serverId = some info → info.health.healthy = false) →
      ∀ serverId info,
        (servers.foldl (fun m s => m.set s.id (buildServer router.circuitBreaker s)) m).get?
          serverId = some info → info.health.healthy = false := by
    induction servers with
    | nil => exact fun _ h => h
    | cons server servers ih =>
        intro m h
        apply ih
        intro serverId info hinfo
        rw [OrderedMap.get?_set] at hinfo
        split at hinfo
        · cases hinfo
          rfl
        · exact h serverId info hinfo
  constructor
  · intro name target htarget
    cases htarget
  · rintro target ⟨info, hinfo, hhealthy, _⟩
    have hnot := hunhealthy .empty (fun _ _ h => by cases h) target.serverId info hinfo
    rw [hnot] at hhealthy
    cases hhealthy

theorem fresh_foldl {past future : List RegistryCall} (h : R.Fresh)
    (halong : Transition.Along (fun R c => some (R.call c)) Renews R (past ++ future)) :
    (past.foldl call R).Fresh := by
  induction past generalizing R with
  | nil => exact h
  | cons c past ih =>
      obtain ⟨hrenews, hrest⟩ := halong
      exact ih (fresh_call h hrenews) (hrest _ rfl)

section Runs

def listing (names : List String) : Listing := .listed (names.map fun name => { name })

def files : ServerConfig := { id := "files", url := "http://files" }

def search : ServerConfig := { id := "search", url := "http://search" }

-- both servers answer and neither lists a tool of the other
def distinctTools : RegistryCall :=
  .initializeRegistry 0 fun serverId =>
    if serverId = "files" then listing ["read", "write"] else listing ["find"]

end Runs

end ServerRegistry

end Conduit.Router
